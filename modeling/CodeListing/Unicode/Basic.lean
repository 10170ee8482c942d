/-! # Properties of characters

A character property is a list of closed ranges of code points above ASCII,
in ascending order. ASCII itself is decided by each property before its table
is consulted, so no table repeats it. The properties here are those of blanks:
`White_Space`, which is wider than the four blanks of ASCII text, and the
characters that end a line in displayed text.
-/

namespace CodeListing

theorem ne_of_test {p : Char → Bool} {c d : Char} (hc : p c = false) (hd : p d = true) :
    c ≠ d := by
  rintro rfl
  exact Bool.false_ne_true (hc.symm.trans hd)

namespace Unicode

/-- Closed ranges of code points, each written as its first and last member. -/
abbrev Ranges := List (Nat × Nat)

namespace Ranges

def contains (ranges : Ranges) (c : Char) : Bool :=
  ranges.any fun range => range.1 ≤ c.toNat && c.toNat ≤ range.2

end Ranges

/-- The first 128 code points. -/
def isAscii (c : Char) : Bool :=
  c.toNat < 128

def blankRanges : Ranges :=
  [(0x85, 0x85), (0xA0, 0xA0), (0x1680, 0x1680), (0x2000, 0x200A), (0x2028, 0x2029),
   (0x202F, 0x202F), (0x205F, 0x205F), (0x3000, 0x3000)]

/-- The characters with the property `White_Space`. -/
def isBlank (c : Char) : Bool :=
  if isAscii c then c = ' ' || (9 ≤ c.toNat && c.toNat ≤ 13) else blankRanges.contains c

/-- The characters after which displayed text starts a new line. -/
def isLineEnd (c : Char) : Bool :=
  (10 ≤ c.toNat && c.toNat ≤ 13) || c.toNat = 0x85 || c.toNat = 0x2028 || c.toNat = 0x2029

/-- The control characters, general category `Cc`. -/
def isControl (c : Char) : Bool :=
  c.toNat < 0x20 || (0x7F ≤ c.toNat && c.toNat < 0xA0)

end Unicode

end CodeListing
