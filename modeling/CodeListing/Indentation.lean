/-! # Indentation

The nesting level of a line follows from the brackets at the ends of the lines
before it. A closing character at the start of a line takes the line itself one
level out; an opening character at its end takes the lines after it one level
in, so that `} else {` stands at the level of its `if`.
-/

namespace CodeListing.Indentation

/-- The characters that open a level at the end of a line; a question mark opens
the branches of a conditional. -/
def isOpener (c : Char) : Bool :=
  c = '{' || c = '[' || c = '(' || c = '?'

/-- The characters that close a level at the start of a line. -/
def isCloser (c : Char) : Bool :=
  c = '}' || c = ']' || c = ')'

/-- The level of a line whose first character is `first`, given the level that
the lines before it left. Surplus closers are not remembered. -/
def levelOf (level : Nat) (first : Char) : Nat :=
  if isCloser first then level - 1 else level

/-- The level that a line of level `level` leaves to the lines after it. -/
def levelAfter (level : Nat) (last : Char) : Nat :=
  if isOpener last then level + 1 else level

def maxPadding : Nat :=
  UInt32.size - 1

/-- The padding of a level: a multiple of `unit`, counted in words of 32 bits. The
level is reduced to such a word and the product stops at the greatest one. -/
def padding (unit : UInt32) (level : Nat) : Nat :=
  min (level.toUInt32.toNat * unit.toNat) maxPadding

/-- The paddings of lines given by their first and last characters, blank lines
being `none`, when the lines before them left `level`. -/
def paddings (unit : UInt32) (level : Nat) : List (Option (Char × Char)) → List (Option Nat)
  | [] => []
  | none :: lines => none :: paddings unit level lines
  | some (first, last) :: lines =>
    let here := levelOf level first
    some (padding unit here) :: paddings unit (levelAfter here last) lines

/-- A level that is a word of 32 bits counts in full. -/
theorem padding_of_lt {level : Nat} (unit : UInt32) (h : level < UInt32.size) :
    padding unit level = min (level * unit.toNat) maxPadding := by
  rw [padding, show level.toUInt32.toNat = level from UInt32.toNat_ofNat_of_lt h]

@[simp] theorem length_paddings (unit : UInt32) (lines : List (Option (Char × Char))) :
    ∀ level, (paddings unit level lines).length = lines.length := by
  induction lines with
  | nil => simp [paddings]
  | cons line lines ih =>
    intro level
    cases line with
    | none => simp [paddings, ih]
    | some pair => simp [paddings, ih]

end CodeListing.Indentation
