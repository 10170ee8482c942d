import CodeListing.Pattern.Atom
import CodeListing.Pattern.Nesting
import CodeListing.Pattern.Repetition
import CodeListing.Text.Hexadecimal

/-! # Regular expressions as trees

What JavaScript means by a regular expression, given not by a reader but by the
trees of its grammar. A tree knows how it is written and how deep it is nested,
and what the grammar asks of its parts (numbers in order, ranges in order, no
surrogates) is part of the tree, so everything that a tree can be is well formed.
-/

namespace CodeListing

namespace Regex

open Pattern (isSetLetter control? maxCount)
open Text (hexValue? isHexDigit)

/-- Decimal digits, at least one. -/
structure Digits where
  chars : List Char
  ne_nil : chars ≠ []
  isDigit : ∀ c ∈ chars, c.isDigit = true
  deriving DecidableEq

def Digits.value (digits : Digits) : Nat :=
  digits.chars.foldl (fun value c => value * 10 + (c.toNat - '0'.toNat)) 0

def Digits.push (digits : Digits) (c : Char) (h : c.isDigit = true) : Digits where
  chars := digits.chars ++ [c]
  ne_nil := by simp
  isDigit := by
    intro d hd
    rcases List.mem_append.1 hd with hd | hd
    · exact digits.isDigit d hd
    · rwa [List.mem_singleton.1 hd]

structure HexDigit where
  char : Char
  isHex : isHexDigit char = true
  deriving DecidableEq

def HexDigit.value (digit : HexDigit) : Nat :=
  (hexValue? digit.char).get digit.isHex

/-- The number that hexadecimal digits write. -/
def hexNumber (digits : List HexDigit) : Nat :=
  digits.foldl (fun value digit => value * 16 + digit.value) 0

/-- What may follow a backslash. -/
inductive Escape where
  /-- `\d`, `\D`, `\w`, `\W`, `\s` and `\S` stand for sets of characters. -/
  | set (letter : Char) (isSet : isSetLetter letter = true)
  /-- `\n`, `\r`, `\t`, `\v` and `\f`. -/
  | control (letter c : Char) (isControl : control? letter = some c)
  /-- `\cA` to `\cZ`, in either case, are the control characters with the codes 1 to 26. -/
  | letter (letter : Char) (isLetter : letter.isAlpha = true)
  /-- `\x` and the code of a character. -/
  | byte (high low : HexDigit)
  /-- `\u` and the code of a character, which is no surrogate. -/
  | unit (a b c d : HexDigit)
      (isScalar : hexNumber [a, b, c, d] < 0xD800 ∨ 0xDFFF < hexNumber [a, b, c, d])
  /-- A character that is no letter and no digit of ASCII stands for itself. -/
  | identity (c : Char) (isSymbol : c.isAlphanum = false)

namespace Escape

def body : Escape → List Char
  | .set name _ => [name]
  | .control name _ _ => [name]
  | .letter name _ => ['c', name]
  | .byte high low => ['x', high.char, low.char]
  | .unit a b c d _ => ['u', a.char, b.char, c.char, d.char]
  | .identity c _ => [c]

def char? : Escape → Option Char
  | .set _ _ => none
  | .control _ c _ => some c
  | .letter name _ => some (Char.ofNat (name.toNat % 32))
  | .byte high low => some (Char.ofNat (hexNumber [high, low]))
  | .unit a b c d _ => some (Char.ofNat (hexNumber [a, b, c, d]))
  | .identity c _ => some c

def write (escape : Escape) : List Char :=
  '\\' :: escape.body

end Escape

/-- A single character in a class. -/
inductive ClassAtom where
  | plain (c : Char) (isPlain : c ≠ '\\' ∧ c ≠ ']' ∧ c ≠ '-')
  | escape (escape : Escape) (c : Char) (isChar : escape.char? = some c)
  /-- `\b`, which is a backspace inside a class. -/
  | backspace
  /-- `\0`. -/
  | null

namespace ClassAtom

def char : ClassAtom → Char
  | .plain c _ => c
  | .escape _ c _ => c
  | .backspace => '\x08'
  | .null => '\x00'

def write : ClassAtom → List Char
  | .plain c _ => [c]
  | .escape inner _ _ => inner.write
  | .backspace => ['\\', 'b']
  | .null => ['\\', '0']

end ClassAtom

inductive ClassItem where
  /-- One of the set escapes. -/
  | set (letter : Char) (isSet : isSetLetter letter = true)
  | single (atom : ClassAtom)
  /-- All characters from one to another. -/
  | range (low high : ClassAtom) (ordered : low.char.toNat ≤ high.char.toNat)
  /-- A dash that stands for itself. -/
  | dash

namespace ClassItem

def write : ClassItem → List Char
  | .set letter _ => ['\\', letter]
  | .single atom => atom.write
  | .range low high _ => low.write ++ '-' :: high.write
  | .dash => ['-']

def isDash : ClassItem → Bool
  | .dash => true
  | _ => false

def isSet : ClassItem → Bool
  | .set _ _ => true
  | _ => false

/-- Whether a dash after the item stands for itself whatever comes next. -/
def endsRange : ClassItem → Bool
  | .set _ _ => true
  | .range _ _ _ => true
  | _ => false

/-- Whether a dash between `before` and `after` makes no range. It stands first or last, or
beside a set, or behind a range, and no other dash is before it. -/
def dashApart (before after : Option ClassItem) : Bool :=
  !before.any isDash && (before.all endsRange || after.all isSet)

/-- Whether no dash among the items makes a range, when `before` is the item before them. -/
def dashesApart (before : Option ClassItem) : List ClassItem → Bool
  | [] => true
  | item :: items =>
    (!item.isDash || dashApart before items.head?) && dashesApart (some item) items

def writeAll (items : List ClassItem) : List Char :=
  items.flatMap write

end ClassItem

/-- A class. A caret right after the bracket negates it and is no item. -/
structure Class where
  negated : Bool
  items : List ClassItem
  noCaret : negated = false → (ClassItem.writeAll items).head? ≠ some '^'
  dashes : ClassItem.dashesApart none items = true

namespace Class

def write (class_ : Class) : List Char :=
  '[' :: ((if class_.negated then ['^'] else []) ++ (ClassItem.writeAll class_.items ++ [']']))

/-- The level of a class: items beside each other are one deeper than an item alone, and a
class without items is read as two sets. -/
def level (class_ : Class) : Nat :=
  if class_.items.length = 1 then 1 else 2

end Class

/-- How often something is repeated. -/
inductive Operator where
  | star
  | plus
  | question
  | exactly (count : Digits) (fits : count.value ≤ maxCount)
  | atLeast (least : Digits) (fits : least.value ≤ maxCount)
  | between (least most : Digits) (ordered : least.value ≤ most.value)
      (fits : most.value ≤ maxCount)

def Operator.write : Operator → List Char
  | .star => ['*']
  | .plus => ['+']
  | .question => ['?']
  | .exactly count _ => '{' :: (count.chars ++ ['}'])
  | .atLeast least _ => '{' :: (least.chars ++ [',', '}'])
  | .between least most _ _ => '{' :: (least.chars ++ ',' :: (most.chars ++ ['}']))

/-- A repetition, greedy or lazy. -/
structure Quantifier where
  operator : Operator
  isLazy : Bool

namespace Quantifier

def write : Option Quantifier → List Char
  | none => []
  | some quantifier =>
    quantifier.operator.write ++ if quantifier.isLazy then ['?'] else []

def level (quantifier : Option Quantifier) (inner : Nat) : Nat :=
  if quantifier.isSome then Pattern.enclosing [inner] else inner

end Quantifier

inductive Assertion where
  | start
  | stop
  | boundary
  | interior
  deriving DecidableEq

def Assertion.write : Assertion → List Char
  | .start => ['^']
  | .stop => ['$']
  | .boundary => ['\\', 'b']
  | .interior => ['\\', 'B']

/-- The characters that stand for themselves outside of classes. -/
def isLiteral (c : Char) : Bool :=
  !"^$\\.*+?()[\x7b|".toList.contains c

/-- Something that can be repeated and holds no regular expression. -/
inductive Single where
  | dot
  | literal (c : Char) (isLiteral : isLiteral c = true)
  | escape (escape : Escape)
  /-- A backslash and digits, which name a group. -/
  | backReference (digits : Digits)
  | charClass (class_ : Class)

namespace Single

def write : Single → List Char
  | .dot => ['.']
  | .literal c _ => [c]
  | .escape inner => inner.write
  | .backReference digits => '\\' :: digits.chars
  | .charClass class_ => class_.write

/-- The level; a back reference counts as a group without content. -/
def level : Single → Nat
  | .backReference _ => 1
  | .charClass class_ => class_.level
  | _ => 0

end Single

inductive Opener where
  | capture
  | plain
  | ahead
  | notAhead
  | behind
  | notBehind
  deriving DecidableEq

def Opener.write : Opener → List Char
  | .capture => ['(']
  | .plain => ['(', '?', ':']
  | .ahead => ['(', '?', '=']
  | .notAhead => ['(', '?', '!']
  | .behind => ['(', '?', '<', '=']
  | .notBehind => ['(', '?', '<', '!']

end Regex

/-- A regular expression: terms and the bars between its alternatives, from left to right. -/
inductive Regex where
  | done
  /-- The end of an alternative. -/
  | bar (rest : Regex)
  | assertion (assertion : Regex.Assertion) (rest : Regex)
  | single (single : Regex.Single) (quantifier : Option Regex.Quantifier) (rest : Regex)
  | group (opener : Regex.Opener) (body : Regex) (quantifier : Option Regex.Quantifier)
      (rest : Regex)

namespace Regex

def write : Regex → List Char
  | .done => []
  | .bar rest => '|' :: rest.write
  | .assertion place rest => place.write ++ rest.write
  | .single first quantifier rest =>
    first.write ++ (Quantifier.write quantifier ++ rest.write)
  | .group opener body quantifier rest =>
    opener.write ++ (body.write ++ ')' :: (Quantifier.write quantifier ++ rest.write))

/-- A back reference with `rest` behind it, of which it takes the digits along. -/
def refer (digits : Digits) : Regex → Regex
  | .single (.literal c hc) quantifier rest =>
    if h : c.isDigit = true then
      match quantifier with
      | none => refer (digits.push c h) rest
      | some quantifier => .single (.backReference (digits.push c h)) (some quantifier) rest
    else .single (.backReference digits) none (.single (.literal c hc) quantifier rest)
  | rest => .single (.backReference digits) none rest

/-- The regular expression in which back references take all digits along that follow them. -/
def tidy : Regex → Regex
  | .done => .done
  | .bar rest => .bar rest.tidy
  | .assertion place rest => .assertion place rest.tidy
  | .single (.backReference digits) none rest => refer digits rest.tidy
  | .single first quantifier rest => .single first quantifier rest.tidy
  | .group opener body quantifier rest => .group opener body.tidy quantifier rest.tidy

open Pattern (nesting enclosing)

/-- The levels of the terms of the first alternative, and those of the other alternatives. -/
def levels : Regex → List Nat × List Nat
  | .done => ([], [])
  | .bar rest => ([], nesting rest.levels.1 :: rest.levels.2)
  | .assertion _ rest => (0 :: rest.levels.1, rest.levels.2)
  | .single first quantifier rest =>
    (Quantifier.level quantifier first.level :: rest.levels.1, rest.levels.2)
  | .group _ body quantifier rest =>
    (Quantifier.level quantifier (enclosing [nesting (nesting body.levels.1 :: body.levels.2)]) ::
      rest.levels.1, rest.levels.2)

/-- How deep the tree is nested. Whatever encloses others is one level deeper than the deepest
of them: a group, a class and a repetition, and an alternative or a choice of at least two. -/
def height (regex : Regex) : Nat :=
  nesting (nesting regex.levels.1 :: regex.levels.2)

/-- How deep the regular expression is nested, where digits behind a back reference belong to
the reference. -/
def level (regex : Regex) : Nat :=
  regex.tidy.height

end Regex

end CodeListing
