import CodeListing.Pattern.Trivia
import CodeListing.Text.Hexadecimal

/-! # Escapes and single characters

The smallest parts of a pattern, and the kinds of characters that the notation
tells apart, all of them ASCII. Readers return what they read and the text after
it, which is never longer than the text they were given.
-/

namespace CodeListing.Pattern

open Text (hexValue?)

/-- The characters that mean something in a pattern; after a backslash they stand
for themselves. -/
def isMeta (c : Char) : Bool :=
  "\\.+*?()|[]\x7b\x7d^$#&-~".toList.contains c

/-- The letters that stand for a set of characters after a backslash. -/
def isSetLetter (c : Char) : Bool :=
  c = 'd' || c = 'D' || c = 'w' || c = 'W' || c = 's' || c = 'S'

def control? (c : Char) : Option Char :=
  if c = 'n' then some '\n'
  else if c = 'r' then some '\r'
  else if c = 't' then some '\t'
  else if c = 'v' then some '\x0b'
  else if c = 'f' then some '\x0c'
  else none

/-- A smallest part of a pattern. -/
inductive Atom where
  /-- A character that stands for itself, plainly or by an escape. -/
  | literal (c : Char)
  /-- An escape that stands for a set of characters. -/
  | set
  /-- An escape that stands for a place between characters. -/
  | boundary
  deriving Repr, DecidableEq

/-- Reads `count` hexadecimal digits, of which `value` is the value so far. An
extended pattern may have trivia before and after each. -/
def readHexDigits (extended : Bool) : Nat → Nat → List Char → Option (Nat × List Char)
  | 0, value, text => some (value, skip extended text)
  | count + 1, value, text =>
    match skip extended text with
    | [] => none
    | c :: rest =>
      match hexValue? c with
      | none => none
      | some digit => readHexDigits extended count (value * 16 + digit) rest

def readCodePoint (extended : Bool) (count : Nat) (text : List Char) :
    Option (Atom × List Char) :=
  match readHexDigits extended count 0 text with
  | none => none
  | some (value, rest) =>
    if value.isValidChar then some (.literal (Char.ofNat value), rest) else none

def readEscape (extended : Bool) : List Char → Option (Atom × List Char)
  | [] => none
  | c :: rest =>
    if c = 'x' then readCodePoint extended 2 rest
    else if c = 'u' then readCodePoint extended 4 rest
    else if isSetLetter c then some (.set, rest)
    else if c = 'b' || c = 'B' then some (.boundary, rest)
    else if isMeta c then some (.literal c, rest)
    else (control? c).map fun control => (.literal control, rest)

def readAtom (extended : Bool) (c : Char) (rest : List Char) : Option (Atom × List Char) :=
  if c = '\\' then readEscape extended rest else some (.literal c, rest)

theorem length_readHexDigits {extended : Bool} {count value result : Nat} {text rest : List Char}
    (h : readHexDigits extended count value text = some (result, rest)) :
    rest.length ≤ text.length := by
  have hSkip := length_skip_le extended text
  induction count generalizing value text with
  | zero =>
    cases h
    exact hSkip
  | succ count ih =>
    simp only [readHexDigits] at h
    split at h
    · cases h
    · rename_i c tail hText
      split at h
      · cases h
      · have hTail := ih h (length_skip_le extended tail)
        simp only [hText, List.length_cons] at hSkip
        omega

theorem length_readCodePoint {extended : Bool} {count : Nat} {atom : Atom}
    {text rest : List Char} (h : readCodePoint extended count text = some (atom, rest)) :
    rest.length ≤ text.length := by
  unfold readCodePoint at h
  split at h
  · cases h
  · rename_i hDigits
    split at h
    · cases h
      exact length_readHexDigits hDigits
    · cases h

theorem length_readEscape {extended : Bool} {atom : Atom} {text rest : List Char}
    (h : readEscape extended text = some (atom, rest)) : rest.length ≤ text.length := by
  cases text with
  | nil => cases h
  | cons c tail =>
    apply Nat.le_succ_of_le
    simp only [readEscape] at h
    split at h
    · exact length_readCodePoint h
    · split at h
      · exact length_readCodePoint h
      · split at h
        · cases h
          exact Nat.le_refl _
        · split at h
          · cases h
            exact Nat.le_refl _
          · split at h
            · cases h
              exact Nat.le_refl _
            · obtain ⟨_, _, hEq⟩ := Option.map_eq_some_iff.1 h
              cases hEq
              exact Nat.le_refl _

theorem length_readAtom {extended : Bool} {c : Char} {atom : Atom} {text rest : List Char}
    (h : readAtom extended c text = some (atom, rest)) : rest.length ≤ text.length := by
  unfold readAtom at h
  split at h
  · exact length_readEscape h
  · cases h
    exact Nat.le_refl _

end CodeListing.Pattern
