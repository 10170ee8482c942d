/-! # Settings

What a user may choose about a listing. A setting is a plain value; `violation?`
says whether the values make sense together with the markup they end up in.
-/

namespace CodeListing

/-- The choices for one listing. -/
structure Settings where
  /-- Pixels of padding for one level of nesting. -/
  indentUnit : UInt32 := 20
  /-- How many flags of a regular expression belong to its token at most. -/
  maxRegexFlags : Nat := 4
  /-- How many members of a dotted name are nested in each other at most. -/
  maxMemberDepth : Nat := 64
  classPrefix : String := ""
  deriving Repr, DecidableEq

inductive Violation where
  /-- The depth of dotted names is zero. -/
  | zeroMemberDepth
  /-- The class prefix has a character that a class name cannot have. -/
  | badPrefixCharacter (c : Char)
  deriving Repr, DecidableEq

namespace Violation

def message : Violation → String
  | .zeroMemberDepth => "max_member_depth must be at least 1"
  | .badPrefixCharacter c => "class_prefix may not contain '" ++ c.toString ++ "'"

end Violation

namespace Settings

/-- The characters of a class prefix: letters and digits of ASCII, dash, underscore. -/
def isPrefixCharacter (c : Char) : Bool :=
  c.isAlphanum || c = '-' || c = '_'

/-- The first reason to refuse the settings. -/
def violation? (settings : Settings) : Option Violation :=
  if settings.maxMemberDepth = 0 then some .zeroMemberDepth
  else
    (settings.classPrefix.toList.find? fun c => !isPrefixCharacter c).map .badPrefixCharacter

/-- Settings are accepted if dotted names may nest and the prefix is plain. -/
theorem violation?_eq_none_iff (settings : Settings) :
    settings.violation? = none ↔
      settings.maxMemberDepth ≠ 0 ∧ ∀ c ∈ settings.classPrefix.toList, isPrefixCharacter c := by
  unfold violation?
  split
  · simp_all
  · simp_all [List.find?_eq_none]

end Settings

end CodeListing
