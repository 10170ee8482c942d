import CodeListing.Pattern.Trivia
import CodeListing.Unicode.Numeric

/-! # How groups open

What follows an opening parenthesis says what kind of group it opens, or that
it opens none and only sets flags. The one flag that matters to the form of the
rest is `x`, which makes a pattern extended.
-/

namespace CodeListing.Pattern

open Unicode

/-- What an opening parenthesis begins. -/
inductive Opening where
  /-- A group without a name. -/
  | plain
  /-- A group with a name, which no other group may have. -/
  | named (name : List Char)
  /-- A group with flags of its own, and what they say of `x`. -/
  | flagged (extended : Option Bool)
  /-- Flags for the rest of the group around them, and what they say of `x`. -/
  | setting (extended : Option Bool)
  deriving Repr, DecidableEq

def isGroupName : List Char → Bool
  | [] => false
  | c :: rest =>
    (c = '_' || isAlphabetic c) &&
      rest.all fun d => d = '_' || d = '.' || d = '[' || d = ']' || isAlphanumeric d

def readGroupName (text : List Char) : Option (Opening × List Char) :=
  let name := text.takeWhile (· ≠ '>')
  match text.dropWhile (· ≠ '>') with
  | [] => none
  | _ :: rest => if isGroupName name then some (.named name, rest) else none

/-- The flags, and the dash that turns off those after it. -/
def isFlag (c : Char) : Bool :=
  "imsUuRx-".toList.contains c

/-- What flags say of `x`, given in the reverse of the order in which they stand. -/
def extendedBy (flags : List Char) : Option Bool :=
  if flags.contains 'x' then some !(flags.dropWhile (· ≠ 'x')).contains '-' else none

/-- Reads flags up to a colon or parenthesis, `flags` being those already read, the
last first. No flag may stand twice and no dash at the end. -/
def readFlags (flags : List Char) : List Char → Option (Opening × List Char)
  | [] => none
  | c :: rest =>
    if c = ':' then
      if flags.head? = some '-' then none else some (.flagged (extendedBy flags), rest)
    else if c = ')' then
      if flags.isEmpty || flags.head? = some '-' then none
      else some (.setting (extendedBy flags), rest)
    else if isFlag c && !flags.contains c then readFlags (c :: flags) rest
    else none

/-- Reads what follows an opening parenthesis. Lookaround is refused. -/
def readOpening (extended : Bool) (text : List Char) : Option (Opening × List Char) :=
  match skip extended text with
  | '?' :: '=' :: _ => none
  | '?' :: '!' :: _ => none
  | '?' :: '<' :: '=' :: _ => none
  | '?' :: '<' :: '!' :: _ => none
  | '?' :: 'P' :: '<' :: rest => readGroupName rest
  | '?' :: '<' :: rest => readGroupName rest
  | '?' :: rest => readFlags [] rest
  | rest => some (.plain, rest)

theorem length_readGroupName {opening : Opening} {text rest : List Char}
    (h : readGroupName text = some (opening, rest)) : rest.length ≤ text.length := by
  have hDrop := (List.dropWhile_suffix (l := text) (fun c => decide (c ≠ '>'))).length_le
  simp only [readGroupName] at h
  split at h
  · cases h
  · rename_i hText
    split at h
    · cases h
      simp only [hText, List.length_cons] at hDrop
      omega
    · cases h

theorem length_readFlags {opening : Opening} {flags text rest : List Char}
    (h : readFlags flags text = some (opening, rest)) : rest.length ≤ text.length := by
  induction text generalizing flags with
  | nil => cases h
  | cons c tail ih =>
    apply Nat.le_succ_of_le
    simp only [readFlags] at h
    split at h
    · split at h
      · cases h
      · cases h
        exact Nat.le_refl _
    · split at h
      · split at h
        · cases h
        · cases h
          exact Nat.le_refl _
      · split at h
        · exact ih h
        · cases h

theorem length_readOpening {extended : Bool} {opening : Opening} {text rest : List Char}
    (h : readOpening extended text = some (opening, rest)) : rest.length ≤ text.length := by
  refine Nat.le_trans ?_ (length_skip_le extended text)
  unfold readOpening at h
  split at h
  · cases h
  · cases h
  · cases h
  · cases h
  · rename_i hText
    have hName := length_readGroupName h
    simp only [hText, List.length_cons]
    omega
  · rename_i hText
    have hName := length_readGroupName h
    simp only [hText, List.length_cons]
    omega
  · rename_i hText
    have hFlags := length_readFlags h
    simp only [hText, List.length_cons]
    omega
  · cases h
    exact Nat.le_refl _

end CodeListing.Pattern
