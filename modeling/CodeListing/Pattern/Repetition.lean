import CodeListing.Pattern.Trivia

/-! # Repetition operators

A repetition is `*`, `+`, `?` or a count in braces, and may be made lazy by a
question mark. The numbers of a count fit into 32 bits and are in order.
-/

namespace CodeListing.Pattern

open Unicode

def maxCount : Nat :=
  UInt32.size - 1

/-- The text after a question mark that makes a repetition lazy. -/
def skipLazy : List Char → List Char
  | '?' :: rest => rest
  | text => text

/-- Reads decimal digits and gives their value. An extended pattern may have trivia
after each. -/
def readDigits (extended : Bool) (value : Nat) (text : List Char) : Nat × List Char :=
  match text with
  | [] => (value, [])
  | c :: rest =>
    if c.isDigit then
      readDigits extended (value * 10 + (c.toNat - '0'.toNat)) (skip extended rest)
    else (value, c :: rest)
termination_by text.length
decreasing_by
  have := length_skip_le extended rest
  simp only [List.length_cons]
  omega

/-- Reads a number, which may have white space around it. -/
def readNumber (extended : Bool) (text : List Char) : Option (Nat × List Char) :=
  let text := text.dropWhile isBlank
  if (text.head?.any Char.isDigit) then
    let (value, rest) := readDigits extended 0 text
    if value ≤ maxCount then some (value, rest.dropWhile isBlank) else none
  else none

def readCount (extended : Bool) (text : List Char) : Option (List Char) :=
  match readNumber extended (skip extended text) with
  | some (_, '}' :: rest) => some (skipLazy (skip extended rest))
  | some (least, ',' :: rest) =>
    match skip extended rest with
    | '}' :: rest => some (skipLazy (skip extended rest))
    | text =>
      match readNumber extended text with
      | some (most, '}' :: rest) =>
        if least ≤ most then some (skipLazy (skip extended rest)) else none
      | _ => none
  | _ => none

def readRepetition (extended : Bool) (c : Char) (rest : List Char) : Option (List Char) :=
  if c = '{' then readCount extended rest else some (skipLazy rest)

theorem length_skipLazy_le (text : List Char) : (skipLazy text).length ≤ text.length := by
  unfold skipLazy
  split
  · simp
  · exact Nat.le_refl _

theorem length_readDigits_le (extended : Bool) (value : Nat) (text : List Char) :
    (readDigits extended value text).2.length ≤ text.length := by
  fun_induction readDigits extended value text with
  | case1 => exact Nat.le_refl _
  | case2 value c rest hDigit ih =>
    have hSkip := length_skip_le extended rest
    simp only [List.length_cons]
    omega
  | case3 => exact Nat.le_refl _

theorem length_readNumber {extended : Bool} {value : Nat} {text rest : List Char}
    (h : readNumber extended text = some (value, rest)) : rest.length ≤ text.length := by
  simp only [readNumber] at h
  split at h
  · split at h
    · cases h
      refine Nat.le_trans (List.dropWhile_suffix _).length_le ?_
      exact Nat.le_trans (length_readDigits_le _ _ _) (List.dropWhile_suffix _).length_le
    · cases h
  · cases h

theorem length_afterCount_le (extended : Bool) (rest : List Char) :
    (skipLazy (skip extended rest)).length ≤ rest.length :=
  Nat.le_trans (length_skipLazy_le _) (length_skip_le _ _)

theorem length_readCount {extended : Bool} {text rest : List Char}
    (h : readCount extended text = some rest) : rest.length ≤ text.length := by
  have hSkip := length_skip_le extended text
  unfold readCount at h
  split at h
  · rename_i tail hNumber
    have hTail := length_readNumber hNumber
    have hAfter := length_afterCount_le extended tail
    cases h
    simp only [List.length_cons] at hTail
    omega
  · rename_i least tail hNumber
    have hTail := length_readNumber hNumber
    have hTail' := length_skip_le extended tail
    simp only [List.length_cons] at hTail
    split at h
    · rename_i tail' hText
      have hAfter := length_afterCount_le extended tail'
      cases h
      simp only [hText, List.length_cons] at hTail'
      omega
    · split at h
      · rename_i most tail' hNumber'
        have hMost := length_readNumber hNumber'
        have hAfter := length_afterCount_le extended tail'
        simp only [List.length_cons] at hMost
        split at h
        · cases h
          omega
        · cases h
      · cases h
  · cases h

theorem length_readRepetition {extended : Bool} {c : Char} {text rest : List Char}
    (h : readRepetition extended c text = some rest) : rest.length ≤ text.length := by
  unfold readRepetition at h
  split at h
  · exact length_readCount h
  · cases h
    exact length_skipLazy_le text

end CodeListing.Pattern
