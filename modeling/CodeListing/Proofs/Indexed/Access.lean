import CodeListing.Token.Delimited

/-! # Access by index

A text can also be read through a cursor, which is an index into it. Then a
character, a part of the text or a difference of two numbers may be asked for where
there is none, which is a fault. The searches here do what those do that take a text
from its front, and have no fault wherever the cursor stands.
-/

namespace CodeListing.Indexed

/-- What can go wrong with indices. -/
inductive Fault where
  /-- No character has the index. -/
  | noCharacter (index : Nat)
  /-- The part does not lie in the text, or ends before it starts. -/
  | noPart (start stop : Nat)
  /-- Nothing remains of the smaller number. -/
  | underflow
  /-- A cursor that should advance does not, or leaves the text. -/
  | astray (cursor : Nat)
  deriving Repr, DecidableEq

abbrev Checked (α : Type) := Except Fault α

@[simp] theorem ok_bind {α β : Type} (value : α) (next : α → Checked β) :
    (Except.ok value : Checked α) >>= next = next value := rfl

@[simp] theorem pure_eq_ok {α : Type} (value : α) : (pure value : Checked α) = .ok value := rfl

def charAt (text : List Char) (index : Nat) : Checked Char :=
  match text[index]? with
  | some c => .ok c
  | none => .error (.noCharacter index)

def part (text : List Char) (start stop : Nat) : Checked (List Char) :=
  if start ≤ stop ∧ stop ≤ text.length then .ok ((text.drop start).take (stop - start))
  else .error (.noPart start stop)

def minus (m n : Nat) : Checked Nat :=
  if n ≤ m then .ok (m - n) else .error .underflow

section

variable {text taken rest : List Char} {i start stop : Nat} {c : Char}

theorem lt_length_of_drop (h : text.drop i = c :: rest) : i < text.length := by
  rw [← Nat.not_le, ← List.drop_eq_nil_iff, h]
  exact List.cons_ne_nil c rest

theorem drop_succ_of_drop (h : text.drop i = c :: rest) : text.drop (i + 1) = rest := by
  rw [← List.drop_drop, h]
  rfl

theorem drop_add_of_drop (h : text.drop i = taken ++ rest) :
    text.drop (i + taken.length) = rest := by
  rw [← List.drop_drop, h, List.drop_left]

theorem add_le_length_of_drop (h : text.drop i = taken ++ rest) (hStart : i ≤ text.length) :
    i + taken.length ≤ text.length := by
  have hLength := congrArg List.length h
  rw [List.length_drop, List.length_append] at hLength
  omega

theorem getElem?_of_drop (h : text.drop i = rest) : text[i]? = rest.head? := by
  rw [← h, List.head?_drop]

theorem getElem?_add_of_drop (h : text.drop i = c :: rest) (k : Nat) :
    text[i + 1 + k]? = rest[k]? := by
  rw [← List.getElem?_drop, drop_succ_of_drop h]

theorem eq_cons_of_getElem? (h : text[0]? = some c) : text = c :: text.tail := by
  cases text with
  | nil => cases h
  | cons d text => exact congrArg (· :: text) (Option.some.inj h)

theorem charAt_of_drop (h : text.drop i = c :: rest) : charAt text i = .ok c := by
  simp [charAt, getElem?_of_drop h]

theorem part_of_le (h : start ≤ stop) (hStop : stop ≤ text.length) :
    part text start stop = .ok ((text.drop start).take (stop - start)) :=
  if_pos ⟨h, hStop⟩

theorem part_of_drop (h : text.drop i = taken ++ rest) (hStart : i ≤ text.length) :
    part text i (i + taken.length) = .ok taken := by
  rw [part_of_le (Nat.le_add_right _ _) (add_le_length_of_drop h hStart), h,
    Nat.add_sub_cancel_left, List.take_left]

theorem part_to_end (h : text.drop i = rest) (hStart : i ≤ text.length) :
    part text i text.length = .ok rest := by
  have hLength : rest.length = text.length - i := by rw [← h, List.length_drop]
  rw [part_of_le hStart (Nat.le_refl _), h, ← hLength, List.take_length]

theorem minus_of_le {m n : Nat} (h : n ≤ m) : minus m n = .ok (m - n) :=
  if_pos h

end

/-- The index of the first `mark` from `i` on, if a backslash and the character after it
belong together. -/
def findUnescaped (mark : Char) (text : List Char) (i : Nat) : Checked (Option Nat) :=
  if _h : i < text.length then do
    let c ← charAt text i
    if c = '\\' then findUnescaped mark text (i + 2)
    else if c = mark then return some i
    else findUnescaped mark text (i + 1)
  else return none
termination_by text.length - i

theorem findUnescaped_of_le {text : List Char} {i : Nat} (h : text.length ≤ i) (mark : Char) :
    findUnescaped mark text i = .ok none := by
  rw [findUnescaped, dif_neg (by omega)]
  rfl

theorem findUnescaped_of_drop_cons {text rest : List Char} {i : Nat} {c : Char}
    (h : text.drop i = c :: rest) (mark : Char) :
    findUnescaped mark text i =
      if c = '\\' then findUnescaped mark text (i + 2)
      else if c = mark then .ok (some i)
      else findUnescaped mark text (i + 1) := by
  rw [findUnescaped, dif_pos (lt_length_of_drop h), charAt_of_drop h]
  rfl

theorem findUnescaped_of_drop {text rest : List Char} {i : Nat} (h : text.drop i = rest)
    (mark : Char) :
    findUnescaped mark text i =
      .ok ((splitUnescaped mark rest).map fun parts => i + parts.1.length) := by
  fun_induction splitUnescaped mark rest generalizing i with
  | case1 => exact findUnescaped_of_le (List.drop_eq_nil_iff.1 h) mark
  | case2 =>
      rw [findUnescaped_of_drop_cons h, if_pos rfl]
      exact findUnescaped_of_le (Nat.le_succ_of_le (List.drop_eq_nil_iff.1 (drop_succ_of_drop h)))
        mark
  | case3 d rest ih =>
      rw [findUnescaped_of_drop_cons h, if_pos rfl, ih (drop_succ_of_drop (drop_succ_of_drop h))]
      simp [Function.comp_def, Nat.add_comm, Nat.add_left_comm]
  | case4 rest hNoBackslash =>
      rw [findUnescaped_of_drop_cons h, if_neg hNoBackslash, if_pos rfl]
      rfl
  | case5 c rest hNoBackslash hNoMark ih =>
      rw [findUnescaped_of_drop_cons h, if_neg hNoBackslash, if_neg hNoMark,
        ih (drop_succ_of_drop h)]
      simp [Function.comp_def, Nat.add_comm, Nat.add_left_comm]

/-- The index of the star of the first end of a comment from `i` on. An empty text has no last
character, and the difference is zero. -/
def findCommentEnd (text : List Char) (i : Nat) : Checked (Option Nat) :=
  if _h : i < text.length - 1 then do
    let c ← charAt text i
    if c = '*' then
      let d ← charAt text (i + 1)
      if d = '/' then return some i else findCommentEnd text (i + 1)
    else findCommentEnd text (i + 1)
  else return none
termination_by text.length - i

theorem two_le_length_of_splitCommentEnd {text comment after : List Char}
    (h : splitCommentEnd text = some (comment, after)) : 2 ≤ comment.length := by
  fun_induction splitCommentEnd text generalizing comment with
  | case1 => cases h
  | case2 =>
      cases h
      exact Nat.le_refl 2
  | case3 c rest _ ih =>
      obtain ⟨⟨comment', after'⟩, hSplit, hEq⟩ := Option.map_eq_some_iff.1 h
      cases hEq
      exact Nat.le_succ_of_le (ih hSplit)

theorem findCommentEnd_of_drop_cons {text rest : List Char} {i : Nat} {c d : Char}
    (h : text.drop i = c :: d :: rest) :
    findCommentEnd text i =
      if c = '*' ∧ d = '/' then .ok (some i) else findCommentEnd text (i + 1) := by
  have hNext := drop_succ_of_drop h
  have hLength := lt_length_of_drop hNext
  rw [findCommentEnd, dif_pos (by omega), charAt_of_drop h, ok_bind, charAt_of_drop hNext]
  by_cases hStar : c = '*' <;> by_cases hSlash : d = '/' <;> simp [hStar, hSlash]

theorem findCommentEnd_of_drop {text rest : List Char} {i : Nat} (h : text.drop i = rest) :
    findCommentEnd text i =
      .ok ((splitCommentEnd rest).map fun parts => i + parts.1.length - 2) := by
  fun_induction splitCommentEnd rest generalizing i with
  | case1 =>
      rw [findCommentEnd, dif_neg]
      · rfl
      · have hLength := List.drop_eq_nil_iff.1 h
        omega
  | case2 rest =>
      rw [findCommentEnd_of_drop_cons h, if_pos ⟨rfl, rfl⟩]
      rfl
  | case3 c rest hNotEnd ih =>
      have hSkip : findCommentEnd text i = findCommentEnd text (i + 1) := by
        cases rest with
        | nil =>
            have hLength := List.drop_eq_nil_iff.1 (drop_succ_of_drop h)
            rw [findCommentEnd, dif_neg (by omega), findCommentEnd, dif_neg (by omega)]
        | cons d rest =>
            rw [findCommentEnd_of_drop_cons h, if_neg]
            rintro ⟨rfl, rfl⟩
            exact hNotEnd rest rfl rfl
      have hTwo (parts : List Char × List Char) (hParts : splitCommentEnd rest = some parts) :
          i + 1 + parts.1.length - 2 = i + (c :: parts.1).length - 2 := by
        rw [List.length_cons]
        omega
      rw [hSkip, ih (drop_succ_of_drop h), Option.map_map]
      congr 1
      exact Option.map_congr hTwo

/-- The index of the last character of the run that `p` makes after `last`. -/
def runEnd (p : Char → Bool) (text : List Char) (last : Nat) : Nat :=
  if _h : text[last + 1]?.any p then runEnd p text (last + 1) else last
termination_by text.length - last
decreasing_by
  have hLength : last + 1 < text.length := by
    refine Nat.lt_of_not_le fun hOutside => ?_
    simp [List.getElem?_eq_none hOutside] at _h
  omega

theorem runEnd_of_drop {text rest : List Char} {last : Nat} (h : text.drop (last + 1) = rest)
    (p : Char → Bool) : runEnd p text last = last + (rest.takeWhile p).length := by
  induction rest generalizing last with
  | nil => simp [runEnd, getElem?_of_drop h]
  | cons c rest ih =>
      rw [runEnd, getElem?_of_drop h]
      by_cases hc : p c = true
      · simp [hc, ih (drop_succ_of_drop h), Nat.add_comm, Nat.add_left_comm]
      · simp [hc]

def cappedRunEnd (p : Char → Bool) (text : List Char) : Nat → Nat → Nat
  | 0, last => last
  | most + 1, last =>
    if text[last + 1]?.any p then cappedRunEnd p text most (last + 1) else last

theorem cappedRunEnd_of_drop {text rest : List Char} {last : Nat}
    (h : text.drop (last + 1) = rest) (p : Char → Bool) (most : Nat) :
    cappedRunEnd p text most last = last + min most (rest.takeWhile p).length := by
  induction most generalizing last rest with
  | zero => simp [cappedRunEnd]
  | succ most ih =>
      rw [cappedRunEnd, getElem?_of_drop h]
      cases rest with
      | nil => simp
      | cons c rest =>
          by_cases hc : p c = true
          · simp [hc, ih (drop_succ_of_drop h), Nat.add_comm, Nat.add_left_comm]
          · simp [hc]

end CodeListing.Indexed
