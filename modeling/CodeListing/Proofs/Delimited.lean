import CodeListing.Token.Delimited

/-! # Where strings, patterns and comments end

Cutting a text at a mark is compared with reading it character by character: a
backslash takes the next character along, and the first mark that is met ends
the text. A block comment is compared with the places where `*/` occurs.
-/

namespace CodeListing

theorem append_eq_append_cons {x y a b : List Char} {c : Char} (h : x ++ y = a ++ c :: b) :
    (∃ after, x = a ++ c :: after ∧ b = after ++ y) ∨
      ∃ before, a = x ++ before ∧ y = before ++ c :: b := by
  rcases List.append_eq_append_iff.1 h with ⟨before, rfl, hRight⟩ | ⟨left, rfl, hRight⟩
  · exact .inr ⟨before, rfl, hRight⟩
  · cases left with
    | nil => exact .inr ⟨[], by simp, hRight.symm⟩
    | cons d left =>
        obtain ⟨rfl, rfl⟩ := List.cons.inj hRight
        exact .inl ⟨left, rfl, rfl⟩

/-- Whether reading the text meets `mark`. A backslash takes the character after
it along. -/
def meetsUnescaped (mark : Char) : List Char → Bool
  | [] => false
  | c :: rest =>
    if c = '\\' then
      match rest with
      | [] => false
      | _ :: after => meetsUnescaped mark after
    else c = mark || meetsUnescaped mark rest

theorem meetsUnescaped_cons {mark c : Char} (h : c ≠ '\\') (rest : List Char) :
    meetsUnescaped mark (c :: rest) = (decide (c = mark) || meetsUnescaped mark rest) := by
  cases rest <;> simp [meetsUnescaped, h]

theorem splitUnescaped_eq_none_iff {mark : Char} {text : List Char} :
    splitUnescaped mark text = none ↔ meetsUnescaped mark text = false := by
  fun_induction splitUnescaped mark text with
  | case1 => simp [meetsUnescaped]
  | case2 => simp [meetsUnescaped]
  | case3 d rest ih => simpa [meetsUnescaped] using ih
  | case4 rest hSlash => simp [meetsUnescaped_cons hSlash]
  | case5 c rest hSlash hMark ih => simpa [meetsUnescaped_cons hSlash, hMark] using ih

/-- The mark at which a text is cut is the first one that reading it meets. -/
theorem meetsUnescaped_of_split {mark : Char} {text before after : List Char}
    (h : splitUnescaped mark text = some (before, after)) :
    meetsUnescaped mark before = false ∧ meetsUnescaped mark (before ++ [mark]) = true := by
  fun_induction splitUnescaped mark text generalizing before with
  | case1 => cases h
  | case2 => cases h
  | case3 d rest ih =>
      obtain ⟨⟨before, after⟩, hSplit, hEq⟩ := Option.map_eq_some_iff.1 h
      cases hEq
      simpa [meetsUnescaped] using ih hSplit
  | case4 rest hSlash =>
      cases h
      simp [meetsUnescaped, meetsUnescaped_cons hSlash]
  | case5 c rest hSlash hMark ih =>
      obtain ⟨⟨before, after⟩, hSplit, hEq⟩ := Option.map_eq_some_iff.1 h
      cases hEq
      simpa [meetsUnescaped_cons hSlash, hMark] using ih hSplit

theorem splitUnescaped_cons {mark c : Char} (h : c ≠ '\\') (rest : List Char) :
    splitUnescaped mark (c :: rest) =
      if c = mark then some ([], rest)
      else (splitUnescaped mark rest).map fun (before, left) => (c :: before, left) := by
  cases rest <;> simp [splitUnescaped, h]

theorem splitUnescaped_append {mark : Char} {before : List Char}
    (hOpen : meetsUnescaped mark before = false)
    (hClosed : meetsUnescaped mark (before ++ [mark]) = true) (after : List Char) :
    splitUnescaped mark (before ++ mark :: after) = some (before, after) := by
  fun_induction meetsUnescaped mark before with
  | case1 =>
      have hSlash : mark ≠ '\\' := by
        rintro rfl
        simp [meetsUnescaped] at hClosed
      rw [List.nil_append, splitUnescaped_cons hSlash, if_pos rfl]
  | case2 => simp [meetsUnescaped] at hClosed
  | case3 d rest ih =>
      rw [List.cons_append, List.cons_append, meetsUnescaped, if_pos rfl] at hClosed
      simp [splitUnescaped, ih hOpen hClosed]
  | case4 c rest hSlash ih =>
      simp only [Bool.or_eq_false_iff, decide_eq_false_iff_not] at hOpen
      rw [List.cons_append, meetsUnescaped_cons hSlash] at hClosed
      simp only [hOpen.1, decide_false, Bool.false_or] at hClosed
      rw [List.cons_append, splitUnescaped_cons hSlash, if_neg hOpen.1, ih hOpen.2 hClosed]
      rfl

def commentEnd : List Char := ['*', '/']

theorem commentEnd_infix_cons_iff {c : Char} {rest : List Char} :
    commentEnd <:+: c :: rest ↔ (c = '*' ∧ rest.head? = some '/') ∨ commentEnd <:+: rest := by
  rw [List.infix_cons_iff]
  cases rest with
  | nil => simp [commentEnd]
  | cons d rest => simp [commentEnd, List.cons_prefix_cons, eq_comm]

theorem not_commentEnd_infix_singleton (c : Char) : ¬ commentEnd <:+: [c] := by
  intro h
  have hLength := h.length_le
  simp [commentEnd] at hLength

/-- A comment end in two texts put together is in one of them, or its star ends the first
text and its slash begins the second. -/
theorem commentEnd_infix_append {a b : List Char} (h : commentEnd <:+: a ++ b) :
    commentEnd <:+: a ++ ['/'] ∨ commentEnd <:+: b := by
  induction a with
  | nil => exact .inr h
  | cons c a ih =>
      rw [List.cons_append, commentEnd_infix_cons_iff] at h
      rcases h with ⟨hStar, hSlash⟩ | h
      · left
        rw [List.cons_append, commentEnd_infix_cons_iff]
        refine .inl ⟨hStar, ?_⟩
        cases a with
        | nil => rfl
        | cons d a => exact hSlash
      · rcases ih h with h | h
        · exact .inl (h.trans (List.suffix_cons _ _).isInfix)
        · exact .inr h

theorem commentEnd_infix_margin {a margin b : List Char} (hNe : margin ≠ [])
    (hMargin : ∀ c ∈ margin, c ≠ '*' ∧ c ≠ '/') (h : commentEnd <:+: a ++ (margin ++ b)) :
    commentEnd <:+: a ∨ commentEnd <:+: b := by
  induction a with
  | nil =>
      right
      clear hNe
      induction margin with
      | nil => exact h
      | cons c margin ih =>
          rw [List.nil_append, List.cons_append, commentEnd_infix_cons_iff] at h
          rcases h with ⟨hStar, -⟩ | h
          · exact absurd hStar (hMargin c List.mem_cons_self).1
          · exact ih (fun d hd => hMargin d (List.mem_cons_of_mem _ hd)) h
  | cons c a ih =>
      rw [List.cons_append, commentEnd_infix_cons_iff] at h
      rw [commentEnd_infix_cons_iff]
      rcases h with ⟨hStar, hSlash⟩ | h
      · cases a with
        | nil =>
            cases margin with
            | nil => exact absurd rfl hNe
            | cons d margin =>
                exact absurd (Option.some.inj hSlash) (hMargin d List.mem_cons_self).2
        | cons d a => exact .inl (.inl ⟨hStar, hSlash⟩)
      · rcases ih h with h | h
        · exact .inl (.inr h)
        · exact .inr h

theorem splitCommentEnd_eq_none_iff {text : List Char} :
    splitCommentEnd text = none ↔ ¬ commentEnd <:+: text := by
  fun_induction splitCommentEnd text with
  | case1 => simp [commentEnd]
  | case2 rest => simp [commentEnd_infix_cons_iff]
  | case3 c rest hNot ih =>
      rw [commentEnd_infix_cons_iff, Option.map_eq_none_iff, ih, not_or]
      refine ⟨fun h => ⟨?_, h⟩, And.right⟩
      rintro ⟨rfl, hHead⟩
      obtain ⟨after, rfl⟩ := List.head?_eq_some_iff.1 hHead
      exact hNot after rfl rfl

theorem commentEnd_of_split {text comment after : List Char}
    (h : splitCommentEnd text = some (comment, after)) :
    ∃ body, comment = body ++ commentEnd ∧ ¬ commentEnd <:+: body ++ ['*'] := by
  fun_induction splitCommentEnd text generalizing comment with
  | case1 => cases h
  | case2 rest =>
      cases h
      exact ⟨[], rfl, not_commentEnd_infix_singleton '*'⟩
  | case3 c rest hNot ih =>
      obtain ⟨⟨comment, after⟩, hSplit, hEq⟩ := Option.map_eq_some_iff.1 h
      cases hEq
      obtain ⟨body, rfl, hBody⟩ := ih hSplit
      refine ⟨c :: body, rfl, ?_⟩
      rw [List.cons_append, commentEnd_infix_cons_iff, not_or]
      refine ⟨?_, hBody⟩
      rintro ⟨rfl, hHead⟩
      have hRest := eq_of_splitCommentEnd hSplit
      cases body with
      | nil => simp at hHead
      | cons d body =>
          obtain rfl : d = '/' := by simpa using hHead
          exact hNot _ rfl hRest

end CodeListing
