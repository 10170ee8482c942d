/-! # Text up to a mark

Strings and regular expressions end at a mark that no backslash precedes, and
block comments at their first `*/`.
-/

namespace CodeListing

/-- The text before the first `mark`, and the text after it. A backslash and the
character after it belong together. -/
def splitUnescaped (mark : Char) : List Char → Option (List Char × List Char)
  | [] => none
  | c :: rest =>
    if c = '\\' then
      match rest with
      | [] => none
      | d :: after =>
        (splitUnescaped mark after).map fun (before, left) => (c :: d :: before, left)
    else if c = mark then some ([], rest)
    else (splitUnescaped mark rest).map fun (before, left) => (c :: before, left)

/-- The text through the first `*/`, and the text after it. -/
def splitCommentEnd : List Char → Option (List Char × List Char)
  | [] => none
  | '*' :: '/' :: rest => some (['*', '/'], rest)
  | c :: rest => (splitCommentEnd rest).map fun (comment, left) => (c :: comment, left)

theorem eq_of_splitUnescaped {mark : Char} {text before after : List Char}
    (h : splitUnescaped mark text = some (before, after)) : text = before ++ mark :: after := by
  fun_induction splitUnescaped mark text generalizing before with
  | case1 => cases h
  | case2 => cases h
  | case3 d rest ih =>
    obtain ⟨⟨before', after'⟩, hSplit, hEq⟩ := Option.map_eq_some_iff.1 h
    cases hEq
    simp [ih hSplit]
  | case4 rest =>
    cases h
    simp
  | case5 c rest _ _ ih =>
    obtain ⟨⟨before', after'⟩, hSplit, hEq⟩ := Option.map_eq_some_iff.1 h
    cases hEq
    simp [ih hSplit]

theorem eq_of_splitCommentEnd {text comment after : List Char}
    (h : splitCommentEnd text = some (comment, after)) : text = comment ++ after := by
  fun_induction splitCommentEnd text generalizing comment with
  | case1 => cases h
  | case2 =>
    cases h
    simp
  | case3 c rest _ ih =>
    obtain ⟨⟨comment', after'⟩, hSplit, hEq⟩ := Option.map_eq_some_iff.1 h
    cases hEq
    simp [ih hSplit]

end CodeListing
