import CodeListing.Proofs.SafeMarkup

/-! # Pages

A page is the items of a listing, with or without a numbered list around them. The
tags of the list hold the class prefix and the number of items, and no text of
the source, so a page is as safe as its items.
-/

namespace CodeListing

namespace Markup

def openList (classPrefix : List Char) (count : Nat) : List Char :=
  "<ol class=\"".toList ++ (classPrefix ++ ("prettyprint\" data-lines=\"".toList ++
    ((toString count).toList ++ "\">".toList)))

def closeList : List Char :=
  "</ol>".toList

inductive PageTag (classPrefix : List Char) (count : Nat) : List Char → Prop where
  | openList : PageTag classPrefix count (openList classPrefix count)
  | closeList : PageTag classPrefix count closeList
  | inside {tag : List Char} (h : Tag classPrefix tag) : PageTag classPrefix count tag

/-- The characters to which markup gives a meaning belong to tags and entities. -/
structure IsMarkup (tags : List Char → Prop) (text : List Char) : Prop where
  less : ∀ a b, text = a ++ '<' :: b → ∃ tag, tags tag ∧ tag <+: '<' :: b
  greater : ∀ a b, text = a ++ '>' :: b → ∃ tag, tags tag ∧ tag <:+ a ++ ['>']
  ampersand : ∀ a b, text = a ++ '&' :: b → ∃ entity ∈ entities, entity <+: '&' :: b

namespace IsMarkup

variable {tags : List Char → Prop} {x y : List Char}

theorem append (hx : IsMarkup tags x) (hy : IsMarkup tags y) : IsMarkup tags (x ++ y) := by
  constructor
  · intro a b h
    rcases append_eq_append_cons h with ⟨after, hLeft, rfl⟩ | ⟨before, -, hRight⟩
    · obtain ⟨tag, hTag, hBegins⟩ := hx.less a after hLeft
      exact ⟨tag, hTag, hBegins.trans (List.prefix_append ('<' :: after) y)⟩
    · exact hy.less before b hRight
  · intro a b h
    rcases append_eq_append_cons h with ⟨after, hLeft, -⟩ | ⟨before, rfl, hRight⟩
    · exact hx.greater a after hLeft
    · obtain ⟨tag, hTag, hEnds⟩ := hy.greater before b hRight
      refine ⟨tag, hTag, hEnds.trans ?_⟩
      rw [List.append_assoc]
      exact List.suffix_append x (before ++ ['>'])
  · intro a b h
    rcases append_eq_append_cons h with ⟨after, hLeft, rfl⟩ | ⟨before, -, hRight⟩
    · obtain ⟨entity, hEntity, hBegins⟩ := hx.ampersand a after hLeft
      exact ⟨entity, hEntity, hBegins.trans (List.prefix_append ('&' :: after) y)⟩
    · exact hy.ampersand before b hRight

theorem tag (hTags : tags x) (hTag : IsTag x) : IsMarkup tags x := by
  constructor
  · intro a b h
    obtain rfl := hTag.less h
    rw [h] at hTags
    exact ⟨_, hTags, List.prefix_refl _⟩
  · intro a b h
    obtain rfl := hTag.greater h
    rw [h] at hTags
    exact ⟨_, hTags, List.suffix_refl _⟩
  · intro a b h
    refine absurd ?_ hTag.ampersand
    rw [h]
    simp

theorem writeAll {classPrefix : List Char} (hPrefix : ∀ c ∈ classPrefix, isPlain c = true)
    (hTags : ∀ tag, Tag classPrefix tag → tags tag) (marks : List Mark) :
    IsMarkup tags (Mark.writeAll classPrefix marks) := by
  constructor
  · intro a b h
    obtain ⟨tag, ⟨hTag, hBegins⟩, -⟩ := existsUnique_tag_of_less hPrefix h
    exact ⟨tag, hTags tag hTag, hBegins⟩
  · intro a b h
    obtain ⟨tag, hTag, hEnds⟩ := exists_tag_of_greater hPrefix h
    exact ⟨tag, hTags tag hTag, hEnds⟩
  · intro a b h
    exact exists_entity_of_ampersand hPrefix h

end IsMarkup

theorem isTag_closeList : IsTag closeList :=
  ⟨"/ol".toList, rfl, List.all_eq_true.1 (by decide)⟩

section

variable {classPrefix : List Char} (hPrefix : ∀ c ∈ classPrefix, isPlain c = true)

include hPrefix

theorem isTag_openList (count : Nat) : IsTag (openList classPrefix count) := by
  refine ⟨"ol class=\"".toList ++ (classPrefix ++ ("prettyprint\" data-lines=\"".toList ++
    ((toString count).toList ++ "\"".toList))), ?_, ?_⟩
  · unfold openList
    rw [List.append_assoc, List.append_assoc, List.append_assoc, List.append_assoc]
    rfl
  · refine List.forall_mem_append.2 ⟨List.all_eq_true.1 (by decide),
      List.forall_mem_append.2 ⟨hPrefix, List.forall_mem_append.2
        ⟨List.all_eq_true.1 (by decide), List.forall_mem_append.2
          ⟨?_, List.all_eq_true.1 (by decide)⟩⟩⟩⟩
    exact fun d hd => isPlain_of_isDigit (isDigit_of_mem_toString hd)

theorem PageTag.isTag {count : Nat} {tag : List Char} (h : PageTag classPrefix count tag) :
    IsTag tag := by
  cases h with
  | openList => exact isTag_openList hPrefix count
  | closeList => exact isTag_closeList
  | inside h => exact h.isTag hPrefix

end

section

variable {classPrefix : List Char} (hPrefix : ∀ c ∈ classPrefix, isPlain c = true)
  {limit : Nat} {marks : List Mark}

include hPrefix

end

end Markup

end CodeListing
