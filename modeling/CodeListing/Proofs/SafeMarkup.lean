import Mathlib.Data.List.Basic
import CodeListing.Proofs.Items
import CodeListing.Proofs.Nesting

/-! # The markup of a listing is safe

Text of the source is escaped, so a `<`, `>` or `&` of the markup belongs to a
tag or an entity that was written as such, and counting the tags of the text
counts the tags that were written.
-/

namespace CodeListing

open Text

namespace Mark

variable {classPrefix : List Char}

theorem exists_of_writeAll_eq {marks : List Mark} {a b : List Char} {c : Char}
    (h : writeAll classPrefix marks = a ++ c :: b) :
    ∃ (mark : Mark) (before after : List Char), mark.write classPrefix = before ++ c :: after ∧
      before <:+ a ∧ after <+: b := by
  induction marks generalizing a with
  | nil => simp at h
  | cons mark marks ih =>
      rw [writeAll_cons] at h
      rcases append_eq_append_cons h with ⟨after, hMark, rfl⟩ | ⟨before, rfl, hRest⟩
      · exact ⟨mark, a, after, hMark, List.suffix_refl a, List.prefix_append _ _⟩
      · obtain ⟨found, before, after, hFound, hBefore, hAfter⟩ := ih hRest
        exact ⟨found, before, after, hFound, hBefore.trans (List.suffix_append _ _), hAfter⟩

theorem shown?_eq_none_of_mem {mark : Mark} {d : Char} (hd : d = '<' ∨ d = '>')
    (h : d ∈ mark.write classPrefix) : mark.shown? = none := by
  cases mark with
  | character c => exact absurd h (Markup.notMem_escapeChar hd)
  | _ => rfl

end Mark

theorem notMem_tagEnd {inner : List Char} (hInner : ∀ c ∈ inner, isPlain c = true) {d : Char}
    (hd : isPlain d = false) (hEnd : d ≠ '>') : d ∉ inner ++ ['>'] := by
  intro hMem
  rcases List.mem_append.1 hMem with hMem | hMem
  · rw [hInner d hMem] at hd
    cases hd
  · exact hEnd (List.mem_singleton.1 hMem)

theorem IsTag.less {tag before after : List Char} (h : IsTag tag)
    (hTag : tag = before ++ '<' :: after) : before = [] := by
  obtain ⟨inner, rfl, hInner⟩ := h
  cases before with
  | nil => rfl
  | cons c before =>
      refine absurd ?_ (notMem_tagEnd (d := '<') hInner rfl (by decide))
      rw [(List.cons.inj hTag).2]
      simp

theorem IsTag.greater {tag before after : List Char} (h : IsTag tag)
    (hTag : tag = before ++ '>' :: after) : after = [] := by
  obtain ⟨inner, rfl, hInner⟩ := h
  rcases List.eq_nil_or_concat' after with rfl | ⟨middle, c, rfl⟩
  · rfl
  have hTag : '<' :: inner ++ ['>'] = (before ++ '>' :: middle) ++ [c] := by simpa using hTag
  have hMem : '>' ∈ '<' :: inner := by
    rw [(List.append_inj' hTag rfl).1]
    simp
  rcases List.mem_cons.1 hMem with hMem | hMem
  · cases hMem
  · exact Bool.noConfusion (hInner _ hMem)

theorem IsTag.ampersand {tag : List Char} (h : IsTag tag) : '&' ∉ tag := by
  obtain ⟨inner, rfl, hInner⟩ := h
  intro hMem
  rcases List.mem_cons.1 hMem with hMem | hMem
  · cases hMem
  · exact notMem_tagEnd hInner rfl (by decide) hMem

theorem IsTag.eq_of_append {a b more : List Char} (ha : IsTag a) (hb : IsTag b)
    (h : a ++ more = b) : a = b := by
  obtain ⟨inner, rfl, -⟩ := ha
  have hTag : b = '<' :: inner ++ '>' :: more := by
    rw [← h]
    simp
  rw [← h, hb.greater hTag, List.append_nil]

theorem IsTag.eq_of_begins {a b text : List Char} (ha : IsTag a) (hb : IsTag b)
    (hPrefixA : a <+: text) (hPrefixB : b <+: text) : a = b := by
  rcases List.prefix_or_prefix_of_prefix hPrefixA hPrefixB with ⟨more, hMore⟩ | ⟨more, hMore⟩
  · exact ha.eq_of_append hb hMore
  · exact (hb.eq_of_append ha hMore).symm

namespace Markup

theorem exists_entity_of_escapeChar {c : Char} {before after : List Char}
    (h : escapeChar c = before ++ '&' :: after) : '&' :: after ∈ entities := by
  rcases escapeChar_cases c with ⟨hEscape, hPlain⟩ | hEntity
  · rw [hEscape] at h
    cases before with
    | nil =>
        cases h
        cases hPlain
    | cons d before =>
        have hTail := (List.cons.inj h).2
        simp at hTail
  · cases before with
    | nil =>
        rw [h] at hEntity
        exact hEntity
    | cons d before =>
        -- an entity has its only `&` at its beginning
        have hOnly : ∀ entity ∈ entities, '&' ∉ entity.tail := by decide
        refine absurd ?_ (hOnly _ hEntity)
        rw [h]
        simp

variable {classPrefix : List Char} (hPrefix : ∀ c ∈ classPrefix, isPlain c = true)
  {marks : List Mark} {a b : List Char}

include hPrefix

/-- A `<` of the markup begins exactly one tag. -/
theorem existsUnique_tag_of_less (h : Mark.writeAll classPrefix marks = a ++ '<' :: b) :
    ∃! tag, Tag classPrefix tag ∧ tag <+: '<' :: b := by
  obtain ⟨mark, before, after, hWrite, -, hAfter⟩ := Mark.exists_of_writeAll_eq h
  have hMem : '<' ∈ mark.write classPrefix := by
    rw [hWrite]
    simp
  have hTag := Mark.tag_write classPrefix (Mark.shown?_eq_none_of_mem (.inl rfl) hMem)
  obtain rfl := (hTag.isTag hPrefix).less hWrite
  rw [hWrite, List.nil_append] at hTag
  have hFound : '<' :: after <+: '<' :: b := List.cons_prefix_cons.2 ⟨rfl, hAfter⟩
  exact ⟨'<' :: after, ⟨hTag, hFound⟩, fun other hOther =>
    (hOther.1.isTag hPrefix).eq_of_begins (hTag.isTag hPrefix) hOther.2 hFound⟩

theorem exists_tag_of_greater (h : Mark.writeAll classPrefix marks = a ++ '>' :: b) :
    ∃ tag, Tag classPrefix tag ∧ tag <:+ a ++ ['>'] := by
  obtain ⟨mark, before, after, hWrite, hBefore, -⟩ := Mark.exists_of_writeAll_eq h
  have hMem : '>' ∈ mark.write classPrefix := by
    rw [hWrite]
    simp
  have hTag := Mark.tag_write classPrefix (Mark.shown?_eq_none_of_mem (.inr rfl) hMem)
  obtain rfl := (hTag.isTag hPrefix).greater hWrite
  rw [hWrite] at hTag
  obtain ⟨left, rfl⟩ := hBefore
  exact ⟨before ++ ['>'], hTag, ⟨left, (List.append_assoc ..).symm⟩⟩

theorem exists_entity_of_ampersand (h : Mark.writeAll classPrefix marks = a ++ '&' :: b) :
    ∃ entity ∈ entities, entity <+: '&' :: b := by
  obtain ⟨mark, before, after, hWrite, -, hAfter⟩ := Mark.exists_of_writeAll_eq h
  have hMem : '&' ∈ mark.write classPrefix := by
    rw [hWrite]
    simp
  cases hShown : mark.shown? with
  | none => exact absurd hMem (Mark.isTag_write hPrefix hShown).ampersand
  | some c =>
      cases mark with
      | character c =>
          exact ⟨_, exists_entity_of_escapeChar hWrite, List.cons_prefix_cons.2 ⟨rfl, hAfter⟩⟩
      | _ => cases hShown

end Markup

theorem isPrefixOf_of_ne {c d : Char} (h : c ≠ d) {pattern text : List Char} :
    (c :: pattern).isPrefixOf (d :: text) = false := by
  simp [List.isPrefixOf, h]

/-- At how many places of the text `pattern` begins. -/
def occurrences (pattern : List Char) : List Char → Nat
  | [] => 0
  | c :: rest => (if pattern.isPrefixOf (c :: rest) then 1 else 0) + occurrences pattern rest

theorem occurrences_append {pattern : List Char} {a : List Char} (h : '<' ∉ a) (b : List Char) :
    occurrences ('<' :: pattern) (a ++ b) = occurrences ('<' :: pattern) b := by
  induction a with
  | nil => rfl
  | cons c a ih =>
      have hNot : ('<' :: pattern).isPrefixOf (c :: (a ++ b)) = false :=
        isPrefixOf_of_ne (List.ne_of_not_mem_cons h)
      rw [List.cons_append, occurrences, hNot, ih fun hMem => h (List.mem_cons_of_mem _ hMem)]
      simp

theorem occurrences_le_append (pattern a b : List Char) :
    occurrences pattern a ≤ occurrences pattern (a ++ b) := by
  induction a with
  | nil => exact Nat.zero_le _
  | cons c a ih =>
      have hFirst : pattern.isPrefixOf (c :: a) = true →
          pattern.isPrefixOf (c :: (a ++ b)) = true := by
        simp only [List.isPrefixOf_iff_prefix]
        exact fun h => h.trans (List.prefix_append (c :: a) b)
      rw [List.cons_append, occurrences, occurrences]
      by_cases hPattern : pattern.isPrefixOf (c :: a) = true
      · rw [if_pos hPattern, if_pos (hFirst hPattern)]
        omega
      · rw [if_neg hPattern]
        omega

theorem occurrences_of_length_lt {pattern text : List Char} (h : text.length < pattern.length) :
    occurrences pattern text = 0 := by
  induction text with
  | nil => rfl
  | cons c text ih =>
      have hNot : ¬ pattern.isPrefixOf (c :: text) = true := by
        rw [List.isPrefixOf_iff_prefix]
        intro hPattern
        have := hPattern.length_le
        omega
      rw [occurrences, if_neg hNot, ih (by simp at h; omega)]

inductive TagKind where
  | openItem
  | closeItem
  | openSpan
  | closeSpan
  deriving DecidableEq

def TagKind.pattern : TagKind → List Char
  | .openItem => "<li".toList
  | .closeItem => "</li>".toList
  | .openSpan => "<span".toList
  | .closeSpan => "</span>".toList

theorem TagKind.pattern_eq (kind : TagKind) : kind.pattern = '<' :: kind.pattern.tail := by
  cases kind <;> rfl

theorem occurrences_tag {tag : List Char} (hTag : IsTag tag) (kind : TagKind) (rest : List Char) :
    occurrences kind.pattern (tag ++ rest) =
      (if kind.pattern.isPrefixOf (tag ++ rest) then 1 else 0) + occurrences kind.pattern rest := by
  obtain ⟨inner, rfl, hInner⟩ := hTag
  have hNone : '<' ∉ inner ++ ['>'] := notMem_tagEnd hInner rfl (by decide)
  rw [List.cons_append, occurrences, kind.pattern_eq, occurrences_append hNone]

def Mark.kind? : Mark → Option TagKind
  | .openItem _ => some .openItem
  | .closeItem => some .closeItem
  | .openSpan _ => some .openSpan
  | .closeSpan => some .closeSpan
  | .character _ => none

theorem Mark.isPrefixOf_write (classPrefix : List Char) (kind : TagKind) {mark : Mark}
    (hTag : mark.shown? = none) (rest : List Char) :
    kind.pattern.isPrefixOf (mark.write classPrefix ++ rest) =
      decide (mark.kind? = some kind) := by
  rcases mark with (_ | _) | _ | _ | _ | c
  · cases kind <;> rfl
  · cases kind <;> rfl
  · cases kind <;> rfl
  · cases kind <;> rfl
  · cases kind <;> rfl
  · cases hTag

section Counting

variable {classPrefix : List Char} (hPrefix : ∀ c ∈ classPrefix, isPlain c = true)

include hPrefix

theorem occurrences_write (kind : TagKind) (mark : Mark) (rest : List Char) :
    occurrences kind.pattern (mark.write classPrefix ++ rest) =
      (if mark.kind? = some kind then 1 else 0) + occurrences kind.pattern rest := by
  cases hShown : mark.shown? with
  | some c =>
      cases mark with
      | character c =>
          rw [kind.pattern_eq, Mark.write_character,
            occurrences_append (Markup.notMem_escapeChar (.inl rfl))]
          simp [Mark.kind?]
      | _ => cases hShown
  | none =>
      rw [occurrences_tag (Mark.isTag_write hPrefix hShown),
        Mark.isPrefixOf_write classPrefix kind hShown]
      simp

theorem occurrences_writeAll (kind : TagKind) (marks : List Mark) (rest : List Char) :
    occurrences kind.pattern (Mark.writeAll classPrefix marks ++ rest) =
      marks.countP (·.kind? = some kind) + occurrences kind.pattern rest := by
  induction marks with
  | nil => simp
  | cons mark marks ih =>
      rw [Mark.writeAll_cons, List.append_assoc, occurrences_write hPrefix, ih,
        List.countP_cons]
      simp only [decide_eq_true_eq]
      omega

theorem occurrences_part (kind : TagKind) {mark : Mark} {part : List Char}
    (hPart : part <+: mark.write classPrefix) :
    occurrences kind.pattern part ≤ if mark.kind? = some kind then 1 else 0 := by
  obtain ⟨more, hMore⟩ := hPart
  have hWhole := occurrences_write hPrefix kind mark []
  rw [List.append_nil, ← hMore] at hWhole
  calc
    occurrences kind.pattern part ≤ occurrences kind.pattern (part ++ more) :=
      occurrences_le_append ..
    _ = if mark.kind? = some kind then 1 else 0 := hWhole

/-- A span is not closed before the whole tag is written. -/
theorem occurrences_closeSpan_part {mark : Mark} {part : List Char}
    (hPart : part <+: mark.write classPrefix) (hNe : part ≠ mark.write classPrefix) :
    occurrences TagKind.closeSpan.pattern part = 0 := by
  have hLe := occurrences_part hPrefix .closeSpan hPart
  cases mark with
  | closeSpan =>
      refine occurrences_of_length_lt (Nat.lt_of_le_of_ne hPart.length_le fun hLength => hNe ?_)
      exact hPart.eq_of_length hLength
  | _ => simpa [Mark.kind?] using hLe

end Counting

/-- A text that written marks begin with ends within one mark or after all of them. -/
theorem exists_of_prefix_writeAll {classPrefix p : List Char} {marks : List Mark}
    (h : p <+: Mark.writeAll classPrefix marks) :
    p = Mark.writeAll classPrefix marks ∨ ∃ left mark right part, marks = left ++ mark :: right ∧
      p = Mark.writeAll classPrefix left ++ part ∧ part <+: mark.write classPrefix ∧
      part ≠ mark.write classPrefix := by
  induction marks generalizing p with
  | nil => exact .inl (List.prefix_nil.1 h)
  | cons mark marks ih =>
      by_cases hWhole : mark.write classPrefix <+: p
      · obtain ⟨q, rfl⟩ := hWhole
        rcases ih ((List.prefix_append_right_inj _).1 h) with
          rfl | ⟨left, found, right, part, rfl, rfl, hPart⟩
        · exact .inl rfl
        · exact .inr ⟨mark :: left, found, right, part, rfl, by simp, hPart⟩
      · right
        refine ⟨[], mark, marks, p, rfl, rfl, ?_, ?_⟩
        · rcases List.prefix_or_prefix_of_prefix h (List.prefix_append _ _) with hp | hp
          · exact hp
          · exact absurd hp hWhole
        · rintro rfl
          exact hWhole (List.prefix_refl _)

theorem openSpans_eq_countP (marks : List Mark) :
    openSpans marks = (marks.countP (·.kind? = some .openSpan) : Int) -
      marks.countP (·.kind? = some .closeSpan) := by
  induction marks with
  | nil => rfl
  | cons mark marks ih =>
      rw [openSpans_cons, ih, List.countP_cons, List.countP_cons]
      cases mark <;> simp [Mark.change, Mark.kind?] <;> omega

section Nesting

variable {classPrefix : List Char} (hPrefix : ∀ c ∈ classPrefix, isPlain c = true)
  {limit : Nat} {marks : List Mark}

include hPrefix

theorem occurrences_all (kind : TagKind) :
    occurrences kind.pattern (Mark.writeAll classPrefix marks) =
      marks.countP (·.kind? = some kind) := by
  have h := occurrences_writeAll hPrefix kind marks []
  rwa [List.append_nil] at h

theorem Nested.occurrences_inside (h : Nested limit marks) {p : List Char}
    (hp : p <+: Mark.writeAll classPrefix marks) :
    occurrences TagKind.closeSpan.pattern p ≤ occurrences TagKind.openSpan.pattern p ∧
      occurrences TagKind.openSpan.pattern p ≤
        occurrences TagKind.closeSpan.pattern p + limit := by
  rcases exists_of_prefix_writeAll hp with rfl | ⟨left, mark, right, part, rfl, rfl, hPart, hNe⟩
  · have hInside := h.inside marks (List.prefix_refl _)
    rw [openSpans_eq_countP] at hInside
    rw [occurrences_all hPrefix, occurrences_all hPrefix]
    omega
  · -- within a tag as many spans are open as before it or, once it is told, as after it
    have hLeft := h.inside left (List.prefix_append _ _)
    have hNext := h.inside (left ++ [mark]) ⟨right, by simp⟩
    have hOpen := occurrences_part hPrefix .openSpan hPart
    rw [openSpans_eq_countP] at hLeft
    rw [openSpans_append, openSpans_eq_countP left, openSpans_cons, openSpans_nil] at hNext
    rw [occurrences_writeAll hPrefix, occurrences_writeAll hPrefix,
      occurrences_closeSpan_part hPrefix hPart hNe]
    by_cases hKind : mark.kind? = some .openSpan
    · have hChange : mark.change = 1 := by
        cases mark with
        | openSpan tokenClass => rfl
        | _ => cases hKind
      rw [if_pos hKind] at hOpen
      rw [hChange] at hNext
      omega
    · rw [if_neg hKind] at hOpen
      omega

theorem Nested.occurrences_eq (h : Nested limit marks) :
    occurrences TagKind.closeSpan.pattern (Mark.writeAll classPrefix marks) =
      occurrences TagKind.openSpan.pattern (Mark.writeAll classPrefix marks) := by
  have hSettled := h.settled
  rw [openSpans_eq_countP] at hSettled
  rw [occurrences_all hPrefix, occurrences_all hPrefix]
  omega

end Nesting

/-- What makes the markup of items safe, when `limit` spans may be open at once. -/
structure Markup.IsSafe (classPrefix : List Char) (limit : Nat) (items : List (List Char)) :
    Prop where
  less : ∀ a b, items.flatten = a ++ '<' :: b → ∃! tag, Tag classPrefix tag ∧ tag <+: '<' :: b
  greater : ∀ a b, items.flatten = a ++ '>' :: b → ∃ tag, Tag classPrefix tag ∧ tag <:+ a ++ ['>']
  ampersand : ∀ a b, items.flatten = a ++ '&' :: b → ∃ entity ∈ entities, entity <+: '&' :: b
  begins : ∀ item ∈ items, "<li".toList <+: item ∧ occurrences "<li".toList item = 1
  ends : ∀ item ∈ items, "</li>".toList <:+ item ∧ occurrences "</li>".toList item = 1
  nested : ∀ item ∈ items, ∀ p, p <+: item →
    occurrences "</span>".toList p ≤ occurrences "<span".toList p
  closed : ∀ item ∈ items,
    occurrences "</span>".toList item = occurrences "<span".toList item
  shallow : ∀ p, p <+: items.flatten →
    occurrences "<span".toList p ≤ occurrences "</span>".toList p + limit

theorem exists_map_of_forall₂ {α β γ : Type} {f : γ → β} {good : γ → Prop} {as : List α}
    {bs : List β} (h : List.Forall₂ (fun _ b => ∃ c, b = f c ∧ good c) as bs) :
    ∃ cs : List γ, bs = cs.map f ∧ cs.length = as.length ∧ ∀ c ∈ cs, good c := by
  induction h with
  | nil => exact ⟨[], rfl, rfl, nofun⟩
  | cons hFirst _ ih =>
      obtain ⟨c, rfl, hGood⟩ := hFirst
      obtain ⟨cs, rfl, hLength, hRest⟩ := ih
      refine ⟨c :: cs, rfl, by rw [List.length_cons, List.length_cons, hLength], ?_⟩
      intro d hd
      rcases List.mem_cons.1 hd with rfl | hd
      · exact hGood
      · exact hRest d hd

theorem countP_itemMarks {kind : TagKind} (hKind : kind = .openItem ∨ kind = .closeItem)
    (padding : Option Nat) (tokens : List Token) :
    (itemMarks padding tokens).countP (·.kind? = some kind) = 1 := by
  have hInLine : (tokens.flatMap Token.marks).countP (·.kind? = some kind) = 0 := by
    rw [List.countP_eq_zero]
    intro mark hMark
    have hInLine := Token.isInLine_of_mem_flatMap hMark
    cases mark with
    | openItem padding => cases hInLine
    | closeItem => cases hInLine
    | _ => rcases hKind with rfl | rfl <;> simp [Mark.kind?]
  cases padding with
  | none => rcases hKind with rfl | rfl <;> rfl
  | some padding =>
      rw [itemMarks, List.countP_cons, List.countP_append, hInLine]
      rcases hKind with rfl | rfl <;> rfl

theorem prefix_writeAll_itemMarks (classPrefix : List Char) (padding : Option Nat)
    (tokens : List Token) :
    TagKind.openItem.pattern <+: Mark.writeAll classPrefix (itemMarks padding tokens) := by
  rw [← List.isPrefixOf_iff_prefix]
  cases padding with
  | none => rfl
  | some padding =>
      rw [itemMarks, Mark.writeAll_cons, Mark.isPrefixOf_write classPrefix .openItem rfl]
      rfl

theorem suffix_writeAll_itemMarks (classPrefix : List Char) (padding : Option Nat)
    (tokens : List Token) :
    TagKind.closeItem.pattern <:+ Mark.writeAll classPrefix (itemMarks padding tokens) := by
  cases padding with
  | none => exact ⟨"<li>".toList, rfl⟩
  | some padding =>
      rw [itemMarks, Mark.writeAll_cons, Mark.writeAll_append, ← List.append_assoc]
      exact List.suffix_append _ _

namespace Listing

/-- The markup of a listing is written mark by mark, item by item, and the tokens of no
item are nested deeper than the settings say. -/
theorem exists_marks (settings : Settings) (source : String) :
    ∃ groups : List (List Mark),
      (ofSource settings source).html.toList =
        (groups.map (Mark.writeAll settings.classPrefix.toList)).flatten ∧
      groups.length = (ofSource settings source).lineCount ∧
      ∀ group ∈ groups, ∃ padding tokens, group = itemMarks padding tokens ∧
        ∀ token ∈ tokens, token.depth ≤ settings.maxMemberDepth + 1 := by
  have hItems : List.Forall₂ (fun _ item => ∃ group,
      item = Mark.writeAll settings.classPrefix.toList group ∧
        ∃ padding tokens, group = itemMarks padding tokens ∧
          ∀ token ∈ tokens, token.depth ≤ settings.maxMemberDepth + 1) _ _ :=
    forall₂_items settings
      (fun raw start openComment padding _ => ⟨_, Markup.item_eq_writeAll .., padding, _, rfl,
        fun _ => LineReading.depth_le_of_mem_ofLine⟩)
      (splitLines (normalize source.toList)) 0 0 none
  obtain ⟨groups, hGroups, hLength, hGood⟩ := exists_map_of_forall₂ hItems
  refine ⟨groups, ?_, ?_, hGood⟩
  · rw [← hGroups]
    exact String.toList_ofList
  · rw [hLength]
    exact (SourceLine.length_layOut _ 0).symm

/-- The items of a listing are safe markup, whatever the source: no text of it becomes a
tag, and the spans are nested properly and no deeper than the settings say. -/
theorem isSafe_items (settings : Settings) (source : String)
    (hPrefix : ∀ c ∈ settings.classPrefix.toList, Settings.isPrefixCharacter c = true) :
    ∃ items : List (List Char),
      (ofSource settings source).html.toList = items.flatten ∧
      items.length = (ofSource settings source).lineCount ∧
      Markup.IsSafe settings.classPrefix.toList (settings.maxMemberDepth + 1) items := by
  have hPlain : ∀ c ∈ settings.classPrefix.toList, isPlain c = true :=
    fun c hc => isPlain_of_isPrefixCharacter (hPrefix c hc)
  obtain ⟨groups, hHtml, hLength, hGroups⟩ := exists_marks settings source
  have hNested : ∀ group ∈ groups, Nested (settings.maxMemberDepth + 1) group := by
    intro group hGroup
    obtain ⟨padding, tokens, rfl, hDepth⟩ := hGroups group hGroup
    exact Nested.itemMarks hDepth padding
  have hAll : Nested (settings.maxMemberDepth + 1) groups.flatten := .flatten hNested
  refine ⟨_, hHtml, by rw [List.length_map, hLength], ?_⟩
  rw [← Mark.writeAll_flatten] at hHtml
  constructor
  · intro a b h
    rw [← Mark.writeAll_flatten] at h
    exact Markup.existsUnique_tag_of_less hPlain h
  · intro a b h
    rw [← Mark.writeAll_flatten] at h
    exact Markup.exists_tag_of_greater hPlain h
  · intro a b h
    rw [← Mark.writeAll_flatten] at h
    exact Markup.exists_entity_of_ampersand hPlain h
  · intro item hItem
    obtain ⟨group, hGroup, rfl⟩ := List.mem_map.1 hItem
    obtain ⟨padding, tokens, rfl, -⟩ := hGroups group hGroup
    refine ⟨prefix_writeAll_itemMarks .., ?_⟩
    exact (occurrences_all hPlain .openItem).trans (countP_itemMarks (.inl rfl) ..)
  · intro item hItem
    obtain ⟨group, hGroup, rfl⟩ := List.mem_map.1 hItem
    obtain ⟨padding, tokens, rfl, -⟩ := hGroups group hGroup
    refine ⟨suffix_writeAll_itemMarks .., ?_⟩
    exact (occurrences_all hPlain .closeItem).trans (countP_itemMarks (.inr rfl) ..)
  · intro item hItem p hp
    obtain ⟨group, hGroup, rfl⟩ := List.mem_map.1 hItem
    exact ((hNested group hGroup).occurrences_inside hPlain hp).1
  · intro item hItem
    obtain ⟨group, hGroup, rfl⟩ := List.mem_map.1 hItem
    exact (hNested group hGroup).occurrences_eq hPlain
  · intro p hp
    rw [← Mark.writeAll_flatten] at hp
    exact (hAll.occurrences_inside hPlain hp).2

/-- Text that looks like tags and entities is no markup, and a long dotted name is cut. -/
theorem isSafe_items_tagLike :
    (∀ c ∈ "js-".toList, Settings.isPrefixCharacter c = true) ∧
    ∃ items : List (List Char),
      (ofSource { classPrefix := "js-", maxMemberDepth := 1 }
        "a.b.c </li>\n\n<li>&amp;").html.toList = items.flatten ∧
      items.length = 3 ∧ Markup.IsSafe "js-".toList 2 items := by
  have hPrefix : ∀ c ∈ "js-".toList, Settings.isPrefixCharacter c = true :=
    List.all_eq_true.1 (by decide)
  refine ⟨hPrefix, ?_⟩
  obtain ⟨items, hHtml, hLength, hSafe⟩ :=
    isSafe_items { classPrefix := "js-", maxMemberDepth := 1 } "a.b.c </li>\n\n<li>&amp;" hPrefix
  refine ⟨items, hHtml, ?_, hSafe⟩
  rw [hLength]
  decide +kernel

end Listing

end CodeListing
