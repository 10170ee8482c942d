import CodeListing.Proofs.Items
import CodeListing.Proofs.Line
import CodeListing.Proofs.Lines
import CodeListing.Proofs.Marks

/-! # Recovering the source from a listing

A reader of a listing takes the span tags out of the content of an item and
reads the entities as the characters they stand for. What is left is the line
that the item was made from, without its margins.
-/

namespace CodeListing

open Text

namespace Markup

def beginsSpanTag (text : List Char) : Bool :=
  "<span ".toList.isPrefixOf text || "</span>".toList.isPrefixOf text

/-- The text without the tags of spans. A tag reaches to its first `>`; with `inTag`
the text begins within one. -/
def dropSpanTags (inTag : Bool) : List Char → List Char
  | [] => []
  | c :: rest =>
    if inTag then dropSpanTags (c ≠ '>') rest
    else if beginsSpanTag (c :: rest) then dropSpanTags true rest
    else c :: dropSpanTags false rest

def unescape : List Char → List Char
  | '&' :: 'l' :: 't' :: ';' :: rest => '<' :: unescape rest
  | '&' :: 'g' :: 't' :: ';' :: rest => '>' :: unescape rest
  | '&' :: 'a' :: 'm' :: 'p' :: ';' :: rest => '&' :: unescape rest
  | c :: rest => c :: unescape rest
  | [] => []

/-- What the content of an item shows. -/
def shownText (content : List Char) : List Char :=
  unescape (dropSpanTags false content)

theorem unescape_escape (text : List Char) : unescape (escape text) = text := by
  induction text with
  | nil => rfl
  | cons c text ih =>
      change unescape (escapeChar c ++ escape text) = c :: text
      unfold escapeChar
      split
      · rename_i hLess
        rw [hLess]
        exact congrArg (List.cons '<') ih
      · split
        · rename_i hGreater
          rw [hGreater]
          exact congrArg (List.cons '>') ih
        · split
          · rename_i hAmp
            rw [hAmp]
            exact congrArg (List.cons '&') ih
          · rename_i hAmp
            rw [List.singleton_append, unescape, ih]
            all_goals simp [hAmp]

theorem dropSpanTags_inside {inner : List Char} (h : ∀ c ∈ inner, isPlain c = true)
    (rest : List Char) :
    dropSpanTags true (inner ++ '>' :: rest) = dropSpanTags false rest := by
  induction inner with
  | nil => rfl
  | cons c inner ih =>
      have hPlain : c ≠ '>' := by
        have hc := h c List.mem_cons_self
        simp only [isPlain, Bool.and_eq_true, decide_eq_true_eq] at hc
        exact hc.1.2
      rw [List.cons_append, dropSpanTags, if_pos rfl, decide_eq_true hPlain]
      exact ih fun d hd => h d (List.mem_cons_of_mem _ hd)

theorem dropSpanTags_tag {tag : List Char} (hTag : IsTag tag) {rest : List Char}
    (hSpan : beginsSpanTag (tag ++ rest) = true) :
    dropSpanTags false (tag ++ rest) = dropSpanTags false rest := by
  obtain ⟨inner, rfl, hInner⟩ := hTag
  rw [List.cons_append, List.append_assoc] at hSpan ⊢
  rw [dropSpanTags, if_neg (by decide), if_pos hSpan]
  exact dropSpanTags_inside hInner rest

theorem dropSpanTags_text {text : List Char} (h : '<' ∉ text) (rest : List Char) :
    dropSpanTags false (text ++ rest) = text ++ dropSpanTags false rest := by
  induction text with
  | nil => rfl
  | cons c text ih =>
      have hNot : beginsSpanTag (c :: (text ++ rest)) = false := by
        have hc : ¬ '<' = c := fun hEq => h (hEq ▸ List.mem_cons_self)
        simp [beginsSpanTag, List.isPrefixOf, hc]
      rw [List.cons_append, dropSpanTags, if_neg (by decide), hNot, if_neg (by decide),
        ih fun hMem => h (List.mem_cons_of_mem _ hMem)]
      rfl

/-- Without the tags of spans only the shown characters are left, escaped. -/
theorem dropSpanTags_writeAll {classPrefix : List Char}
    (hPrefix : ∀ c ∈ classPrefix, isPlain c = true) {marks : List Mark}
    (hLine : ∀ mark ∈ marks, mark.isInLine = true) :
    dropSpanTags false (Mark.writeAll classPrefix marks) =
      escape (marks.filterMap Mark.shown?) := by
  induction marks with
  | nil => rfl
  | cons mark marks ih =>
      have ih := ih fun m hm => hLine m (List.mem_cons_of_mem _ hm)
      rw [Mark.writeAll_cons]
      cases mark with
      | openItem padding => cases hLine _ List.mem_cons_self
      | closeItem => cases hLine _ List.mem_cons_self
      | openSpan tokenClass =>
          rw [dropSpanTags_tag (Mark.isTag_write hPrefix rfl) rfl, ih]
          rfl
      | closeSpan =>
          rw [dropSpanTags_tag (Mark.isTag_write hPrefix rfl) rfl, ih]
          rfl
      | character c =>
          rw [Mark.write_character, dropSpanTags_text (notMem_escapeChar (.inl rfl)), ih]
          rfl

theorem shownText_ofTokens {classPrefix : List Char}
    (hPrefix : ∀ c ∈ classPrefix, isPlain c = true) (tokens : List Token) :
    shownText (ofTokens classPrefix tokens) = tokens.flatMap Token.text := by
  rw [shownText, ofTokens_eq_writeAll,
    dropSpanTags_writeAll hPrefix fun mark hMark => Token.isInLine_of_mem_flatMap hMark,
    unescape_escape]
  induction tokens with
  | nil => rfl
  | cons token tokens ih =>
      rw [List.flatMap_cons, List.filterMap_append, token.filterMap_shown?_marks,
        List.flatMap_cons, ih]

end Markup

/-- The item of a listing that shows the line `raw`. -/
inductive IsItemOf (raw : List Char) : List Char → Prop where
  | blank (spaces : ∀ c ∈ raw, c = ' ') : IsItemOf raw "<li></li>".toList
  | shown (padding : Nat) {content : List Char} (ink : ∃ c ∈ raw, c ≠ ' ')
      (recovered : Markup.shownText content = trimRight (trimLeft raw)) :
      IsItemOf raw ("<li style=\"padding-left:".toList ++ (toString padding).toList
        ++ "px\">".toList ++ content ++ "</li>".toList)

namespace Listing

theorem isItemOf_item {settings : Settings}
    (hPrefix : ∀ c ∈ settings.classPrefix.toList, isPlain c = true) (raw : List Char)
    (start : Nat) (openComment padding : Option Nat)
    (hPadding : padding = none ↔ (SourceLine.ofRaw raw start).text = []) :
    IsItemOf raw (Markup.item (padding.map (·, Markup.ofTokens settings.classPrefix.toList
      (LineReading.ofLine settings openComment (.ofRaw raw start)).tokens))) := by
  cases padding with
  | none => exact .blank (trim_eq_nil_iff.1 (hPadding.1 rfl))
  | some padding =>
      have hInk : ∃ c ∈ raw, c ≠ ' ' := by
        by_contra hNone
        refine Option.some_ne_none padding (hPadding.2 (trim_eq_nil_iff.2 ?_))
        intro c hc
        by_contra hSpace
        exact hNone ⟨c, hc, hSpace⟩
      refine .shown padding hInk ?_
      rw [Markup.shownText_ofTokens hPrefix, LineReading.text_ofLine]
      rfl

/-- The items of a listing belong to the lines of the source one by one, and what an
item shows is its line. Lines that are read on their own are shown as well, with or
without an open comment. -/
theorem shows_source (settings : Settings) (source : String)
    (hPrefix : ∀ c ∈ settings.classPrefix.toList, Settings.isPrefixCharacter c = true) :
    (∃ items : List (List Char),
      (ofSource settings source).html.toList = items.flatten ∧
      items.length = (ofSource settings source).lineCount ∧
      List.Forall₂ IsItemOf (splitLines (normalize source.toList)) items) ∧
    (ofSource settings source).lineCount = (splitLines (normalize source.toList)).length ∧
    ∀ (openComment : Option Nat) (text : List Char),
      Markup.shownText (Markup.ofTokens settings.classPrefix.toList
        (LineReading.ofLine settings openComment ⟨text, 0⟩).tokens) = text := by
  have hPlain : ∀ c ∈ settings.classPrefix.toList, isPlain c = true :=
    fun c hc => isPlain_of_isPrefixCharacter (hPrefix c hc)
  refine ⟨⟨_, String.toList_ofList, length_items settings _, ?_⟩, ?_, ?_⟩
  · exact forall₂_items settings (isItemOf_item hPlain) _ 0 0 none
  · exact SourceLine.length_layOut _ 0
  · intro openComment text
    rw [Markup.shownText_ofTokens hPlain, LineReading.text_ofLine]

/-- Text that looks like a tag or an entity is shown as it is. -/
theorem shows_source_tagLike :
    (∀ c ∈ "js-".toList, Settings.isPrefixCharacter c = true) ∧
    ∃ items : List (List Char),
      (ofSource { classPrefix := "js-" } "\tx = a<b\r\n\n '</span>&lt;' ").html.toList =
        items.flatten ∧
      List.Forall₂ IsItemOf [" x = a<b".toList, [], " '</span>&lt;' ".toList] items := by
  have hPrefix : ∀ c ∈ "js-".toList, Settings.isPrefixCharacter c = true :=
    List.all_eq_true.1 (by decide)
  refine ⟨hPrefix, ?_⟩
  obtain ⟨⟨items, hHtml, -, hItems⟩, -⟩ :=
    shows_source { classPrefix := "js-" } "\tx = a<b\r\n\n '</span>&lt;' " hPrefix
  exact ⟨items, hHtml, hItems⟩

end Listing

end CodeListing
