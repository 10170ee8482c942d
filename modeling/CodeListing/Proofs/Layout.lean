import Mathlib.Data.List.Forall2
import CodeListing.Proofs.Concatenation
import CodeListing.Proofs.Lines

/-! # Listings and the layout of the source

A blank line has an item and nothing else: it hands on the open comment and the
level as it found them. The margins of a line only move its text. So two sources
with the same texts on their lines that are not blank are read in step, and what
their listings tell differs in places only.
-/

namespace CodeListing

open Text

namespace Text

/-- The texts of the lines that are not blank, without their margins. -/
def inkedLines (text : List Char) : List (List Char) :=
  ((splitLines text).map fun raw => trimRight (trimLeft raw)).filter (· ≠ [])

namespace SourceLine

def inked (lines : List SourceLine) : List SourceLine :=
  lines.filter fun line => !line.isBlank

theorem inked_cons_of_isBlank {line : SourceLine} (h : line.isBlank = true)
    (lines : List SourceLine) : inked (line :: lines) = inked lines := by
  simp [inked, h]

theorem inked_cons_of_not_isBlank {line : SourceLine} (h : line.isBlank = false)
    (lines : List SourceLine) : inked (line :: lines) = line :: inked lines := by
  simp [inked, h]

theorem text_inked_layOut (start : Nat) (raws : List (List Char)) :
    (inked (layOut start raws)).map (·.text) =
      (raws.map fun raw => trimRight (trimLeft raw)).filter (· ≠ []) := by
  induction raws generalizing start with
  | nil => rfl
  | cons raw raws ih =>
      rw [layOut, List.map_cons, List.filter_cons, ← ih]
      cases hBlank : (ofRaw raw start).isBlank with
      | true =>
          have hText : trimRight (trimLeft raw) = [] := List.isEmpty_iff.1 hBlank
          rw [inked_cons_of_isBlank hBlank, hText]
          rfl
      | false =>
          have hText : trimRight (trimLeft raw) ≠ [] := List.isEmpty_eq_false_iff.1 hBlank
          rw [inked_cons_of_not_isBlank hBlank, decide_eq_true hText]
          rfl

end SourceLine

end Text

namespace Warning

/-- The warnings say the same of spans of the same length. An open comment goes on to the end of
the text, however long that is. -/
def Agrees (first second : Warning) : Prop :=
  first.defect = second.defect ∧ (first.defect ≠ .unterminatedComment →
    first.span.stop - first.span.start = second.span.stop - second.span.start)

theorem agrees_shift (warning : Warning) (distance other : Nat) :
    (warning.shift distance).Agrees (warning.shift other) := by
  refine ⟨rfl, fun _ => ?_⟩
  simp only [shift, Span.shift]
  omega

end Warning

namespace LineReading

variable (settings : Settings)

structure Agrees (first second : LineReading) : Prop where
  tokens : first.tokens = second.tokens
  warnings : List.Forall₂ Warning.Agrees first.warnings second.warnings
  isOpen : first.openComment.isSome = second.openComment.isSome

theorem agrees_shift (reading : LineReading) (distance other : Nat) :
    (reading.shift distance).Agrees (reading.shift other) where
  tokens := rfl
  warnings := by
    simp only [shift, List.forall₂_map_left_iff, List.forall₂_map_right_iff, List.forall₂_same]
    intro warning _
    exact warning.agrees_shift distance other
  isOpen := by simp [shift]

theorem Agrees.prepend {first second : LineReading} (h : first.Agrees second) (offset other : Nat)
    (token : Token) :
    (first.prepend offset token none).Agrees (second.prepend other token none) where
  tokens := congrArg (List.cons token) h.tokens
  warnings := h.warnings
  isOpen := h.isOpen

theorem agrees_ofText (offset other : Nat) (before : Option Char) (text : List Char) :
    (ofText settings offset before text).Agrees (ofText settings other before text) := by
  have hShift (place : Nat) : ofText settings place before text =
      (ofText settings 0 before text).shift place := by
    rw [← ofText_add, Nat.zero_add]
  rw [hShift offset, hShift other]
  exact agrees_shift ..

theorem ofLine_of_isBlank {line : SourceLine} (h : line.isBlank = true)
    (openComment : Option Nat) : ofLine settings openComment line = ⟨[], [], openComment⟩ := by
  unfold ofLine
  rw [if_pos h]

theorem agrees_ofLine {first second : SourceLine} (hText : first.text = second.text)
    {openFirst openSecond : Option Nat} (hOpen : openFirst.isSome = openSecond.isSome) :
    (ofLine settings openFirst first).Agrees (ofLine settings openSecond second) := by
  have hSame : first.isBlank = second.isBlank := congrArg List.isEmpty hText
  cases hBlank : second.isBlank with
  | true =>
      rw [ofLine_of_isBlank _ (hSame.trans hBlank), ofLine_of_isBlank _ hBlank]
      exact ⟨rfl, .nil, hOpen⟩
  | false =>
      simp only [ofLine, hSame, hBlank, hText, Bool.false_eq_true, if_false]
      -- where the open comment began has no part in where it ends
      match openFirst, openSecond, hOpen with
      | none, none, _ => exact agrees_ofText settings ..
      | some start, some start', _ =>
          cases splitCommentEnd second.text with
          | none => exact ⟨rfl, .nil, rfl⟩
          | some parts => exact (agrees_ofText settings ..).prepend ..

theorem agrees_ofLines {first second : List SourceLine}
    (hText : first.map (·.text) = second.map (·.text)) {openFirst openSecond : Option Nat}
    (hOpen : openFirst.isSome = openSecond.isSome) :
    List.Forall₂ Agrees (ofLines settings openFirst first)
      (ofLines settings openSecond second) := by
  induction first generalizing second openFirst openSecond with
  | nil =>
      rw [List.map_eq_nil_iff.1 hText.symm]
      exact .nil
  | cons line lines ih =>
      obtain ⟨line', lines', rfl, hLine, hLines⟩ := List.map_eq_cons_iff.1 hText.symm
      have hAgrees := agrees_ofLine settings hLine.symm hOpen
      rw [ofLines, ofLines]
      exact .cons hAgrees (ih hLines.symm hAgrees.isOpen)

theorem isSome_openAfter {first second : List LineReading} (h : List.Forall₂ Agrees first second)
    {openFirst openSecond : Option Nat} (hOpen : openFirst.isSome = openSecond.isSome) :
    (openAfter openFirst first).isSome = (openAfter openSecond second).isSome := by
  induction h generalizing openFirst openSecond with
  | nil => exact hOpen
  | cons hAgrees _ ih => exact ih hAgrees.isOpen

/-- Blank lines have no warnings and leave the same comment open. -/
theorem ofLines_inked (openComment : Option Nat) (lines : List SourceLine) :
    (ofLines settings openComment (SourceLine.inked lines)).flatMap (·.warnings) =
        (ofLines settings openComment lines).flatMap (·.warnings) ∧
      openAfter openComment (ofLines settings openComment (SourceLine.inked lines)) =
        openAfter openComment (ofLines settings openComment lines) := by
  induction lines generalizing openComment with
  | nil => exact ⟨rfl, rfl⟩
  | cons line lines ih =>
      cases hBlank : line.isBlank with
      | true =>
          rw [SourceLine.inked_cons_of_isBlank hBlank, ofLines, ofLine_of_isBlank _ hBlank]
          exact ih openComment
      | false =>
          obtain ⟨hWarnings, hOpen⟩ := ih (ofLine settings openComment line).openComment
          rw [SourceLine.inked_cons_of_not_isBlank hBlank, ofLines, ofLines, List.flatMap_cons,
            List.flatMap_cons, hWarnings]
          exact ⟨rfl, hOpen⟩

end LineReading

open LineReading

theorem warningsOf_inked (settings : Settings) (length : Nat) (lines : List SourceLine) :
    warningsOf length (ofLines settings none (SourceLine.inked lines)) =
      warningsOf length (ofLines settings none lines) := by
  obtain ⟨hWarnings, hOpen⟩ := ofLines_inked settings none lines
  rw [warningsOf_eq, warningsOf_eq, hWarnings, hOpen]

theorem forall₂_agrees_warningsOf {first second : List LineReading}
    (h : List.Forall₂ LineReading.Agrees first second) (length other : Nat) :
    List.Forall₂ Warning.Agrees (warningsOf length first) (warningsOf other second) := by
  have hOpen : (openAfter none first).isSome = (openAfter none second).isSome :=
    isSome_openAfter h rfl
  rw [warningsOf_eq, warningsOf_eq]
  apply List.rel_append
  · exact List.rel_flatMap h fun _ _ hAgrees => hAgrees.warnings
  · generalize openAfter none first = openFirst, openAfter none second = openSecond at hOpen
    match openFirst, openSecond, hOpen with
    | none, none, _ => exact .nil
    | some start, some start', _ => exact .cons ⟨rfl, fun hDefect => absurd rfl hDefect⟩ .nil

namespace Markup

/-- The text without the places where `pattern` stands, when the first `skip` characters belong to
such a place. -/
def eraseFrom (pattern : List Char) (skip : Nat) : List Char → List Char
  | [] => []
  | c :: rest =>
    match skip with
    | skip + 1 => eraseFrom pattern skip rest
    | 0 =>
      if pattern.isPrefixOf (c :: rest) then eraseFrom pattern (pattern.length - 1) rest
      else c :: eraseFrom pattern 0 rest

def blankItem : List Char :=
  "<li></li>".toList

def shownItem (padding : Nat) (content : List Char) : List Char :=
  "<li style=\"padding-left:".toList ++ (toString padding).toList ++ "px\">".toList ++ content
    ++ "</li>".toList

theorem item_eq_blankItem : item none = blankItem := rfl

theorem item_eq_shownItem (padding : Nat) (content : List Char) :
    item (some (padding, content)) = shownItem padding content := rfl

def eraseBlankItems (html : List Char) : List Char :=
  eraseFrom blankItem 0 html

theorem eraseBlankItems_blankItem (rest : List Char) :
    eraseBlankItems (blankItem ++ rest) = eraseBlankItems rest := rfl

/-- Where no end of `a` is the beginning of a place that goes on after it, the parts of a text
are erased on their own. -/
theorem eraseFrom_append {pattern a : List Char}
    (hWhole : ∀ part, part ≠ [] → part <:+ a → part <+: pattern → part = pattern)
    {skip : Nat} (hSkip : skip ≤ a.length) (b : List Char) :
    eraseFrom pattern skip (a ++ b) = eraseFrom pattern skip a ++ eraseFrom pattern 0 b := by
  induction a generalizing skip with
  | nil =>
      obtain rfl := Nat.le_zero.1 hSkip
      rfl
  | cons c a ih =>
      have ih := @ih fun part hNe hPart => hWhole part hNe (hPart.trans (List.suffix_cons c a))
      cases skip with
      | succ skip => exact ih (Nat.le_of_succ_le_succ hSkip)
      | zero =>
          have hPlace : pattern.isPrefixOf (c :: (a ++ b)) = pattern.isPrefixOf (c :: a) := by
            rw [Bool.eq_iff_iff, List.isPrefixOf_iff_prefix, List.isPrefixOf_iff_prefix]
            refine ⟨fun h => ?_, fun h => h.trans (List.prefix_append (c :: a) b)⟩
            rcases List.prefix_or_prefix_of_prefix h (List.prefix_append (c :: a) b) with h | h
            · exact h
            · obtain rfl := hWhole _ (List.cons_ne_nil c a) (List.suffix_refl _) h
              exact List.prefix_refl _
          rw [List.cons_append, eraseFrom, eraseFrom, hPlace]
          split
          · rename_i hHere
            have hLength := (List.isPrefixOf_iff_prefix.1 hHere).length_le
            rw [List.length_cons] at hLength
            exact ih (by omega)
          · rw [ih (Nat.zero_le _), List.cons_append]

/-- No end of an item is a beginning of the item of a blank line, but for the whole of it. -/
theorem eq_of_suffix_shownItem {part content : List Char} {padding : Nat} (hNe : part ≠ [])
    (hSuffix : part <:+ shownItem padding content) (hPrefix : part <+: blankItem) :
    part = blankItem := by
  have hParts : ∀ count < 9, count ≠ 0 → ¬ blankItem.take count <:+ "</li>".toList ∧
      ¬ "</li>".toList <:+ blankItem.take count := by decide
  have hEnd : "</li>".toList <:+ shownItem padding content := List.suffix_append _ _
  by_contra hPart
  have hLength : part.length < 9 :=
    Nat.lt_of_le_of_ne hPrefix.length_le fun hLength => hPart (hPrefix.eq_of_length hLength)
  obtain ⟨hNot, hNot'⟩ := hParts part.length hLength (mt List.length_eq_zero_iff.1 hNe)
  rw [← List.prefix_iff_eq_take.1 hPrefix] at hNot hNot'
  rcases List.suffix_or_suffix_of_suffix hSuffix hEnd with h | h
  · exact hNot h
  · exact hNot' h

@[simp] theorem shownItem_ne (padding : Nat) (content : List Char) :
    shownItem padding content ≠ blankItem := by
  intro h
  cases (List.cons.inj (List.cons.inj (List.cons.inj (List.cons.inj h).2).2).2).1

theorem eraseBlankItems_shownItem (padding : Nat) (content rest : List Char) :
    eraseBlankItems (shownItem padding content ++ rest) =
      eraseBlankItems (shownItem padding content) ++ eraseBlankItems rest :=
  eraseFrom_append (fun _ hNe hSuffix hPrefix => eq_of_suffix_shownItem hNe hSuffix hPrefix)
    (Nat.zero_le _) rest

end Markup

namespace Listing

variable (settings : Settings)

theorem itemsFrom_eq_of_agrees (level : Nat) {first second : List SourceLine}
    (hText : first.map (·.text) = second.map (·.text)) {readings readings' : List LineReading}
    (h : List.Forall₂ LineReading.Agrees readings readings') :
    itemsFrom settings level first readings = itemsFrom settings level second readings' := by
  have hEnds : first.map SourceLine.ends? = second.map SourceLine.ends? := by
    have hMap := congrArg (List.map fun text => SourceLine.ends? ⟨text, 0⟩) hText
    rwa [List.map_map, List.map_map] at hMap
  have hTokens : readings.map (·.tokens) = readings'.map (·.tokens) := by
    rw [← List.forall₂_eq_eq_eq, List.forall₂_map_left_iff, List.forall₂_map_right_iff]
    exact h.imp fun _ _ hAgrees => hAgrees.tokens
  have hItems (lines : List SourceLine) (readings : List LineReading) :
      itemsFrom settings level lines readings = List.zipWith
        (fun padding tokens =>
          Markup.item (padding.map (·, Markup.ofTokens settings.classPrefix.toList tokens)))
        (Indentation.paddings settings.indentUnit level (lines.map SourceLine.ends?))
        (readings.map (·.tokens)) := by
    rw [itemsFrom, List.zipWith_map_right]
  rw [hItems, hItems, hEnds, hTokens]

theorem itemsFrom_cons_of_isBlank {line : SourceLine} (hBlank : line.isBlank = true) (level : Nat)
    (reading : LineReading) (lines : List SourceLine) (readings : List LineReading) :
    itemsFrom settings level (line :: lines) (reading :: readings) =
      Markup.blankItem :: itemsFrom settings level lines readings := by
  have hEnds : line.ends? = none := SourceLine.ends?_eq_none_iff.2 (List.isEmpty_iff.1 hBlank)
  rw [itemsFrom, List.map_cons, hEnds]
  rfl

theorem exists_itemsFrom_cons {line : SourceLine} (hBlank : line.isBlank = false) (level : Nat)
    (reading : LineReading) : ∃ padding content level', ∀ lines readings,
      itemsFrom settings level (line :: lines) (reading :: readings) =
        Markup.shownItem padding content :: itemsFrom settings level' lines readings := by
  cases hEnds : line.ends? with
  | none =>
      have hText := SourceLine.ends?_eq_none_iff.1 hEnds
      exact absurd hText (List.isEmpty_eq_false_iff.1 hBlank)
  | some ends =>
      let here := Indentation.levelOf level ends.1
      refine ⟨Indentation.padding settings.indentUnit here,
        Markup.ofTokens settings.classPrefix.toList reading.tokens,
        Indentation.levelAfter here ends.2, fun lines readings => ?_⟩
      rw [itemsFrom, List.map_cons, hEnds]
      rfl

theorem itemsFrom_inked (level : Nat) (openComment : Option Nat) (lines : List SourceLine) :
    (itemsFrom settings level lines (LineReading.ofLines settings openComment lines)).filter
        (· ≠ Markup.blankItem) =
      itemsFrom settings level (SourceLine.inked lines)
        (LineReading.ofLines settings openComment (SourceLine.inked lines)) := by
  induction lines generalizing level openComment with
  | nil => rfl
  | cons line lines ih =>
      rw [LineReading.ofLines]
      cases hBlank : line.isBlank with
      | true =>
          rw [itemsFrom_cons_of_isBlank settings hBlank, SourceLine.inked_cons_of_isBlank hBlank,
            LineReading.ofLine_of_isBlank _ hBlank, List.filter_cons_of_neg (by simp)]
          exact ih level openComment
      | false =>
          obtain ⟨padding, content, level', hItems⟩ := exists_itemsFrom_cons settings hBlank level
            (LineReading.ofLine settings openComment line)
          rw [SourceLine.inked_cons_of_not_isBlank hBlank, LineReading.ofLines, hItems, hItems,
            List.filter_cons_of_pos (by simp), ih]

end Listing

/-- The item of the line `raw`, told from the others by whether the line is blank. -/
inductive IsPlaced (raw : List Char) : List Char → Prop where
  | blank (spaces : ∀ c ∈ raw, c = ' ') : IsPlaced raw Markup.blankItem
  | shown (ink : ∃ c ∈ raw, c ≠ ' ') (padding : Nat) (content : List Char) :
      IsPlaced raw (Markup.shownItem padding content)

theorem IsPlaced.erase {raws items : List (List Char)} (h : List.Forall₂ IsPlaced raws items) :
    Markup.eraseBlankItems items.flatten =
      ((items.filter (· ≠ Markup.blankItem)).map Markup.eraseBlankItems).flatten := by
  induction h with
  | nil => rfl
  | cons hItem _ ih =>
      cases hItem with
      | blank =>
          rw [List.flatten_cons, Markup.eraseBlankItems_blankItem, ih,
            List.filter_cons_of_neg (by simp)]
      | shown _ padding content =>
          rw [List.flatten_cons, Markup.eraseBlankItems_shownItem, ih,
            List.filter_cons_of_pos (by simp), List.map_cons, List.flatten_cons]

namespace Listing

theorem forall₂_isPlaced (settings : Settings) (text : List Char) :
    List.Forall₂ IsPlaced (splitLines text) (itemsFrom settings 0 (SourceLine.ofText text)
      (LineReading.ofLines settings none (SourceLine.ofText text))) := by
  apply forall₂_items settings
  intro raw start openComment padding hPadding
  cases padding with
  | none =>
      rw [Option.map_none, Markup.item_eq_blankItem]
      exact .blank (trim_eq_nil_iff.1 (hPadding.1 rfl))
  | some padding =>
      rw [Option.map_some, Markup.item_eq_shownItem]
      refine .shown ?_ padding _
      have hInk : ¬ ∀ c ∈ raw, c = ' ' := fun hSpaces =>
        Option.some_ne_none padding (hPadding.2 (trim_eq_nil_iff.2 hSpaces))
      simpa using hInk

/-- A listing does not depend on margins and blank lines. Where two sources have the same texts on
their lines that are not blank, a blank line has its item at its place, the other items are the
same, and the warnings say the same. -/
theorem ofSource_layout (settings : Settings) {first second : String}
    (h : inkedLines (normalize first.toList) = inkedLines (normalize second.toList)) :
    (∃ items items' : List (List Char),
      (ofSource settings first).html.toList = items.flatten ∧
      (ofSource settings second).html.toList = items'.flatten ∧
      List.Forall₂ IsPlaced (splitLines (normalize first.toList)) items ∧
      List.Forall₂ IsPlaced (splitLines (normalize second.toList)) items' ∧
      items.filter (· ≠ Markup.blankItem) = items'.filter (· ≠ Markup.blankItem)) ∧
    Markup.eraseBlankItems (ofSource settings first).html.toList =
      Markup.eraseBlankItems (ofSource settings second).html.toList ∧
    List.Forall₂ Warning.Agrees (ofSource settings first).warnings
      (ofSource settings second).warnings := by
  have hHtml (source : String) : (ofSource settings source).html.toList =
      (itemsFrom settings 0 (SourceLine.ofText (normalize source.toList))
        (LineReading.ofLines settings none
          (SourceLine.ofText (normalize source.toList)))).flatten := String.toList_ofList
  have hPlaced (source : String) := forall₂_isPlaced settings (normalize source.toList)
  have hText : (SourceLine.inked (SourceLine.ofText (normalize first.toList))).map (·.text) =
      (SourceLine.inked (SourceLine.ofText (normalize second.toList))).map (·.text) := by
    rw [SourceLine.ofText, SourceLine.ofText, SourceLine.text_inked_layOut,
      SourceLine.text_inked_layOut]
    exact h
  have hAgrees := LineReading.agrees_ofLines settings hText
    (rfl : (none : Option Nat).isSome = (none : Option Nat).isSome)
  have hItems := itemsFrom_eq_of_agrees settings 0 hText hAgrees
  rw [← itemsFrom_inked, ← itemsFrom_inked] at hItems
  refine ⟨⟨_, _, hHtml first, hHtml second, hPlaced first, hPlaced second, hItems⟩, ?_, ?_⟩
  · rw [hHtml, hHtml, IsPlaced.erase (hPlaced first), IsPlaced.erase (hPlaced second), hItems]
  · have hWarnings := forall₂_agrees_warningsOf hAgrees
      (normalize first.toList).length (normalize second.toList).length
    rwa [warningsOf_inked, warningsOf_inked] at hWarnings

/-- Blank lines within a comment and margins around a string that never ends. -/
theorem ofSource_layout_comment :
    let first := "a /* b\n\n c */ /(/\nf('d  "
    let second := "\r\n\ta /* b  \n    c */ /(/\n \t\n\tf('d"
    inkedLines (normalize first.toList) = inkedLines (normalize second.toList) ∧
    (∃ items, (ofSource {} second).html.toList = items.flatten ∧
      List.Forall₂ IsPlaced [[], " a /* b  ".toList, "    c */ /(/".toList, [' ', ' '],
        " f('d".toList] items) ∧
    Markup.eraseBlankItems (ofSource {} first).html.toList =
      Markup.eraseBlankItems (ofSource {} second).html.toList ∧
    List.Forall₂ Warning.Agrees
      [⟨.rejectedRegex "(", ⟨14, 17⟩⟩, ⟨.unterminatedString, ⟨20, 22⟩⟩]
      (ofSource {} second).warnings := by
  intro first second
  have hLines : inkedLines (normalize first.toList) = inkedLines (normalize second.toList) := by
    decide
  have hSplit : splitLines (normalize second.toList) =
      [[], " a /* b  ".toList, "    c */ /(/".toList, [' ', ' '], " f('d".toList] := by
    decide
  have hFirst : (ofSource {} first).warnings =
      [⟨.rejectedRegex "(", ⟨14, 17⟩⟩, ⟨.unterminatedString, ⟨20, 22⟩⟩] := by
    decide +kernel
  obtain ⟨⟨-, items, -, hItems, -, hPlaced, -⟩, hHtml, hWarnings⟩ := ofSource_layout {} hLines
  rw [hSplit] at hPlaced
  rw [hFirst] at hWarnings
  exact ⟨hLines, ⟨items, hItems, hPlaced⟩, hHtml, hWarnings⟩

end Listing

end CodeListing
