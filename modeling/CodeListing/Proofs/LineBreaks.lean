import Mathlib.Data.List.Forall2
import CodeListing.Listing
import CodeListing.Proofs.Lines

/-! # Ways to write the same lines

A line break is written in one of three ways and a space may be a tab. None of
this is seen in a listing. The breaks of a source are found with one character
of lookahead, so only one thing has to be kept out: a carriage return that means
a line break of its own and has a line feed behind it.
-/

namespace CodeListing

namespace Text

inductive LineBreak where
  | lineFeed
  | carriageReturn
  | both
  deriving Repr, DecidableEq

def LineBreak.text : LineBreak → List Char
  | .lineFeed => ['\n']
  | .carriageReturn => ['\r']
  | .both => ['\r', '\n']

/-- `text` is the line in which some of the spaces are tabs. -/
def IsTabbed (line text : List Char) : Prop :=
  List.Forall₂ (fun c d => d = c ∨ c = ' ' ∧ d = '\t') line text

/-- `source` is written as the lines, with tabs in them, and the breaks between them. A
carriage return does not break before an empty line that a line feed ends. -/
inductive IsWritten : List (List Char) → List LineBreak → List Char → Prop where
  | last {line text} (tabbed : IsTabbed line text) : IsWritten [line] [] text
  | more {line text lines breaks rest} (lineBreak : LineBreak) (tabbed : IsTabbed line text)
      (written : IsWritten lines breaks rest)
      (apart : lineBreak = .carriageReturn → lines.head? = some [] →
        breaks.head? ≠ some .lineFeed) :
      IsWritten (line :: lines) (lineBreak :: breaks) (text ++ (lineBreak.text ++ rest))

def expandTab (c : Char) : Char :=
  if c = '\t' then ' ' else c

theorem eq_of_expandTab {c : Char} (h : expandTab c = '\n') : c = '\n' := by
  unfold expandTab at h
  split at h
  · cases h
  · exact h

theorem normalize_cons {c : Char} (h : c ≠ '\r') (rest : List Char) :
    normalize (c :: rest) = expandTab c :: normalize rest := by
  by_cases hTab : c = '\t'
  · subst hTab
    rfl
  · rw [normalize.eq_4 _ _ (fun _ hc _ => h hc) h hTab, expandTab, if_neg hTab]

theorem normalize_append_of_notMem {text : List Char} (h : '\r' ∉ text) (rest : List Char) :
    normalize (text ++ rest) = text.map expandTab ++ normalize rest := by
  induction text with
  | nil => rfl
  | cons c text ih =>
      obtain ⟨hc, hText⟩ := not_or.1 (mt List.mem_cons.2 h)
      rw [List.cons_append, normalize_cons (Ne.symm hc), ih hText]
      rfl

/-- A break is one line feed, unless it is a carriage return that takes a line feed along. -/
theorem normalize_lineBreak (lineBreak : LineBreak) {rest : List Char}
    (h : lineBreak = .carriageReturn → rest.head? ≠ some '\n') :
    normalize (lineBreak.text ++ rest) = '\n' :: normalize rest := by
  cases lineBreak with
  | lineFeed => exact normalize_cons (by decide) rest
  | both => rfl
  | carriageReturn =>
      apply normalize.eq_2
      rintro after rfl
      exact h rfl rfl

theorem IsTabbed.refl (line : List Char) : IsTabbed line line :=
  List.forall₂_same.2 fun _ _ => .inl rfl

theorem IsTabbed.map_expandTab {line text : List Char} (h : IsTabbed line text) :
    text.map expandTab = line.map expandTab := by
  induction h with
  | nil => rfl
  | cons hChar _ ih =>
      rw [List.map_cons, List.map_cons, ih]
      rcases hChar with rfl | ⟨rfl, rfl⟩ <;> rfl

theorem IsTabbed.notMem {line text : List Char} (h : IsTabbed line text) {c : Char}
    (hc : c ≠ '\t') (hLine : c ∉ line) : c ∉ text := by
  induction h with
  | nil => exact List.not_mem_nil
  | cons hChar _ ih =>
      obtain ⟨hFirst, hRest⟩ := not_or.1 (mt List.mem_cons.2 hLine)
      intro hMem
      rcases List.mem_cons.1 hMem with rfl | hMem
      · rcases hChar with rfl | ⟨-, rfl⟩
        · exact hFirst rfl
        · exact hc rfl
      · exact ih hRest hMem

theorem IsTabbed.eq_nil {line : List Char} (h : IsTabbed line []) : line = [] := by
  cases h
  rfl

namespace IsWritten

variable {lines : List (List Char)} {breaks : List LineBreak} {source : List Char}

/-- Only a break behind an empty line can begin a source with a line feed. -/
theorem head?_ne (h : IsWritten lines breaks source) (hClean : ∀ line ∈ lines, '\n' ∉ line)
    (hApart : lines.head? = some [] → breaks.head? ≠ some .lineFeed) :
    source.head? ≠ some '\n' := by
  have hText {line text : List Char} (hTabbed : IsTabbed line text) (hLine : '\n' ∉ line) :
      text.head? ≠ some '\n' :=
    fun hHead => hTabbed.notMem (by decide) hLine (List.mem_of_head? hHead)
  cases h with
  | last tabbed => exact hText tabbed (hClean _ List.mem_cons_self)
  | @more line text lines breaks rest lineBreak tabbed =>
      cases text with
      | cons c text =>
          have hHead : (c :: text).head? ≠ some '\n' := hText tabbed (hClean _ List.mem_cons_self)
          exact hHead
      | nil =>
          obtain rfl := tabbed.eq_nil
          cases lineBreak with
          | lineFeed => exact absurd rfl (hApart rfl)
          | carriageReturn => simp [LineBreak.text]
          | both => simp [LineBreak.text]

theorem normalize_eq (h : IsWritten lines breaks source)
    (hClean : ∀ line ∈ lines, '\r' ∉ line ∧ '\n' ∉ line) :
    normalize source = ['\n'].intercalate (lines.map (List.map expandTab)) := by
  induction h with
  | @last line text tabbed =>
      have hText := tabbed.notMem (by decide) (hClean _ List.mem_cons_self).1
      have hNormal := normalize_append_of_notMem hText []
      rw [List.append_nil, tabbed.map_expandTab] at hNormal
      rw [hNormal, List.map_singleton, List.intercalate_singleton]
      exact List.append_nil _
  | @more line text lines breaks rest lineBreak tabbed written apart ih =>
      have hText := tabbed.notMem (by decide) (hClean _ List.mem_cons_self).1
      have hLines := fun line hLine => hClean line (List.mem_cons_of_mem _ hLine)
      have hNe : lines.map (List.map expandTab) ≠ [] := by
        cases written <;> exact List.cons_ne_nil _ _
      have hBreak (h : lineBreak = .carriageReturn) : rest.head? ≠ some '\n' :=
        written.head?_ne (fun line hLine => (hLines line hLine).2) (apart h)
      rw [normalize_append_of_notMem hText, tabbed.map_expandTab, normalize_lineBreak _ hBreak,
        ih hLines, List.map_cons, List.intercalate_cons_of_ne_nil hNe, List.append_assoc]
      rfl

theorem ne_nil (h : IsWritten lines breaks source) : lines ≠ [] := by
  cases h <;> exact List.cons_ne_nil _ _

end IsWritten

end Text

open Text

namespace Listing

/-- How breaks and spaces are written does not matter. Two sources that are written as the same
lines have the same listing, with an item for each of the lines. -/
theorem ofSource_eq_of_isWritten (settings : Settings) {lines : List (List Char)}
    (hClean : ∀ line ∈ lines, '\r' ∉ line ∧ '\n' ∉ line) {breaks breaks' : List LineBreak}
    {first second : String} (hFirst : IsWritten lines breaks first.toList)
    (hSecond : IsWritten lines breaks' second.toList) :
    ofSource settings first = ofSource settings second ∧
      (ofSource settings first).lineCount = lines.length := by
  have hNormal := hFirst.normalize_eq hClean
  constructor
  · rw [ofSource, ofSource, hNormal, hSecond.normalize_eq hClean]
  · have hNe : lines.map (List.map expandTab) ≠ [] := by simpa using hFirst.ne_nil
    have hFeed : ∀ line ∈ lines.map (List.map expandTab), '\n' ∉ line := by
      intro line hLine hMem
      obtain ⟨written, hWritten, rfl⟩ := List.mem_map.1 hLine
      obtain ⟨c, hc, hExpand⟩ := List.mem_map.1 hMem
      exact (hClean written hWritten).2 (eq_of_expandTab hExpand ▸ hc)
    change (SourceLine.ofText (normalize first.toList)).length = _
    rw [SourceLine.ofText, SourceLine.length_layOut, hNormal, splitLines,
      List.splitOn_intercalate _ hFeed hNe, List.length_map]

/-- A carriage return may stand before an empty line that two characters end. -/
theorem ofSource_eq_of_isWritten_mixed :
    (∀ line ∈ [['a', ' ', 'b'], [], [' ', '"', 'c']], '\r' ∉ line ∧ '\n' ∉ line) ∧
    IsWritten [['a', ' ', 'b'], [], [' ', '"', 'c']] [.lineFeed, .lineFeed]
      "a b\n\n \"c".toList ∧
    IsWritten [['a', ' ', 'b'], [], [' ', '"', 'c']] [.carriageReturn, .both]
      "a\tb\r\r\n\t\"c".toList ∧
    ofSource {} "a b\n\n \"c" = ofSource {} "a\tb\r\r\n\t\"c" ∧
    (ofSource {} "a b\n\n \"c").lineCount = 3 := by
  have hClean : ∀ line ∈ [['a', ' ', 'b'], [], [' ', '"', 'c']], '\r' ∉ line ∧ '\n' ∉ line := by
    decide
  -- the spaces that are tabs in the second source
  have hTabbed : IsTabbed ['a', ' ', 'b'] ['a', '\t', 'b'] ∧
      IsTabbed [' ', '"', 'c'] ['\t', '"', 'c'] := by simp [IsTabbed]
  have hFirst : IsWritten [['a', ' ', 'b'], [], [' ', '"', 'c']] [.lineFeed, .lineFeed]
      "a b\n\n \"c".toList :=
    .more .lineFeed (.refl _) (.more .lineFeed .nil (.last (.refl _)) nofun) nofun
  have hSecond : IsWritten [['a', ' ', 'b'], [], [' ', '"', 'c']] [.carriageReturn, .both]
      "a\tb\r\r\n\t\"c".toList :=
    .more .carriageReturn hTabbed.1 (.more .both .nil (.last hTabbed.2) nofun) (by decide)
  obtain ⟨hSame, hCount⟩ := ofSource_eq_of_isWritten {} hClean hFirst hSecond
  exact ⟨hClean, hFirst, hSecond, hSame, hCount⟩

end Listing

end CodeListing
