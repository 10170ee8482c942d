import Mathlib.Data.List.DropRight
import CodeListing.Proofs.Marks
import CodeListing.Proofs.Reports
import CodeListing.Proofs.WarningSpans
import CodeListing.Report.Basic

/-! # The places that reports name

A report names the line and column where its span begins, and counts both by its own
line ends, of which the line feed is only one. A listing is numbered by line feeds
alone. So the two agree on a warning exactly if no other line end comes before it.
-/

namespace CodeListing

open Text Unicode

namespace Report

/-- Line and column behind a text, both counted from one, when the lines end with the characters
that satisfy `isEnd`. -/
def place (isEnd : Char → Bool) (before : List Char) : Nat × Nat :=
  (before.countP isEnd + 1, (before.rtakeWhile (!isEnd ·)).length + 1)

theorem rtakeWhile_cons {p : Char → Bool} {c : Char} {text : List Char}
    (h : ∃ d ∈ c :: text, p d = false) : (c :: text).rtakeWhile p = text.rtakeWhile p := by
  obtain ⟨d, hd, hEnd⟩ := h
  rw [List.rtakeWhile, List.rtakeWhile, List.reverse_cons]
  by_cases hText : ∀ d ∈ text, p d = true
  · have hc : ¬ p c = true := by
      rcases List.mem_cons.1 hd with rfl | hd
      · simp [hEnd]
      · simp [hText d hd] at hEnd
    rw [List.takeWhile_append_of_pos (by simpa using hText), List.takeWhile_cons_of_neg hc,
      List.append_nil, List.takeWhile_eq_self_iff.2 (by simpa using hText)]
  · rw [List.takeWhile_append, if_neg]
    intro hLength
    have hAll := List.takeWhile_eq_self_iff.1
      ((List.takeWhile_prefix p).eq_of_length hLength)
    exact hText (by simpa using hAll)

theorem rtakeWhile_append_cons {p : Char → Bool} {c : Char} (hc : p c = false)
    (before after : List Char) : (before ++ c :: after).rtakeWhile p = after.rtakeWhile p := by
  induction before with
  | nil => exact rtakeWhile_cons ⟨c, List.mem_cons_self, hc⟩
  | cons d before ih =>
      rw [List.cons_append, rtakeWhile_cons ⟨c, by simp, hc⟩, ih]

theorem place_of_forall {isEnd : Char → Bool} {before : List Char}
    (h : ∀ d ∈ before, isEnd d = false) : place isEnd before = (1, before.length + 1) := by
  rw [place, List.countP_eq_zero.2 (by simpa using h),
    List.rtakeWhile_eq_self_iff.2 (by simpa using h)]

theorem place_append_cons {isEnd : Char → Bool} {before : List Char} {c : Char}
    (h : ∀ d ∈ before, isEnd d = false) (hc : isEnd c = true) (after : List Char) :
    place isEnd (before ++ c :: after) =
      ((place isEnd after).1 + 1, (place isEnd after).2) := by
  rw [place, rtakeWhile_append_cons (by simp [hc]), List.countP_append,
    List.countP_cons_of_pos hc, List.countP_eq_zero.2 (by simpa using h), Nat.zero_add]
  rfl

theorem rtakeWhile_congr {p q : Char → Bool} {text : List Char} (h : ∀ c ∈ text, p c = q c) :
    text.rtakeWhile p = text.rtakeWhile q := by
  induction text using List.reverseRecOn with
  | nil => rfl
  | append_singleton text c ih =>
      obtain ⟨hText, hc⟩ := List.forall_mem_append.1 h
      rw [List.rtakeWhile_concat, List.rtakeWhile_concat, ih hText,
        List.forall_mem_singleton.1 hc]

/-- Two ways of ending lines name the same place exactly if the wider one ends no other lines. -/
theorem place_eq_iff {isEnd isOther : Char → Bool} {before : List Char}
    (hWider : ∀ c, isOther c = true → isEnd c = true) :
    place isEnd before = place isOther before ↔
      ∀ c ∈ before, isEnd c = true → isOther c = true := by
  constructor
  · intro hPlace c hc hEnd
    by_contra hOther
    obtain ⟨left, right, rfl⟩ := List.append_of_mem hc
    have hCount := congrArg Prod.fst hPlace
    have hLeft := List.countP_mono_left (l := left) fun d _ => hWider d
    have hRight := List.countP_mono_left (l := right) fun d _ => hWider d
    simp only [place, List.countP_append, List.countP_cons_of_pos hEnd,
      List.countP_cons_of_neg hOther] at hCount
    omega
  · intro hSame
    have hAgree : ∀ c ∈ before, isEnd c = isOther c := fun c hc =>
      Bool.eq_iff_iff.2 ⟨hSame c hc, hWider c⟩
    rw [place, place, List.countP_congr fun c hc => by rw [hAgree c hc],
      rtakeWhile_congr fun c hc => by rw [hAgree c hc]]

theorem excerptLines_ne_nil (text : List Char) : excerptLines text ≠ [] := by
  unfold excerptLines
  split
  · simp
  · simp
  · split
    · simp
    · split <;> simp

theorem bounds_of_mem_layOut {index start : Nat} {lines : List (List Char)} {line : ExcerptLine}
    (h : line ∈ ExcerptLine.layOut index start lines) :
    index ≤ line.index ∧ start ≤ line.offset := by
  induction lines generalizing index start with
  | nil => cases h
  | cons text lines ih =>
      rcases List.mem_cons.1 h with rfl | h
      · exact ⟨Nat.le_refl _, Nat.le_refl _⟩
      · have hLater := ih h
        omega

namespace ExcerptLine

variable {length offset : Nat}

theorem at?_cons {first : ExcerptLine} (lines : List ExcerptLine) (hLength : offset ≤ length)
    (hFirst : first.offset ≤ offset) :
    at? length (first :: lines) offset = (at? length lines offset).or (some first) := by
  rw [at?, at?, if_pos hLength, if_pos hLength, List.filter_cons_of_pos (by simpa using hFirst),
    List.getLast?_cons]
  cases (lines.filter (·.offset ≤ offset)).getLast? <;> rfl

theorem at?_layOut_of_lt {index start : Nat} (h : offset < start) (lines : List (List Char)) :
    at? length (layOut index start lines) offset = none := by
  have hNone : (layOut index start lines).filter (·.offset ≤ offset) = [] := by
    rw [List.filter_eq_nil_iff]
    intro line hLine
    have hStart := (bounds_of_mem_layOut hLine).2
    simp only [decide_eq_true_eq]
    omega
  rw [at?, hNone]
  split <;> rfl

theorem mem_of_at? {lines : List ExcerptLine} {line : ExcerptLine}
    (h : at? length lines offset = some line) : line ∈ lines := by
  unfold at? at h
  split at h
  · exact (List.mem_filter.1 (List.mem_of_getLast? h)).1
  · cases h

/-- The line of an offset is counted by the line ends before the offset, and begins behind the last
of them. -/
theorem at?_layOut {text : List Char} (hOffset : offset < text.length) (index start : Nat)
    (hLength : start + offset ≤ length) :
    ∃ line, at? length (layOut index start (excerptLines text)) (start + offset) = some line ∧
      line.index = index + (text.take offset).countP isLineEnd ∧
      line.offset + ((text.take offset).rtakeWhile (!isLineEnd ·)).length = start + offset := by
  fun_induction excerptLines text generalizing index start offset with
  | case1 => cases hOffset
  | case2 c =>
      obtain rfl : offset = 0 := by simpa using hOffset
      rw [layOut, at?_cons _ hLength (Nat.le_add_right ..), at?_layOut_of_lt (by simp)]
      exact ⟨_, rfl, rfl, rfl⟩
  | case3 c rest hNe hEnd ih =>
      rw [layOut, at?_cons _ hLength (Nat.le_add_right ..)]
      cases offset with
      | zero =>
          rw [at?_layOut_of_lt (by simp)]
          exact ⟨_, rfl, rfl, rfl⟩
      | succ offset =>
          rw [show start + (offset + 1) = start + 1 + offset by omega] at hLength ⊢
          obtain ⟨line, hLine, hIndex, hColumn⟩ :=
            ih (Nat.lt_of_succ_lt_succ hOffset) (index + 1) (start + 1) hLength
          refine ⟨line, ?_, ?_, ?_⟩
          · rw [List.length_singleton, hLine, Option.some_or]
          · rw [hIndex, List.take_succ_cons, List.countP_cons_of_pos hEnd]
            omega
          · rw [List.take_succ_cons, rtakeWhile_cons ⟨c, List.mem_cons_self, by simp [hEnd]⟩,
              hColumn]
  | case4 c rest hNe hEnd hNil => exact absurd hNil (excerptLines_ne_nil rest)
  | case5 c rest hNe hEnd line lines hLines ih =>
      rw [layOut, at?_cons _ hLength (Nat.le_add_right ..)]
      cases offset with
      | zero =>
          rw [at?_layOut_of_lt (by simp)]
          exact ⟨_, rfl, rfl, rfl⟩
      | succ offset =>
          have hRest : offset < rest.length := Nat.lt_of_succ_lt_succ hOffset
          rw [show start + (offset + 1) = start + 1 + offset by omega] at hLength ⊢
          obtain ⟨found, hFound, hIndex, hColumn⟩ := ih hRest index (start + 1) hLength
          rw [hLines, layOut, at?_cons _ hLength (Nat.le_add_right ..)] at hFound
          rw [List.length_cons, show start + (line.length + 1) = start + 1 + line.length by omega,
            List.take_succ_cons, List.countP_cons_of_neg hEnd]
          cases hLater : at? length (layOut (index + 1) (start + 1 + line.length) lines)
              (start + 1 + offset) with
          | none =>
              -- the offset is in the line that begins with `c`
              rw [hLater] at hFound
              obtain rfl := Option.some.inj hFound
              have hNone : (rest.take offset).countP isLineEnd = 0 := by
                simpa using hIndex
              refine ⟨_, rfl, by rw [hNone, Nat.add_zero], ?_⟩
              rw [List.rtakeWhile_eq_self_iff.2]
              · simp only [List.length_cons, List.length_take]
                omega
              · rw [List.countP_eq_zero] at hNone
                simpa [hEnd] using hNone
          | some later =>
              rw [hLater] at hFound
              obtain rfl := Option.some.inj hFound
              have hBounds := (bounds_of_mem_layOut (mem_of_at? hLater)).1
              refine ⟨_, rfl, hIndex, ?_⟩
              obtain ⟨d, hd, hEnds⟩ := List.countP_pos_iff.1
                (show 0 < (rest.take offset).countP isLineEnd by omega)
              rw [rtakeWhile_cons ⟨d, List.mem_cons_of_mem _ hd, by simp [hEnds]⟩, hColumn]

theorem at?_ofText {text : List Char} (hOffset : offset < text.length) :
    ∃ line, at? text.length (ofText text) offset = some line ∧
      (line.index + 1, offset - line.offset + 1) = place isLineEnd (text.take offset) := by
  have hLength : 0 + offset ≤ text.length := by omega
  obtain ⟨line, hLine, hIndex, hColumn⟩ := at?_layOut hOffset 0 0 hLength
  rw [Nat.zero_add] at hLine
  refine ⟨line, hLine, Prod.ext ?_ ?_⟩
  · simp only [place]
    omega
  · simp only [place]
    omega

end ExcerptLine

/-- The report begins with the message and names the place of the span's start in its second
row. -/
def Names (report : List Char) (name : String) (warning : Warning) (place : Nat × Nat) : Prop :=
  ∃ width rest, report = ("Warning: " ++ warning.defect.message ++ "\n").toList ++
    (List.replicate width ' ' ++ (("╭─[ " ++ name ++ ":" ++ toString place.1 ++ ":" ++
      toString place.2 ++ " ]\n").toList ++ rest))

theorem names_write (name : String) {text : List Char} {warning : Warning}
    (hStart : warning.span.start < warning.span.stop) (hStop : warning.span.stop ≤ text.length) :
    Names (write false name text warning) name warning
      (place isLineEnd (text.take warning.span.start)) := by
  obtain ⟨first, hFirst, hPlace⟩ := ExcerptLine.at?_ofText (Nat.lt_of_lt_of_le hStart hStop)
  obtain ⟨last, hLast, -⟩ :=
    ExcerptLine.at?_ofText (show warning.span.stop - 1 < text.length by omega)
  obtain ⟨width, more, hRows⟩ : ∃ width more, rows name text warning =
      heading warning.defect :: (location width name first warning.span.start ++ more) := by
    simp only [rows, hStart, if_true, hFirst, hLast]
    exact ⟨_, _, congrArg _ (List.append_assoc ..)⟩
  refine ⟨width + 2,
    List.replicate (width + 2) ' ' ++ '│' :: '\n' :: more.flatMap (writeRow false), ?_⟩
  simp [write, hRows, ← hPlace, heading, location, writeRow_plain, plain, inked, spaces, single]

theorem append_inj_of_endsRun {p : Char → Bool} {a b s t : List Char} (h : a ++ s = b ++ t)
    (ha : ∀ c ∈ a, p c = true) (hb : ∀ c ∈ b, p c = true) (hs : EndsRun p s) (ht : EndsRun p t) :
    a = b ∧ s = t := by
  obtain ⟨more, rfl, -⟩ := prefix_of_endsRun h ha ht
  obtain ⟨less, hLess, -⟩ := prefix_of_endsRun h.symm hb hs
  obtain rfl : more = [] := by
    have hLength := congrArg List.length hLess
    simp only [List.length_append] at hLength
    exact List.length_eq_zero_iff.1 (by omega)
  rw [List.append_nil] at h ⊢
  exact ⟨rfl, List.append_cancel_left h⟩

theorem eq_of_toString_append {m n : Nat} {c d : Char} {s t : List Char}
    (h : (toString m).toList ++ c :: s = (toString n).toList ++ d :: t)
    (hc : c.isDigit = false) (hd : d.isDigit = false) : m = n ∧ s = t := by
  obtain ⟨hNumber, hRest⟩ := append_inj_of_endsRun h (fun _ => isDigit_of_mem_toString)
    (fun _ => isDigit_of_mem_toString) (fun _ hHead => Option.some.inj hHead ▸ hc)
    (fun _ hHead => Option.some.inj hHead ▸ hd)
  rw [toList_toString, toList_toString] at hNumber
  refine ⟨?_, (List.cons.inj hRest).2⟩
  rw [← Nat.ofDigitChars_ten_toDigits (n := m), hNumber, Nat.ofDigitChars_ten_toDigits]

/-- A report names no two places. -/
theorem Names.unique {report : List Char} {name : String} {warning : Warning} {p q : Nat × Nat}
    (hp : Names report name warning p) (hq : Names report name warning q) : p = q := by
  obtain ⟨width, rest, rfl⟩ := hp
  obtain ⟨width', rest', hEq⟩ := hq
  have hEq := List.append_cancel_left hEq
  have hSpaces (count : Nat) : ∀ c ∈ List.replicate count ' ', decide (c = ' ') = true := by
    intro c hc
    simpa using List.eq_of_mem_replicate hc
  simp only [String.toList_append, List.append_assoc] at hEq
  obtain ⟨-, hEq⟩ := append_inj_of_endsRun hEq (hSpaces width) (hSpaces width')
    (fun c hHead => by cases hHead; rfl) (fun c hHead => by cases hHead; rfl)
  have hEq := List.append_cancel_left (List.append_cancel_left (List.append_cancel_left hEq))
  obtain ⟨hLine, hEq⟩ := eq_of_toString_append hEq rfl rfl
  obtain ⟨hColumn, -⟩ := eq_of_toString_append hEq rfl rfl
  exact Prod.ext hLine hColumn

end Report

open Report

/-- The offset is in the line that the place names, at its column. A line feed follows each line but
the last, and no column is that of a line feed. -/
def Text.IsPlaceIn (lines : List (List Char)) (offset : Nat) (place : Nat × Nat) : Prop :=
  ∃ earlier line later, lines = earlier ++ line :: later ∧ place.1 = earlier.length + 1 ∧
    (earlier.flatMap (· ++ ['\n'])).length + place.2 = offset + 1 ∧ place.2 ≤ line.length

theorem isPlaceIn_intercalate {lines : List (List Char)} (hNewline : ∀ line ∈ lines, '\n' ∉ line)
    {offset : Nat} {c : Char} (hc : c ≠ '\n')
    (hText : (['\n'].intercalate lines)[offset]? = some c) :
    IsPlaceIn lines offset (place (· = '\n') ((['\n'].intercalate lines).take offset)) := by
  induction lines generalizing offset with
  | nil => cases hText
  | cons line lines ih =>
      obtain ⟨hLine, hLines⟩ := List.forall_mem_cons.1 hNewline
      obtain ⟨tail, hJoin, hTail⟩ := exists_intercalate_cons line lines
      rw [hJoin] at hText ⊢
      rcases Nat.lt_or_ge offset line.length with hHere | hBehind
      · have hBefore : (line ++ tail).take offset = line.take offset :=
          List.take_append_of_le_length (Nat.le_of_lt hHere)
        have hNone : ∀ d ∈ line.take offset, decide (d = '\n') = false := by
          intro d hd
          rw [decide_eq_false_iff_not]
          rintro rfl
          exact hLine (List.mem_of_mem_take hd)
        rw [hBefore, place_of_forall hNone, List.length_take, Nat.min_eq_left (Nat.le_of_lt hHere)]
        exact ⟨[], line, lines, rfl, rfl, Nat.zero_add _, hHere⟩
      · obtain ⟨more, rfl⟩ := Nat.exists_eq_add_of_le hBehind
        rw [List.getElem?_append_right hBehind, Nat.add_sub_cancel_left] at hText
        rcases hTail with rfl | rfl
        · cases hText
        cases more with
        | zero => exact absurd (Option.some.inj hText).symm hc
        | succ more =>
            have hNone : ∀ d ∈ line, decide (d = '\n') = false := by
              intro d hd
              rw [decide_eq_false_iff_not]
              rintro rfl
              exact hLine hd
            obtain ⟨earlier, here, later, rfl, hNumber, hColumn, hBound⟩ := ih hLines hText
            rw [List.take_length_add_append, List.take_succ_cons, place_append_cons hNone rfl]
            refine ⟨line :: earlier, here, later, rfl, ?_, ?_, hBound⟩
            · rw [List.length_cons, hNumber]
            · rw [List.flatMap_cons, List.length_append, List.length_append, List.length_singleton]
              simp only [] at hColumn ⊢
              omega

theorem Warning.PointsAt.getElem?_start {warning : Warning} {text : List Char}
    (h : warning.PointsAt text) : ∃ c, c ≠ '\n' ∧ text[warning.span.start]? = some c := by
  obtain ⟨hStart, hStop, hDefect⟩ := h
  have hBound : warning.span.start < text.length := by omega
  have hText := List.drop_eq_getElem_cons hBound
  have hFirst (hNewline : '\n' ∉ warning.span.slice text) :
      ∃ c, c ≠ '\n' ∧ text[warning.span.start]? = some c := by
    obtain ⟨more, hMore⟩ := Nat.exists_eq_add_of_lt hStart
    have hSlice : warning.span.slice text =
        text[warning.span.start] :: (text.drop (warning.span.start + 1)).take more := by
      rw [Span.slice, hText, hMore, show warning.span.start + more + 1 - warning.span.start =
        more + 1 by omega, List.take_succ_cons]
    refine ⟨text[warning.span.start], ?_, List.getElem?_eq_getElem hBound⟩
    intro hc
    rw [hSlice, hc] at hNewline
    exact hNewline List.mem_cons_self
  split at hDefect
  · exact hFirst hDefect.1
  · exact hFirst hDefect.1
  · obtain ⟨⟨more, hMore⟩, -⟩ := hDefect
    rw [hText] at hMore
    change '/' :: '*' :: more = _ at hMore
    obtain ⟨hSlash, -⟩ := List.cons.inj hMore
    exact ⟨'/', by decide, by rw [List.getElem?_eq_getElem hBound, ← hSlash]⟩

theorem Listing.span_of_mem_warnings {settings : Settings} {source : String} {warning : Warning}
    (h : warning ∈ (ofSource settings source).warnings) :
    let text := normalize source.toList
    warning.span.start < warning.span.stop ∧ warning.span.stop ≤ text.length ∧
      ∃ c, c ≠ '\n' ∧ text[warning.span.start]? = some c := by
  intro text
  have hPoints : warning.PointsAt text := pointsAt_of_mem_warningsOf h
  exact ⟨hPoints.1, hPoints.2.1, hPoints.getElem?_start⟩

/-- The place that a report names for a warning is counted by the line ends of reports. A listing
has an item for every line of the source, and the place counted by line feeds names the item of the
line in which the warning begins, and the column in that line. The report names this place exactly
if every line end before the warning is a line feed. -/
theorem Listing.names_place_iff (settings : Settings) (source name : String) :
    ∀ warning ∈ (ofSource settings source).warnings,
      let text := normalize source.toList
      let before := text.take warning.span.start
      let report := Report.write false name text warning
      Names report name warning (place isLineEnd before) ∧
      (ofSource settings source).lineCount = (splitLines text).length ∧
      IsPlaceIn (splitLines text) warning.span.start (place (· = '\n') before) ∧
      (Names report name warning (place (· = '\n') before) ↔
        ∀ c ∈ before, isLineEnd c = true → c = '\n') := by
  intro warning hWarning text before report
  obtain ⟨hStart, hStop, c, hc, hText⟩ := span_of_mem_warnings hWarning
  have hNames : Names report name warning (place isLineEnd before) :=
    names_write name hStart hStop
  have hLines : ['\n'].intercalate (splitLines text) = text := List.intercalate_splitOn _
  have hJoined : (['\n'].intercalate (splitLines text))[warning.span.start]? = some c := by
    rw [hLines]
    exact hText
  have hPlace := isPlaceIn_intercalate (fun _ => newline_notMem_of_mem_splitLines) hc hJoined
  rw [hLines] at hPlace
  refine ⟨hNames, SourceLine.length_layOut _ _, hPlace, ?_⟩
  have hWider (c : Char) (hNewline : decide (c = '\n') = true) : isLineEnd c = true := by
    rw [of_decide_eq_true hNewline]
    decide
  have hSame : place isLineEnd before = place (· = '\n') before ↔ _ := place_eq_iff hWider
  simp only [decide_eq_true_eq] at hSame
  rw [← hSame]
  constructor
  · intro hOther
    exact hNames.unique hOther
  · intro hEq
    rwa [← hEq]

/-- Line ends of any spelling and a tab before the warning leave the report at the place of the
item. -/
theorem Listing.names_place_iff_spellings :
    ⟨.unterminatedString, ⟨5, 7⟩⟩ ∈ (ofSource {} "a;\r\n\r\t'x").warnings ∧
    Names (Report.write false "a.js" (normalize "a;\r\n\r\t'x".toList)
      ⟨.unterminatedString, ⟨5, 7⟩⟩) "a.js" ⟨.unterminatedString, ⟨5, 7⟩⟩ (3, 2) := by
  have hMem : ⟨.unterminatedString, ⟨5, 7⟩⟩ ∈ (ofSource {} "a;\r\n\r\t'x").warnings := by
    decide +kernel
  have hBefore : (normalize "a;\r\n\r\t'x".toList).take 5 = ['a', ';', '\n', '\n', ' '] := by
    decide +kernel
  obtain ⟨-, -, -, hSame⟩ := names_place_iff {} "a;\r\n\r\t'x" "a.js" _ hMem
  rw [hBefore] at hSame
  exact ⟨hMem, hSame.2 (by simp [isLineEnd])⟩

/-- A line separator is the end of a line for a report and not for a listing: the report of this
string in the only line of its source names a second line. -/
theorem Listing.names_secondLine_lineSeparator :
    ⟨.unterminatedString, ⟨2, 4⟩⟩ ∈ (ofSource {} "a\u2028'x").warnings ∧
    (ofSource {} "a\u2028'x").lineCount = 1 ∧
    place (· = '\n') ((normalize "a\u2028'x".toList).take 2) = (1, 3) ∧
    Names (Report.write false "a.js" (normalize "a\u2028'x".toList) ⟨.unterminatedString, ⟨2, 4⟩⟩)
      "a.js" ⟨.unterminatedString, ⟨2, 4⟩⟩ (2, 1) ∧
    ¬ Names (Report.write false "a.js" (normalize "a\u2028'x".toList)
      ⟨.unterminatedString, ⟨2, 4⟩⟩) "a.js" ⟨.unterminatedString, ⟨2, 4⟩⟩ (1, 3) := by
  have hText : normalize "a\u2028'x".toList = ['a', '\u2028', '\'', 'x'] := by decide +kernel
  rw [hText]
  have hNames : Names (Report.write false "a.js" ['a', '\u2028', '\'', 'x']
      ⟨.unterminatedString, ⟨2, 4⟩⟩) "a.js" ⟨.unterminatedString, ⟨2, 4⟩⟩ (2, 1) :=
    names_write "a.js" (by decide) (by decide)
  refine ⟨by decide +kernel, by decide +kernel, by decide, hNames, ?_⟩
  intro hOther
  exact absurd (hNames.unique hOther) (by decide)

end CodeListing
