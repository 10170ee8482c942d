import CodeListing.Proofs.Concatenation
import CodeListing.Proofs.LineBreaks
import CodeListing.Proofs.WarningOrder

/-! # The places of lines

A normal text has one kind of line break and one kind of margin, and making it
normal again changes nothing. Its lines and their breaks are the whole of it. So
counting the lines before a line, with one character for each break, gives the
place of the line, and counting its margin gives the place of its text.
-/

namespace CodeListing.Text

theorem notMem_normalize {c : Char} (hTab : c = '\t' ∨ c = '\r') (text : List Char) :
    c ∉ normalize text := by
  have hSpace : c ≠ ' ' := by rcases hTab with rfl | rfl <;> decide
  have hFeed : c ≠ '\n' := by rcases hTab with rfl | rfl <;> decide
  fun_induction normalize text with
  | case1 rest ih => simp [hFeed, ih]
  | case2 rest _ ih => simp [hFeed, ih]
  | case3 rest ih => simp [hSpace, ih]
  | case4 d rest _ hReturn hNoTab ih =>
      rintro (_ | ⟨_, hMem⟩)
      · exact hTab.elim hNoTab hReturn
      · exact ih hMem
  | case5 => exact List.not_mem_nil

theorem normalize_of_notMem {text : List Char} (hTab : '\t' ∉ text) (hReturn : '\r' ∉ text) :
    normalize text = text := by
  have hSame : text.map expandTab = text := by
    refine (List.map_congr_left ?_).trans (List.map_id text)
    intro c hc
    apply if_neg
    rintro rfl
    exact hTab hc
  have hNormal := normalize_append_of_notMem hReturn []
  rwa [List.append_nil, hSame, normalize, List.append_nil] at hNormal

@[simp] theorem normalize_normalize (text : List Char) :
    normalize (normalize text) = normalize text :=
  normalize_of_notMem (notMem_normalize (.inl rfl) text) (notMem_normalize (.inr rfl) text)

/-- What stands before a line is as long as the lines before it take. -/
theorem exists_intercalate_append (before : List (List Char)) (raw : List Char)
    (after : List (List Char)) : ∃ left right, left.length = extent before ∧
      ['\n'].intercalate (before ++ raw :: after) = left ++ (raw ++ right) := by
  induction before with
  | nil =>
      cases after with
      | nil => exact ⟨[], [], rfl, by simp⟩
      | cons next after => exact ⟨[], _, rfl, rfl⟩
  | cons line before ih =>
      obtain ⟨left, right, hLeft, hJoin⟩ := ih
      refine ⟨line ++ '\n' :: left, right, ?_, ?_⟩
      · simp [extent, hLeft, Nat.add_assoc, Nat.add_comm]
      · rw [List.cons_append, List.intercalate_cons_of_ne_nil (by simp), hJoin]
        simp

theorem head?_trimLeft (raw : List Char) : (trimLeft raw).head? ≠ some ' ' := by
  intro hHead
  have hNot := List.head?_dropWhile_not (· = ' ') raw
  rw [show (raw.dropWhile (· = ' ')).head? = some ' ' from hHead] at hNot
  simp at hNot

theorem getLast?_trimRight (text : List Char) : (trimRight text).getLast? ≠ some ' ' := by
  rw [trimRight, List.getLast?_reverse]
  exact head?_trimLeft text.reverse

theorem head?_trimRight {text : List Char} (h : text.head? ≠ some ' ') :
    (trimRight text).head? ≠ some ' ' := by
  intro hHead
  apply h
  rw [← trimRight_margin text, List.head?_append, hHead]
  rfl

namespace SourceLine

/-- The line is the part of `text` that is left of `raw`, which begins at `start`, without the
spaces around it. -/
structure IsCutFrom (line : SourceLine) (text raw : List Char) (start : Nat) : Prop where
  /-- Where the whole line stands. -/
  raw_eq : (Span.ofLength start raw.length).slice text = raw
  /-- Where its text stands. -/
  text_eq : (Span.ofLength line.offset line.text.length).slice text = line.text
  /-- The text stands within the line. -/
  within : start ≤ line.offset ∧ line.offset + line.text.length ≤ start + raw.length
  /-- What of the line is not in the text is a space. -/
  margins : ∀ i c, raw[i]? = some c →
    start + i < line.offset ∨ line.offset + line.text.length ≤ start + i → c = ' '
  /-- The text begins and ends with other characters. -/
  inked : line.text.head? ≠ some ' ' ∧ line.text.getLast? ≠ some ' '
  /-- The ends of the line are those of its text, and a line without text has none. -/
  ends_eq : line.ends?.map Prod.fst = line.text.head? ∧
    line.ends?.map Prod.snd = line.text.getLast?

theorem map_ends? (line : SourceLine) : line.ends?.map Prod.fst = line.text.head? ∧
    line.ends?.map Prod.snd = line.text.getLast? := by
  unfold ends?
  split
  · rename_i hText
    rw [hText]
    exact ⟨rfl, rfl⟩
  · rename_i c rest hText
    rw [hText, List.getLast?_cons, List.getLastD_eq_getLast?]
    exact ⟨rfl, rfl⟩

theorem eq_space_of_margins {left text right : List Char} {i : Nat} {c : Char}
    (hLeft : ∀ d ∈ left, d = ' ') (hRight : ∀ d ∈ right, d = ' ')
    (hc : (left ++ (text ++ right))[i]? = some c)
    (hOutside : i < left.length ∨ left.length + text.length ≤ i) : c = ' ' := by
  rcases hOutside with hBefore | hBehind
  · rw [List.getElem?_append_left hBefore] at hc
    exact hLeft c (List.mem_of_getElem? hc)
  · rw [List.getElem?_append_right (by omega), List.getElem?_append_right (by omega)] at hc
    exact hRight c (List.mem_of_getElem? hc)

theorem isCutFrom_ofRaw {left raw right : List Char} :
    (ofRaw raw left.length).IsCutFrom (left ++ (raw ++ right)) raw left.length where
  raw_eq := Span.slice_ofLength left raw right
  text_eq := by
    obtain ⟨count, hRaw⟩ := trim_margins raw
    have hSlice := Span.slice_ofLength (left ++ List.replicate (leftMargin raw) ' ')
      (trimRight (trimLeft raw)) (List.replicate count ' ' ++ right)
    rw [List.length_append, List.length_replicate, List.append_assoc, ← List.append_assoc _ _ right,
      ← List.append_assoc (List.replicate _ _), hRaw] at hSlice
    exact hSlice
  within := ⟨Nat.le_add_right .., offset_add_length_le raw left.length⟩
  margins := by
    obtain ⟨count, hRaw⟩ := trim_margins raw
    intro i c hc hOutside
    rw [← hRaw] at hc
    refine eq_space_of_margins (fun d => List.eq_of_mem_replicate)
      (fun d => List.eq_of_mem_replicate) hc ?_
    simp only [ofRaw, List.length_replicate] at hOutside ⊢
    omega
  inked := ⟨head?_trimRight (head?_trimLeft raw), getLast?_trimRight (trimLeft raw)⟩
  ends_eq := map_ends? _

theorem getElem?_layOut (start : Nat) (before : List (List Char)) (raw : List Char)
    (after : List (List Char)) :
    (layOut start (before ++ raw :: after))[before.length]? =
      some (ofRaw raw (start + extent before)) := by
  rw [layOut_append, List.getElem?_append_right (by simp), length_layOut, Nat.sub_self]
  rfl

/-- The lines of a source take all of its normal form and nothing else. A normal form has no tab
and no carriage return, is its own normal form, and has the same lines. No line has a line feed in
it; with one between them the lines are the text, and with one behind each that is what they take.
Every line is cut from the text at the place that the lines before it give. -/
theorem isCutFrom_ofText (source : String) :
    let text := normalize source.toList
    '\t' ∉ text ∧ '\r' ∉ text ∧ normalize text = text ∧
    (∀ line ∈ splitLines text, '\n' ∉ line) ∧ ['\n'].intercalate (splitLines text) = text ∧
    splitLines (normalize text) = splitLines text ∧
    extent (splitLines text) = text.length + 1 ∧
    ∀ before raw after, splitLines text = before ++ raw :: after →
      (ofText text)[before.length]? = some (ofRaw raw (extent before)) ∧
      (ofRaw raw (extent before)).IsCutFrom text raw (extent before) := by
  intro text
  have hNormal : normalize text = text := normalize_normalize source.toList
  have hJoin : ['\n'].intercalate (splitLines text) = text := List.intercalate_splitOn _
  refine ⟨notMem_normalize (.inl rfl) _, notMem_normalize (.inr rfl) _, hNormal,
    fun _ => newline_notMem_of_mem_splitLines, hJoin, congrArg splitLines hNormal,
    extent_splitLines text, ?_⟩
  intro before raw after hLines
  constructor
  · rw [ofText, hLines, getElem?_layOut, Nat.zero_add]
  · obtain ⟨left, right, hLeft, hText⟩ := exists_intercalate_append before raw after
    rw [← hLines, hJoin] at hText
    rw [hText, ← hLeft]
    exact isCutFrom_ofRaw

/-- Two breaks of two characters, a line of margins only, and a text with a tab in it. -/
theorem isCutFrom_ofText_mixed :
    let text := normalize "\x7b\r\n \t\r  a\tb \r\n".toList
    splitLines text = [['{'], [' ', ' ']] ++ "  a b ".toList :: [[]] ∧
    (ofText text)[2]? = some ⟨['a', ' ', 'b'], 7⟩ ∧
    SourceLine.IsCutFrom ⟨['a', ' ', 'b'], 7⟩ text "  a b ".toList 5 := by
  intro text
  have hLines : splitLines text = [['{'], [' ', ' ']] ++ "  a b ".toList :: [[]] := by decide
  obtain ⟨-, -, -, -, -, -, -, hCut⟩ := isCutFrom_ofText "\x7b\r\n \t\r  a\tb \r\n"
  exact ⟨hLines, hCut _ _ _ hLines⟩

end SourceLine

end CodeListing.Text
