import CodeListing.Proofs.Items
import CodeListing.Proofs.Line

/-! # Listings of sources one after another

A source that is continued on a new line has the lines of both parts, and those
of the second part stand further right in the text by the length of the first
part and one line feed. Reading a line does not depend on where it stands, so its
warnings move along with it. What the first part hands on to the second is the
open block comment and the level of its lines, and where both are nothing the
listing of the whole is the listings of the parts one after another.
-/

namespace CodeListing

namespace Text

theorem getLast?_ne_of_cons {c d : Char} {rest : List Char} (h : (c :: rest).getLast? ≠ some d) :
    rest.getLast? ≠ some d := by
  cases rest with
  | nil => nofun
  | cons e rest => rwa [List.getLast?_cons_cons] at h

/-- Line breaks are replaced one by one, but a carriage return takes a line feed after it along. -/
theorem normalize_append {first : List Char} (hReturn : first.getLast? ≠ some '\r')
    (second : List Char) :
    normalize (first ++ '\n' :: second) = normalize first ++ '\n' :: normalize second := by
  fun_induction normalize first with
  | case1 rest ih =>
      simp [normalize, ih (getLast?_ne_of_cons (getLast?_ne_of_cons hReturn))]
  | case2 rest hFeed ih =>
      cases rest with
      -- at the end of the first text a carriage return would take the line feed along
      | nil => exact absurd rfl hReturn
      | cons c rest =>
          have hFeed' : ∀ after, c :: rest ++ '\n' :: second ≠ '\n' :: after := by
            intro after hEq
            exact hFeed rest (by rw [(List.cons.inj hEq).1])
          rw [List.cons_append, normalize.eq_2 _ hFeed', ih (getLast?_ne_of_cons hReturn)]
          rfl
  | case3 rest ih => simp [normalize, ih (getLast?_ne_of_cons hReturn)]
  | case4 c rest hBreak hReturn' hTab ih =>
      rw [List.cons_append, normalize.eq_4 _ _ (fun _ hc _ => hReturn' hc) hReturn' hTab,
        ih (getLast?_ne_of_cons hReturn)]
      rfl
  | case5 => rfl

/-- How many characters the lines take, with a line feed after each. -/
def extent : List (List Char) → Nat
  | [] => 0
  | raw :: raws => raw.length + 1 + extent raws

theorem extent_eq {lines : List (List Char)} (h : lines ≠ []) :
    extent lines = (['\n'].intercalate lines).length + 1 := by
  induction lines with
  | nil => exact absurd rfl h
  | cons line lines ih =>
      cases lines with
      | nil => simp [extent]
      | cons next lines =>
          rw [extent, ih (List.cons_ne_nil _ _), List.intercalate_cons_cons]
          simp only [List.length_append, List.length_singleton]
          omega

theorem extent_splitLines (text : List Char) :
    extent (splitLines text) = text.length + 1 := by
  have hNe : splitLines text ≠ [] := List.splitOn_ne_nil _ text
  rw [extent_eq hNe, splitLines, List.intercalate_splitOn]

namespace SourceLine

def shift (distance : Nat) (line : SourceLine) : SourceLine :=
  { line with offset := line.offset + distance }

theorem layOut_append (start : Nat) (first second : List (List Char)) :
    layOut start (first ++ second) =
      layOut start first ++ layOut (start + extent first) second := by
  induction first generalizing start with
  | nil => rfl
  | cons raw raws ih =>
      rw [List.cons_append, layOut, layOut, ih, extent, List.cons_append]
      simp only [Nat.add_assoc]

theorem layOut_add (start distance : Nat) (raws : List (List Char)) :
    layOut (start + distance) raws = (layOut start raws).map (shift distance) := by
  induction raws generalizing start with
  | nil => rfl
  | cons raw raws ih =>
      rw [layOut, layOut, List.map_cons, ← ih]
      simp [ofRaw, shift, Nat.add_right_comm]

theorem ofText_append (first second : List Char) :
    ofText (first ++ '\n' :: second) =
      ofText first ++ (ofText second).map (shift (first.length + 1)) := by
  rw [ofText, splitLines, List.splitOn_append_cons_self, layOut_append, ← splitLines,
    extent_splitLines, layOut_add]
  rfl

end SourceLine

end Text

open Text

namespace LineReading

variable {settings : Settings}

def shift (distance : Nat) (reading : LineReading) : LineReading :=
  { reading with
    warnings := reading.warnings.map (Warning.shift distance)
    openComment := reading.openComment.map (· + distance) }

theorem prepend_shift (distance offset : Nat) (token : Token) (finding : Option Finding)
    (later : LineReading) :
    (later.shift distance).prepend (offset + distance) token finding =
      (later.prepend offset token finding).shift distance := by
  unfold prepend
  split
  · rfl
  · simp [shift, Warning.shift, Span.shift_ofLength]
  · rfl

/-- What is read does not depend on where it stands. -/
theorem ofText_add (offset distance : Nat) (before : Option Char) (text : List Char) :
    ofText settings (offset + distance) before text =
      (ofText settings offset before text).shift distance := by
  induction offset, before, text using ofText.induct settings with
  | case1 => simp [ofText, shift]
  | case2 offset before c rest step ih =>
      rw [ofText_cons, ofText_cons, ← prepend_shift, ← ih, Nat.add_right_comm]

theorem ofLine_shift (distance : Nat) (openComment : Option Nat) (line : SourceLine) :
    ofLine settings (openComment.map (· + distance)) (line.shift distance) =
      (ofLine settings openComment line).shift distance := by
  unfold ofLine
  split
  · rename_i hBlank
    rw [show line.isBlank = true from hBlank]
    rfl
  · rename_i hBlank
    rw [if_neg (show ¬ line.isBlank = true from hBlank)]
    cases openComment with
    | none => exact ofText_add line.offset distance none line.text
    | some start =>
        simp only [Option.map_some, SourceLine.shift]
        split
        · rfl
        · rw [Nat.add_right_comm, ofText_add, prepend_shift]

theorem ofLines_shift (distance : Nat) (openComment : Option Nat) (lines : List SourceLine) :
    ofLines settings (openComment.map (· + distance)) (lines.map (SourceLine.shift distance)) =
      (ofLines settings openComment lines).map (shift distance) := by
  induction lines generalizing openComment with
  | nil => rfl
  | cons line lines ih =>
      rw [List.map_cons, ofLines, ofLines, ofLine_shift, List.map_cons, ← ih]
      rfl

theorem openAfter_append (openComment : Option Nat) (first second : List LineReading) :
    openAfter openComment (first ++ second) = openAfter (openAfter openComment first) second := by
  induction first generalizing openComment with
  | nil => rfl
  | cons reading readings ih => exact ih _

theorem openAfter_shift (distance : Nat) (openComment : Option Nat)
    (readings : List LineReading) :
    openAfter (openComment.map (· + distance)) (readings.map (shift distance)) =
      (openAfter openComment readings).map (· + distance) := by
  induction readings generalizing openComment with
  | nil => rfl
  | cons reading readings ih => exact ih reading.openComment

end LineReading

open LineReading

theorem warningsOf_eq (length : Nat) (readings : List LineReading) :
    warningsOf length readings = readings.flatMap (·.warnings) ++
      match openAfter none readings with
      | none => []
      | some start => [⟨.unterminatedComment, ⟨start, max length start⟩⟩] := by
  have hOpen : readings.getLast?.bind (·.openComment) = openAfter none readings := by
    rw [openAfter_eq]
    cases readings.getLast? <;> rfl
  rw [← hOpen]
  rfl

theorem openAfter_eq_none {length : Nat} {readings : List LineReading}
    (h : ∀ warning ∈ warningsOf length readings, warning.defect ≠ .unterminatedComment) :
    openAfter none readings = none := by
  cases hOpen : openAfter none readings with
  | none => rfl
  | some start =>
      rw [warningsOf_eq, hOpen] at h
      exact absurd rfl (h _ (List.mem_append_right _ (List.mem_singleton_self _)))

theorem warningsOf_append {first : List LineReading} (hOpen : openAfter none first = none)
    (length length' distance : Nat) (second : List LineReading) :
    warningsOf (length' + distance) (first ++ second.map (shift distance)) =
      warningsOf length first ++ (warningsOf length' second).map (Warning.shift distance) := by
  have hShift := openAfter_shift distance none second
  rw [Option.map_none] at hShift
  rw [warningsOf_eq, warningsOf_eq, warningsOf_eq, openAfter_append, hOpen, hShift]
  simp only [List.flatMap_append, List.append_nil, List.append_assoc, List.map_append]
  congr 1
  congr 1
  · simp [List.flatMap_map, List.map_flatMap, shift]
  · cases openAfter none second with
    | none => rfl
    | some start => simp [Warning.shift, Span.shift, Nat.add_max_add_right]

namespace Indentation

def levelAfterLines (level : Nat) : List (Option (Char × Char)) → Nat
  | [] => level
  | none :: lines => levelAfterLines level lines
  | some (first, last) :: lines => levelAfterLines (levelAfter (levelOf level first) last) lines

theorem paddings_append (unit : UInt32) (level : Nat) (first second : List (Option (Char × Char))) :
    paddings unit level (first ++ second) =
      paddings unit level first ++ paddings unit (levelAfterLines level first) second := by
  induction first generalizing level with
  | nil => rfl
  | cons line lines ih =>
      cases line with
      | none => rw [List.cons_append, paddings, ih, paddings, levelAfterLines, List.cons_append]
      | some ends =>
          rw [List.cons_append, paddings, ih, paddings, levelAfterLines, List.cons_append]

end Indentation

namespace Listing

theorem itemsFrom_append (settings : Settings) (level : Nat) (first second : List SourceLine)
    {readings : List LineReading} (hLength : readings.length = first.length)
    (readings' : List LineReading) :
    itemsFrom settings level (first ++ second) (readings ++ readings') =
      itemsFrom settings level first readings ++
        itemsFrom settings (Indentation.levelAfterLines level (first.map SourceLine.ends?))
          second readings' := by
  rw [itemsFrom, List.map_append, Indentation.paddings_append, List.zipWith_append]
  · rfl
  · rw [Indentation.length_paddings, List.length_map, hLength]

theorem itemsFrom_shift (settings : Settings) (level distance : Nat) (lines : List SourceLine)
    (readings : List LineReading) :
    itemsFrom settings level (lines.map (SourceLine.shift distance))
      (readings.map (LineReading.shift distance)) = itemsFrom settings level lines readings := by
  simp only [itemsFrom, List.map_map, List.zipWith_map_right]
  rfl

/-- A source that is continued on a new line. Where no comment is left open in between, its
lines are counted together and its warnings follow each other, and where no level is left either,
its items do. -/
theorem ofSource_append (settings : Settings) (first second : String)
    (hReturn : first.toList.getLast? ≠ some '\r')
    (hClosed : ∀ warning ∈ (ofSource settings first).warnings,
      warning.defect ≠ .unterminatedComment) :
    (ofSource settings (first ++ "\n" ++ second)).lineCount =
      (ofSource settings first).lineCount + (ofSource settings second).lineCount ∧
    (ofSource settings (first ++ "\n" ++ second)).warnings =
      (ofSource settings first).warnings ++
        (ofSource settings second).warnings.map
          (Warning.shift ((normalize first.toList).length + 1)) ∧
    (Indentation.levelAfterLines 0
        ((SourceLine.ofText (normalize first.toList)).map SourceLine.ends?) = 0 →
      (ofSource settings (first ++ "\n" ++ second)).html =
        (ofSource settings first).html ++ (ofSource settings second).html) := by
  have hOpen := openAfter_eq_none hClosed
  have hText : normalize (first ++ "\n" ++ second).toList =
      normalize first.toList ++ '\n' :: normalize second.toList := by
    rw [String.toList_append, String.toList_append, List.append_assoc]
    exact normalize_append hReturn second.toList
  -- the second source is read as it is on its own, but this much further right
  generalize hDistance : (normalize first.toList).length + 1 = distance
  have hLines : SourceLine.ofText (normalize (first ++ "\n" ++ second).toList) =
      SourceLine.ofText (normalize first.toList) ++
        (SourceLine.ofText (normalize second.toList)).map (SourceLine.shift distance) := by
    rw [hText, SourceLine.ofText_append, hDistance]
  have hReadings : LineReading.ofLines settings none
      (SourceLine.ofText (normalize (first ++ "\n" ++ second).toList)) =
      LineReading.ofLines settings none (SourceLine.ofText (normalize first.toList)) ++
        (LineReading.ofLines settings none
          (SourceLine.ofText (normalize second.toList))).map (LineReading.shift distance) := by
    rw [hLines, ofLines_append, hOpen, ← ofLines_shift]
    rfl
  have hLength : (normalize (first ++ "\n" ++ second).toList).length =
      (normalize second.toList).length + distance := by
    rw [hText, List.length_append, List.length_cons]
    omega
  refine ⟨?_, ?_, ?_⟩
  · change (SourceLine.ofText _).length = _
    rw [hLines, List.length_append, List.length_map]
    rfl
  · change warningsOf _ _ = _
    rw [hLength, hReadings]
    exact warningsOf_append hOpen ..
  · intro hLevel
    change String.ofList (itemsFrom settings 0 _ _).flatten = _
    rw [hReadings, hLines, itemsFrom_append _ _ _ _ (LineReading.length_ofLines ..), hLevel,
      itemsFrom_shift, List.flatten_append, String.ofList_append]
    rfl

/-- A string that never ends stays where it was, and a comment that never ends moves along. -/
theorem ofSource_append_comment :
    "\x7b\r\n'a\n\x7d".toList.getLast? ≠ some '\r' ∧
    (∀ warning ∈ (ofSource {} "\x7b\r\n'a\n\x7d").warnings,
      warning.defect ≠ .unterminatedComment) ∧
    Indentation.levelAfterLines 0 ((SourceLine.ofText (normalize "\x7b\r\n'a\n\x7d".toList)).map
      SourceLine.ends?) = 0 ∧
    (ofSource {} ("\x7b\r\n'a\n\x7d" ++ "\n" ++ "\tb /* c")).lineCount = 4 ∧
    (ofSource {} ("\x7b\r\n'a\n\x7d" ++ "\n" ++ "\tb /* c")).warnings =
      [⟨.unterminatedString, ⟨2, 4⟩⟩, ⟨.unterminatedComment, ⟨10, 14⟩⟩] ∧
    (ofSource {} ("\x7b\r\n'a\n\x7d" ++ "\n" ++ "\tb /* c")).html =
      (ofSource {} "\x7b\r\n'a\n\x7d").html ++ (ofSource {} "\tb /* c").html := by
  have hClosed : ∀ warning ∈ (ofSource {} "\x7b\r\n'a\n\x7d").warnings,
      warning.defect ≠ .unterminatedComment := by decide +kernel
  have hLevel : Indentation.levelAfterLines 0
      ((SourceLine.ofText (normalize "\x7b\r\n'a\n\x7d".toList)).map SourceLine.ends?) = 0 := by
    decide
  obtain ⟨hCount, hWarnings, hHtml⟩ :=
    ofSource_append {} "\x7b\r\n'a\n\x7d" "\tb /* c" (by decide) hClosed
  refine ⟨by decide, hClosed, hLevel, ?_, ?_, hHtml hLevel⟩
  · rw [hCount]
    decide +kernel
  · rw [hWarnings]
    decide +kernel

end Listing

end CodeListing
