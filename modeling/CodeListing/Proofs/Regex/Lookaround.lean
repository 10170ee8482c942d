import CodeListing.Pattern.WellFormed
import CodeListing.Proofs.Regex.Neutral

/-! # Lookaround groups

The pass to the neutral form opens a plain group where a lookaround group opens. What it
writes on the way there is the same for both: in front of each construct the pass looks
ahead, but either the construct takes the parenthesis along, or the pass looks no further
than to it. So, if the parenthesis begins a construct outside of classes at all, the
two patterns have one neutral form, whatever stands around the parenthesis.
-/

namespace CodeListing

namespace Pattern

/-! ## One construct in front of a parenthesis -/

theorem takeWhile_parenthesis {p : Char → Bool} (h : p '(' = false) (text rest : List Char) :
    (text ++ '(' :: rest).takeWhile p = text.takeWhile p := by
  induction text with
  | nil => simp [h]
  | cons c text ih =>
      rw [List.cons_append, List.takeWhile_cons, List.takeWhile_cons, ih]

theorem dropWhile_parenthesis {p : Char → Bool} (h : p '(' = false) (text rest : List Char) :
    (text ++ '(' :: rest).dropWhile p = text.dropWhile p ++ '(' :: rest := by
  induction text with
  | nil => simp [h]
  | cons c text ih =>
      rw [List.cons_append, List.dropWhile_cons, List.dropWhile_cons, ih]
      split <;> rfl

theorem head?_parenthesis {c : Char} (h : '(' ≠ c) (text rest : List Char) :
    (text ++ '(' :: rest).head? = some c ↔ text.head? = some c := by
  cases text with
  | nil => simp [h]
  | cons d text => rfl

theorem startsWithSet_parenthesis (text rest : List Char) :
    startsWithSet (text ++ '(' :: rest) = startsWithSet text := by
  cases text with
  | nil => rfl
  | cons c text =>
      by_cases hBackslash : c = '\\'
      · subst hBackslash
        cases text <;> rfl
      · simp [startsWithSet, hBackslash]

theorem splitQuantifier?_parenthesis (text rest : List Char) :
    splitQuantifier? (text ++ '(' :: rest) =
      (splitQuantifier? text).map fun (written, left) => (written, left ++ '(' :: rest) := by
  have hTake (text : List Char) := takeWhile_parenthesis (p := Char.isDigit) rfl text rest
  have hDrop (text : List Char) := dropWhile_parenthesis (p := Char.isDigit) rfl text rest
  simp only [splitQuantifier?, hTake, hDrop]
  split
  · rfl
  · cases text.dropWhile Char.isDigit with
    | nil => rfl
    | cons c more =>
        by_cases hBrace : c = '}'
        · subst hBrace
          rfl
        by_cases hComma : c = ','
        · subst hComma
          simp only [List.cons_append, hTake, hDrop]
          cases more.dropWhile Char.isDigit with
          | nil => rfl
          | cons d after =>
              by_cases hClose : d = '}'
              · subst hClose
                rfl
              · simp [hClose]
        · simp [hBrace, hComma]

theorem splitLookaround?_parenthesis (text rest : List Char) :
    splitLookaround? (text ++ '(' :: rest) = (splitLookaround? text).map (· ++ '(' :: rest) := by
  rcases text with _ | ⟨c, _ | ⟨d, text⟩⟩
  · rfl
  · by_cases hc : c = '?'
    · subst hc
      rfl
    · simp [splitLookaround?, hc]
  · by_cases hc : c = '?'
    · subst hc
      by_cases hd : d = '<'
      · subst hd
        cases text with
        | nil => rfl
        | cons e text =>
            by_cases he : e = '=' ∨ e = '!'
            · rcases he with rfl | rfl <;> rfl
            · simp [splitLookaround?, not_or.1 he]
      · by_cases hEnd : d = '=' ∨ d = '!'
        · rcases hEnd with rfl | rfl <;> rfl
        · simp [splitLookaround?, hd, not_or.1 hEnd]
    · simp [splitLookaround?, hc]

theorem dropName_parenthesis (text : List Char) :
    (∃ left, ∀ rest, ((text ++ '(' :: rest).dropWhile (· ≠ '>')).drop 1 = left ++ '(' :: rest) ∨
      ∀ rest, (((text ++ '(' :: rest).dropWhile (· ≠ '>')).drop 1).length ≤ rest.length := by
  induction text with
  | nil =>
      refine .inr fun rest => ?_
      have hDrop := (List.dropWhile_suffix (l := '(' :: rest) (· ≠ '>')).length_le
      rw [List.length_cons] at hDrop
      rw [List.length_drop, List.nil_append]
      omega
  | cons c text ih =>
      by_cases hEnd : c = '>'
      · exact .inl ⟨text, fun rest => by simp [hEnd]⟩
      · simpa [hEnd] using ih

/-- What is read in front of a parenthesis either ends there, and then what follows the
parenthesis has no part in it, or the parenthesis is taken along. -/
def StopsOrTakes (read : List Char → List Char × List Char) (text : List Char) : Prop :=
  (∃ written left, ∀ rest, read (text ++ '(' :: rest) = (written, left ++ '(' :: rest)) ∨
    ∀ rest, (read (text ++ '(' :: rest)).2.length ≤ rest.length

namespace StopsOrTakes

variable {text : List Char} {first second : List Char → List Char × List Char}

theorem same (written : List Char) : StopsOrTakes (fun rest => (written, rest)) text :=
  .inl ⟨written, text, fun _ => rfl⟩

theorem choose {condition : List Char → Prop} [DecidablePred condition] (b : Prop)
    (hCondition : ∀ rest, condition (text ++ '(' :: rest) ↔ b)
    (hFirst : b → StopsOrTakes first text) (hSecond : ¬ b → StopsOrTakes second text) :
    StopsOrTakes (fun rest => if condition rest then first rest else second rest) text := by
  by_cases hb : b
  · simpa only [StopsOrTakes, if_pos ((hCondition _).2 hb)] using hFirst hb
  · simpa only [StopsOrTakes, if_neg fun h => hb ((hCondition _).1 h)] using hSecond hb

end StopsOrTakes

theorem stopsOrTakes_neutralEscape (inClass : Bool) (c : Char) (text : List Char) :
    StopsOrTakes (neutralEscape inClass c) text := by
  have hHead (rest : List Char) : (text ++ '(' :: rest).head? = some '<' ↔ text.head? = some '<' :=
    head?_parenthesis (by decide) text rest
  have hHex (rest : List Char) : (text ++ '(' :: rest).takeWhile Text.isHexDigit =
      text.takeWhile Text.isHexDigit := takeWhile_parenthesis rfl text rest
  have hCount (count : Nat) (h : count ≤ (text.takeWhile Text.isHexDigit).length)
      (written : List Char → List Char) :
      StopsOrTakes (fun rest => (written (rest.take count), rest.drop count)) text := by
    have hLength := Nat.le_trans h (List.takeWhile_prefix _).length_le
    refine .inl ⟨written (text.take count), text.drop count, fun rest => ?_⟩
    dsimp only
    rw [List.take_append_of_le_length hLength, List.drop_append_of_le_length hLength]
  unfold neutralEscape
  refine .choose _ (fun _ => Iff.rfl) (fun _ => ?digits) fun _ => ?_
  case digits =>
    refine .choose _ (fun _ => Iff.rfl) (fun _ => .same _) fun _ => ?_
    exact .inl ⟨_, text.dropWhile Char.isDigit, fun rest =>
      congrArg _ (dropWhile_parenthesis rfl text rest)⟩
  refine .choose (c = 'k' && !inClass && text.head? = some '<') (fun rest => by simp only [hHead])
    (fun _ => ?name) fun _ => ?_
  case name =>
    exact (dropName_parenthesis text).imp_left fun ⟨left, hLeft⟩ =>
      ⟨_, left, fun rest => congrArg _ (hLeft rest)⟩
  refine .choose _ (fun _ => Iff.rfl) (fun _ => ?control) fun _ => ?_
  case control =>
    cases text with
    | nil => exact .inl ⟨_, [c], fun rest => rfl⟩
    | cons letter after =>
        by_cases hLetter : letter.isAlpha = true
        · exact .inl ⟨_, after, fun rest => if_pos hLetter⟩
        · exact .inl ⟨_, c :: letter :: after, fun rest => if_neg hLetter⟩
  refine .choose _ (fun _ => Iff.rfl) (fun _ => .same _) fun _ => ?_
  refine .choose (c = 'x' && 2 ≤ (text.takeWhile Text.isHexDigit).length)
    (fun rest => by simp only [hHex]) (fun hByte => ?_) fun _ => ?_
  · exact hCount 2 (of_decide_eq_true (Bool.and_eq_true _ _ ▸ hByte).2) fun digits =>
      '\\' :: 'x' :: digits
  refine .choose (c = 'u' && 4 ≤ (text.takeWhile Text.isHexDigit).length)
    (fun rest => by simp only [hHex]) (fun hUnit => ?_) fun _ => ?_
  · exact hCount 4 (of_decide_eq_true (Bool.and_eq_true _ _ ▸ hUnit).2) fun digits =>
      '\\' :: 'u' :: digits
  refine .choose _ (fun _ => Iff.rfl) (fun _ => .same _) fun _ => ?_
  refine .choose _ (fun _ => Iff.rfl) (fun _ => .same _) fun _ => ?_
  exact .choose _ (fun _ => Iff.rfl) (fun _ => .same _) fun _ => .same _

namespace Piece

theorem inside_parenthesis (afterSet : Bool) (c : Char) (text rest : List Char) :
    inside afterSet c (text ++ '(' :: rest) =
      { inside afterSet c text with rest := text ++ '(' :: rest } := by
  unfold inside
  rw [startsWithSet_parenthesis]
  repeat' split
  all_goals rfl

theorem bracket_parenthesis (text : List Char) : ∃ written inClass left, ∀ rest,
    bracket (text ++ '(' :: rest) = ⟨written, inClass, false, left ++ '(' :: rest⟩ := by
  rcases text with _ | ⟨c, text⟩
  · exact ⟨_, _, [], fun _ => rfl⟩
  by_cases hEnd : c = ']'
  · subst hEnd
    exact ⟨_, _, text, fun _ => rfl⟩
  by_cases hCaret : c = '^'
  · subst hCaret
    rcases text with _ | ⟨d, text⟩
    · exact ⟨_, _, ['^'], fun _ => rfl⟩
    by_cases hEmpty : d = ']'
    · subst hEmpty
      exact ⟨_, _, text, fun _ => rfl⟩
    · exact ⟨_, _, '^' :: d :: text, fun _ => Regex.Class.read_bracket nofun
        fun _ h => hEmpty (List.cons.inj (List.cons.inj h).2).1⟩
  · exact ⟨_, _, c :: text, fun _ => Regex.Class.read_bracket
      (fun _ h => hEnd (List.cons.inj h).1) fun _ h => hCaret (List.cons.inj h).1⟩

theorem brace_parenthesis (text : List Char) : ∃ written left, ∀ rest,
    brace (text ++ '(' :: rest) = ⟨written, false, false, left ++ '(' :: rest⟩ := by
  simp only [brace, splitQuantifier?_parenthesis]
  cases splitQuantifier? text with
  | none => exact ⟨_, text, fun _ => rfl⟩
  | some split => exact ⟨_, split.2, fun _ => rfl⟩

theorem parenthesis_parenthesis (text : List Char) : ∃ written left, ∀ rest,
    parenthesis (text ++ '(' :: rest) = ⟨written, false, false, left ++ '(' :: rest⟩ := by
  simp only [parenthesis, splitLookaround?_parenthesis]
  cases splitLookaround? text with
  | none => exact ⟨_, text, fun _ => rfl⟩
  | some left => exact ⟨_, left, fun _ => rfl⟩

theorem outside_parenthesis (c : Char) (text : List Char) : ∃ written inClass left, ∀ rest,
    outside c (text ++ '(' :: rest) = ⟨written, inClass, false, left ++ '(' :: rest⟩ := by
  unfold outside
  by_cases hBracket : c = '['
  · simpa only [if_pos hBracket] using bracket_parenthesis text
  by_cases hBrace : c = '{'
  · obtain ⟨written, left, hLeft⟩ := brace_parenthesis text
    exact ⟨written, false, left, fun rest => by rw [if_neg hBracket, if_pos hBrace, hLeft]⟩
  by_cases hOpen : c = '('
  · obtain ⟨written, left, hLeft⟩ := parenthesis_parenthesis text
    exact ⟨written, false, left, fun rest => by
      rw [if_neg hBracket, if_neg hBrace, if_pos hOpen, hLeft]⟩
  simp only [if_neg hBracket, if_neg hBrace, if_neg hOpen]
  split
  · exact ⟨_, _, text, fun _ => rfl⟩
  · exact ⟨_, _, text, fun _ => rfl⟩

/-- One construct in front of a parenthesis either ends there, whatever follows it, or takes the
parenthesis along. -/
theorem read_parenthesis (inClass afterSet : Bool) (c : Char) (text : List Char) :
    (∃ written inClass' afterSet' left, ∀ rest, read inClass afterSet c (text ++ '(' :: rest) =
      ⟨written, inClass', afterSet', left ++ '(' :: rest⟩) ∨
    ∀ rest, (read inClass afterSet c (text ++ '(' :: rest)).rest.length ≤ rest.length := by
  unfold read
  by_cases hBackslash : c = '\\'
  · simp only [if_pos hBackslash]
    cases text with
    | nil => exact .inr fun rest => Nat.le_refl rest.length
    | cons d text =>
        refine (stopsOrTakes_neutralEscape inClass d text).imp_left ?_
        rintro ⟨written, left, hLeft⟩
        refine ⟨written, inClass, inClass && isSetLetter d, left, fun rest => ?_⟩
        simp [escape, hLeft]
  · simp only [if_neg hBackslash]
    cases inClass with
    | true => exact .inl ⟨_, _, _, text, fun rest => inside_parenthesis afterSet c text rest⟩
    | false =>
        obtain ⟨written, inClass', left, hLeft⟩ := outside_parenthesis c text
        exact .inl ⟨written, inClass', false, left, hLeft⟩

end Piece

/-! ## The pass up to a parenthesis -/

/-- A place that the pass comes to, with what it remembers there and the rest of the pattern. -/
structure Place where
  inClass : Bool
  afterSet : Bool
  text : List Char
  deriving DecidableEq

def Piece.place (piece : Piece) : Place :=
  ⟨piece.inClass, piece.afterSet, piece.rest⟩

namespace Place

def after : Nat → Place → Place
  | 0, place => place
  | _ + 1, ⟨inClass, afterSet, []⟩ => ⟨inClass, afterSet, []⟩
  | count + 1, ⟨inClass, afterSet, c :: text⟩ =>
    (Piece.read inClass afterSet c text).place.after count

theorem length_after (count : Nat) (place : Place) :
    (place.after count).text.length ≤ place.text.length := by
  fun_induction after count place with
  | case1 => exact Nat.le_refl _
  | case2 => exact Nat.le_refl _
  | case3 count inClass afterSet c text ih =>
      exact Nat.le_succ_of_le (Nat.le_trans ih (Piece.length_read ..))

/-- What the pass has written when it comes to a parenthesis does not depend on what follows. -/
theorem exists_written {count : Nat} {inClass afterSet inClass' afterSet' : Bool}
    {text rest : List Char}
    (h : after count ⟨inClass, afterSet, text ++ '(' :: rest⟩ =
      ⟨inClass', afterSet', '(' :: rest⟩) :
    ∃ written, ∀ other, neutralFrom inClass afterSet (text ++ '(' :: other) =
      written ++ neutralFrom inClass' afterSet' ('(' :: other) := by
  induction count generalizing inClass afterSet text with
  | zero =>
      obtain ⟨rfl, rfl, hText⟩ := Place.mk.inj h
      obtain rfl := List.append_left_eq_self.1 hText
      exact ⟨[], fun _ => rfl⟩
  | succ count ih =>
      -- at the end the parenthesis is still in front of the pass
      have hAhead {piece : Piece} (hAfter : piece.place.after count =
          ⟨inClass', afterSet', '(' :: rest⟩) : rest.length < piece.rest.length := by
        have hLength := length_after count piece.place
        rw [hAfter] at hLength
        exact hLength
      cases text with
      | nil => exact absurd (hAhead h) (Nat.not_lt.2 (Piece.length_read ..))
      | cons c text =>
          rcases Piece.read_parenthesis inClass afterSet c text with
            ⟨written, inClass₁, afterSet₁, left, hRead⟩ | hTakes
          · have hLater := h
            rw [List.cons_append, after, hRead] at hLater
            obtain ⟨later, hWritten⟩ := ih hLater
            refine ⟨written ++ later, fun other => ?_⟩
            rw [List.cons_append, neutralFrom_of_read (hRead other), hWritten, List.append_assoc]
          · exact absurd (hAhead h) (Nat.not_lt.2 (hTakes rest))

end Place

end Pattern

namespace Regex

open Pattern

/-- Where the pass comes to the opening of a lookaround group outside of classes, a pattern and
the one with a plain group in its place are both accepted or both refused, whatever stands
before and behind the opening. -/
theorem isPattern_lookaround {opener : Opener} (hOpener : opener ≠ .capture) {p q : List Char}
    {count : Nat} {afterSet : Bool}
    (h : Place.after count ⟨false, false, p ++ (opener.write ++ q)⟩ =
      ⟨false, afterSet, opener.write ++ q⟩) :
    isPattern (p ++ (opener.write ++ q)) = isPattern (p ++ (Opener.plain.write ++ q)) := by
  obtain ⟨more, hMore⟩ : ∃ more, opener.write = '(' :: more := by
    cases opener <;> exact ⟨_, rfl⟩
  have hOpens (other : Opener) (hOther : other ≠ .capture) :=
    other.neutralFrom_of_ne_capture hOther afterSet q
  have hNeutral : Pattern.neutral (p ++ (opener.write ++ q)) =
      Pattern.neutral (p ++ (Opener.plain.write ++ q)) := by
    have hLook := hOpens opener hOpener
    rw [hMore, List.cons_append] at h hLook ⊢
    obtain ⟨written, hWritten⟩ := Place.exists_written h
    calc
      _ = written ++ ("(?:".toList ++ neutralFrom false false q) :=
        (hWritten _).trans (congrArg _ hLook)
      _ = _ := ((hWritten _).trans (congrArg _ (hOpens .plain nofun))).symm
  have hNonempty (other : Opener) : (p ++ (other.write ++ q)).isEmpty = false := by
    cases other <;> simp [Opener.write]
  rw [isPattern, isPattern, hNonempty, hNonempty, hNeutral]

/-- Inside a named group, behind a class, a reference with a count and an escape. -/
theorem isPattern_lookaround_behind :
    Place.after 13 ⟨false, false, "(?<x>[(?=]\\k<x>{2}\\((?<!y)*)".toList⟩ =
      ⟨false, false, "(?<!y)*)".toList⟩ ∧
    isPattern "(?<x>[(?=]\\k<x>{2}\\((?<!y)*)".toList =
      isPattern "(?<x>[(?=]\\k<x>{2}\\((?:y)*)".toList := by
  have hPlace : Place.after 13 ⟨false, false, "(?<x>[(?=]\\k<x>{2}\\(".toList ++
      (Opener.notBehind.write ++ "y)*)".toList)⟩ =
      ⟨false, false, Opener.notBehind.write ++ "y)*)".toList⟩ := by decide +kernel
  have hOpener : Opener.notBehind ≠ .capture := nofun
  exact ⟨hPlace, isPattern_lookaround hOpener hPlace⟩

end Regex

end CodeListing
