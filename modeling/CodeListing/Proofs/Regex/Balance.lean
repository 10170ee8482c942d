import CodeListing.Proofs.Regex.WellFormed
import CodeListing.Proofs.Step

/-! # Accepted patterns are balanced

A text is accepted if its neutral form can be read, and neither the pass that makes
this form nor the reader counts parentheses: the pass knows only whether it is in a
class, and the reader keeps a scope for each open group. For a text without named
groups and lookaround the two together come to what a count of parentheses says that
knows only of backslashes and classes.
-/

namespace CodeListing

namespace Pattern

/-- The parentheses of a pattern that no backslash and no class takes their meaning, if every
class ends and something follows every backslash. A class ends at the first closing bracket
without a backslash, so that `[]` and `[^]` are complete. -/
def parentheses (inClass : Bool) : List Char → Option (List Char)
  | [] => if inClass then none else some []
  | c :: rest =>
    if c = '\\' then
      match rest with
      | [] => none
      | _ :: after => parentheses inClass after
    else if inClass then parentheses (c ≠ ']') rest
    else if c = '[' then parentheses true rest
    else if c = '(' || c = ')' then (parentheses false rest).map (c :: ·)
    else parentheses false rest

/-- Every class of the pattern ends, something follows every backslash, and the parentheses
come in pairs. -/
def IsBalanced (pattern : List Char) : Prop :=
  ∃ marks, parentheses false pattern = some marks ∧
    (∀ before, before <+: marks → before.count ')' ≤ before.count '(') ∧
    marks.count ')' = marks.count '('

def isStructural (c : Char) : Bool :=
  "\\[]()".toList.contains c

theorem isStructural_eq_false {p : Char → Bool} {c : Char} (h : p c = true)
    (hNone : "\\[]()".toList.any p = false) : isStructural c = false := by
  rw [isStructural, List.contains_eq_mem, decide_eq_false_iff_not]
  intro hMem
  rw [List.any_eq_true.2 ⟨c, hMem, h⟩] at hNone
  cases hNone

theorem parentheses_cons {c : Char} (h : c ≠ '\\') (inClass : Bool) (rest : List Char) :
    parentheses inClass (c :: rest) =
      if inClass then parentheses (c ≠ ']') rest
      else if c = '[' then parentheses true rest
      else if c = '(' || c = ')' then (parentheses false rest).map (c :: ·)
      else parentheses false rest := by
  rw [parentheses.eq_def]
  exact if_neg h

theorem parentheses_escape (inClass : Bool) (c : Char) (rest : List Char) :
    parentheses inClass ('\\' :: c :: rest) = parentheses inClass rest := by
  simp [parentheses]

theorem parentheses_inside {c : Char} (hBackslash : c ≠ '\\') (hEnd : c ≠ ']')
    (rest : List Char) : parentheses true (c :: rest) = parentheses true rest := by
  simp [parentheses_cons hBackslash, hEnd]

theorem parentheses_skip {c : Char} (h : isStructural c = false) (inClass : Bool)
    (rest : List Char) : parentheses inClass (c :: rest) = parentheses inClass rest := by
  have hOther {d : Char} (hd : isStructural d = true) : c ≠ d := ne_of_test h hd
  rw [parentheses_cons (hOther rfl)]
  cases inClass with
  | false => simp [hOther (d := '[') rfl, hOther (d := '(') rfl, hOther (d := ')') rfl]
  | true => simp [hOther (d := ']') rfl]

theorem parentheses_append {chars : List Char} (h : ∀ c ∈ chars, isStructural c = false)
    (inClass : Bool) (rest : List Char) :
    parentheses inClass (chars ++ rest) = parentheses inClass rest := by
  induction chars with
  | nil => rfl
  | cons c chars ih =>
      obtain ⟨hc, hChars⟩ := List.forall_mem_cons.1 h
      rw [List.cons_append, parentheses_skip hc, ih hChars]

theorem parentheses_run {p : Char → Bool} (hNone : "\\[]()".toList.any p = false)
    {run : List Char} (hRun : ∀ c ∈ run, p c = true) (inClass : Bool) (rest : List Char) :
    parentheses inClass (run ++ rest) = parentheses inClass rest :=
  parentheses_append (fun c hc => isStructural_eq_false (hRun c hc) hNone) inClass rest

/-! ## Escapes -/

/-- The reader takes the text as one atom and leaves what follows it, if it can read it at all. -/
def IsAtom (text : List Char) : Prop :=
  ∃ d more, text = d :: more ∧ (d = '\\' ∨ isMeta d = false) ∧
    ∀ after atom left, readAtom false d (more ++ after) = some (atom, left) → left = after

theorem left_readHexDigits {count value result : Nat} {text left : List Char}
    (h : readHexDigits false count value text = some (result, left)) :
    left = text.drop count := by
  induction count generalizing value text with
  | zero =>
      cases h
      rfl
  | succ count ih =>
      cases text with
      | nil => cases h
      | cons c text =>
          simp only [readHexDigits, skip_false] at h
          split at h
          · cases h
          · exact ih h

theorem left_readCodePoint {count : Nat} {text left : List Char} {atom : Atom}
    (h : readCodePoint false count text = some (atom, left)) : left = text.drop count := by
  unfold readCodePoint at h
  split at h
  · cases h
  · rename_i hDigits
    split at h
    · cases h
      exact left_readHexDigits hDigits
    · cases h

theorem isAtom_byte {digits : List Char} (h : digits.length = 2) :
    IsAtom ('\\' :: 'x' :: digits) := by
  refine ⟨'\\', _, rfl, .inl rfl, fun after atom left hRead => ?_⟩
  have hLeft : left = (digits ++ after).drop 2 := left_readCodePoint hRead
  rw [hLeft, ← h, List.drop_left]

theorem isAtom_unit {digits : List Char} (h : digits.length = 4) :
    IsAtom ('\\' :: 'u' :: digits) := by
  refine ⟨'\\', _, rfl, .inl rfl, fun after atom left hRead => ?_⟩
  have hLeft : left = (digits ++ after).drop 4 := left_readCodePoint hRead
  rw [hLeft, ← h, List.drop_left]

theorem isAtom_escaped {c : Char} (hByte : c ≠ 'x') (hUnit : c ≠ 'u') : IsAtom ['\\', c] := by
  refine ⟨'\\', [c], rfl, .inl rfl, fun after atom left hRead => ?_⟩
  change readEscape false (c :: after) = _ at hRead
  rw [readEscape, if_neg hByte, if_neg hUnit] at hRead
  split at hRead
  · cases hRead
    rfl
  · split at hRead
    · cases hRead
      rfl
    · split at hRead
      · cases hRead
        rfl
      · obtain ⟨_, _, hEq⟩ := Option.map_eq_some_iff.1 hRead
        cases hEq
        rfl

theorem isAtom_plain {c : Char} (h : isMeta c = false) : IsAtom [c] := by
  refine ⟨c, [], rfl, .inr h, fun after atom left hRead => ?_⟩
  rw [readAtom, if_neg (ne_of_test h rfl)] at hRead
  cases hRead
  rfl

theorem parentheses_hexDigits {count : Nat} {rest : List Char}
    (hDigits : count ≤ (rest.takeWhile Text.isHexDigit).length) (inClass : Bool) :
    (rest.take count).length = count ∧
      parentheses inClass rest = parentheses inClass (rest.drop count) := by
  have hRun := (List.takeWhile_prefix (l := rest) Text.isHexDigit).length_le
  obtain ⟨hHex, -, -⟩ := cappedRun Text.isHexDigit count rest (Nat.min_eq_left hDigits).symm
  constructor
  · rw [List.length_take]
    omega
  · conv_lhs => rw [← List.take_append_drop count rest]
    exact parentheses_run (by decide) hHex ..

/-- The pass makes one atom of an escape, or an empty group of a back reference. The part of the
pattern that it takes is the escape and characters that mean nothing here. -/
theorem isAtom_neutralEscape {inClass : Bool} {c : Char} {rest text left : List Char}
    (hName : c ≠ 'k') (h : neutralEscape inClass c rest = (text, left)) :
    (inClass = false ∧ text = "(?:)".toList ∨ IsAtom text) ∧ left <:+ c :: rest ∧
      parentheses inClass rest = parentheses inClass left := by
  have hRest : rest <:+ c :: rest := List.suffix_cons c rest
  have hBehind (count : Nat) : rest.drop count <:+ c :: rest :=
    (List.drop_suffix count rest).trans hRest
  have hReplaces := replaces_neutralEscape inClass c rest
  rw [h] at hReplaces
  cases hReplaces with
  | null => exact ⟨.inr (isAtom_byte rfl), hRest, rfl⟩
  | reference digit outside =>
      refine ⟨.inl ⟨outside, rfl⟩, (List.dropWhile_suffix _).trans hRest, ?_⟩
      conv_lhs => rw [← List.takeWhile_append_dropWhile (p := Char.isDigit) (l := rest)]
      exact parentheses_run (by decide) (List.all_eq_true.1 List.all_takeWhile) ..
  | name hc => exact absurd hc hName
  | control hc isLetter hAfter =>
      subst hAfter
      refine ⟨.inr (isAtom_byte rfl), (List.suffix_cons ..).trans hRest, ?_⟩
      exact parentheses_skip (isStructural_eq_false isLetter (by decide)) ..
  | alone hc =>
      refine ⟨.inr (isAtom_escaped (by decide) (by decide)), List.suffix_rfl, ?_⟩
      rw [hc, parentheses_skip rfl]
  | backspace => exact ⟨.inr (isAtom_byte rfl), hRest, rfl⟩
  | byte hc digits =>
      obtain ⟨hLength, hSame⟩ := parentheses_hexDigits digits inClass
      exact ⟨.inr (isAtom_byte hLength), hBehind 2, hSame⟩
  | unit hc digits =>
      obtain ⟨hLength, hSame⟩ := parentheses_hexDigits digits inClass
      exact ⟨.inr (isAtom_unit hLength), hBehind 4, hSame⟩
  | set isSet =>
      have hOther {d : Char} (hd : isSetLetter d = false) : c ≠ d := (ne_of_test hd isSet).symm
      exact ⟨.inr (isAtom_escaped (hOther rfl) (hOther rfl)), hRest, rfl⟩
  | letter isControl =>
      have hOther {d : Char} (hd : (control? d).isSome = false) : c ≠ d :=
        (ne_of_test (p := fun d => (control? d).isSome) hd isControl).symm
      exact ⟨.inr (isAtom_escaped (hOther rfl) (hOther rfl)), hRest, rfl⟩
  | boundary hc =>
      refine ⟨.inr ?_, hRest, rfl⟩
      rcases hc with rfl | rfl <;> exact isAtom_escaped (by decide) (by decide)
  | symbol isMeta =>
      have hOther {d : Char} (hd : Pattern.isMeta d = false) : c ≠ d := (ne_of_test hd isMeta).symm
      exact ⟨.inr (isAtom_escaped (hOther (by decide)) (hOther (by decide))), hRest, rfl⟩
  | plain notMeta => exact ⟨.inr (isAtom_plain notMeta), hRest, rfl⟩

/-- The text is the neutral form of an end of the pattern, and before that end no parenthesis counts
and no class begins or ends. -/
def Remains (inClass : Bool) (pattern text : List Char) : Prop :=
  ∃ afterSet left, text = neutralFrom inClass afterSet left ∧ left <:+ pattern ∧
    parentheses inClass pattern = parentheses inClass left

/-- The text begins with an atom, and what is left behind it remains of the pattern. -/
def AtomRemains (inClass : Bool) (pattern text : List Char) : Prop :=
  ∃ d more, text = d :: more ∧ (d = '\\' ∨ isMeta d = false) ∧
    ∀ atom left, readAtom false d more = some (atom, left) → Remains inClass pattern left

theorem Remains.trans {inClass : Bool} {pattern left text : List Char}
    (h : Remains inClass left text) (hLeft : left <:+ pattern)
    (hSame : parentheses inClass pattern = parentheses inClass left) :
    Remains inClass pattern text := by
  obtain ⟨afterSet, later, hText, hLater, hMarks⟩ := h
  exact ⟨afterSet, later, hText, hLater.trans hLeft, hSame.trans hMarks⟩

theorem AtomRemains.of_isAtom {inClass : Bool} {pattern text after : List Char}
    (hAtom : IsAtom text) (hAfter : Remains inClass pattern after) :
    AtomRemains inClass pattern (text ++ after) := by
  obtain ⟨d, more, rfl, hFirst, hRead⟩ := hAtom
  refine ⟨d, more ++ after, rfl, hFirst, fun atom left h => ?_⟩
  rwa [hRead after atom left h]

theorem neutralFrom_escape (inClass afterSet : Bool) {rest : List Char}
    (hName : rest.head? ≠ some 'k') :
    (inClass = false ∧ ∃ after, neutralFrom inClass afterSet ('\\' :: rest) =
        "(?:)".toList ++ after ∧ Remains inClass ('\\' :: rest) after) ∨
      AtomRemains inClass ('\\' :: rest) (neutralFrom inClass afterSet ('\\' :: rest)) := by
  cases rest with
  | nil =>
      have hRead : Piece.read inClass afterSet '\\' [] = ⟨['\\'], inClass, false, []⟩ := rfl
      have hText : neutralFrom inClass afterSet ['\\'] = ['\\'] := by
        rw [neutralFrom_of_read hRead, neutralFrom_nil, List.append_nil]
      exact .inr ⟨'\\', [], hText, .inl rfl, nofun⟩
  | cons c rest =>
      obtain ⟨text, left, hEscape⟩ : ∃ text left, neutralEscape inClass c rest = (text, left) :=
        ⟨_, _, rfl⟩
      have hRead : Piece.read inClass afterSet '\\' (c :: rest) =
          ⟨text, inClass, inClass && isSetLetter c, left⟩ := by
        simp [Piece.read, Piece.escape, hEscape]
      obtain ⟨hText, hLeft, hMarks⟩ := isAtom_neutralEscape (by simpa using hName) hEscape
      have hRemains : Remains inClass ('\\' :: c :: rest)
          (neutralFrom inClass (inClass && isSetLetter c) left) :=
        ⟨_, left, rfl, hLeft.trans (List.suffix_cons ..), (parentheses_escape ..).trans hMarks⟩
      rw [neutralFrom_of_read hRead]
      rcases hText with ⟨hOutside, rfl⟩ | hAtom
      · exact .inl ⟨hOutside, _, rfl, hRemains⟩
      · exact .inr (.of_isAtom hAtom hRemains)

/-! ## Classes -/

theorem neutralFrom_inside (afterSet : Bool) {c : Char} {rest : List Char}
    (hName : c = '\\' → rest.head? ≠ some 'k') :
    (c = ']' ∧ neutralFrom true afterSet (c :: rest) = ']' :: neutralFrom false false rest) ∨
      (c ≠ '\\' ∧ c ≠ '[' ∧ c ≠ ']' ∧
        neutralFrom true afterSet (c :: rest) = c :: neutralFrom true false rest) ∨
      AtomRemains true (c :: rest) (neutralFrom true afterSet (c :: rest)) := by
  by_cases hBackslash : c = '\\'
  · subst hBackslash
    rcases neutralFrom_escape true afterSet (hName rfl) with ⟨hOutside, -⟩ | hAtom
    · cases hOutside
    · exact .inr (.inr hAtom)
  by_cases hEnd : c = ']'
  · subst hEnd
    exact .inl ⟨rfl, neutralFrom_of_read rfl⟩
  have hInside :
      Piece.inside afterSet c rest = ⟨['\\', c], true, false, rest⟩ ∧ c ≠ 'x' ∧ c ≠ 'u' ∨
        Piece.inside afterSet c rest = ⟨[c], true, false, rest⟩ ∧ c ≠ '[' := by
    unfold Piece.inside
    split
    case isTrue hOperator =>
      refine .inl ⟨rfl, ?_, ?_⟩
      all_goals
        rintro rfl
        exact absurd hOperator (by decide)
    case isFalse hOperator =>
      have hOpen : c ≠ '[' := by
        rintro rfl
        exact hOperator rfl
      split
      case isTrue hDash =>
        obtain rfl : c = '-' := of_decide_eq_true (Bool.and_eq_true _ _ ▸ hDash).1
        exact .inl ⟨rfl, by decide, by decide⟩
      case isFalse => exact .inr ⟨rfl, hOpen⟩
  have hPiece : Piece.read true afterSet c rest = Piece.inside afterSet c rest := by
    simp [Piece.read, hBackslash]
  rcases hInside with ⟨hEscaped, hByte, hUnit⟩ | ⟨hPlain, hOpen⟩
  · rw [hEscaped] at hPiece
    rw [neutralFrom_of_read hPiece]
    exact .inr (.inr (.of_isAtom (isAtom_escaped hByte hUnit)
      ⟨false, rest, rfl, List.suffix_cons c rest, parentheses_inside hBackslash hEnd rest⟩))
  · rw [hPlain] at hPiece
    exact .inr (.inl ⟨hBackslash, hOpen, hEnd, neutralFrom_of_read hPiece⟩)

def HasNoName (pattern : List Char) : Prop :=
  ¬ "\\k".toList <:+: pattern

theorem HasNoName.of_suffix {pattern left : List Char} (h : HasNoName pattern)
    (hLeft : left <:+ pattern) : HasNoName left := fun hName =>
  h (hName.trans hLeft.isInfix)

theorem HasNoName.head? {c : Char} {rest : List Char} (h : HasNoName (c :: rest))
    (hc : c = '\\') : rest.head? ≠ some 'k' := by
  intro hHead
  obtain ⟨after, rfl⟩ := List.head?_eq_some_iff.1 hHead
  exact h ⟨[], after, by rw [hc]; rfl⟩

theorem eq_cons_of_next? {c : Char} {text left : List Char}
    (h : next? false text = some (c, left)) : text = c :: left := by
  cases text with
  | nil => cases h
  | cons d text =>
      cases h
      rfl

theorem le_of_readDashes {count found : Nat} {c : Char} {text left : List Char}
    (h : readDashes false count c text = some (found, left)) :
    count ≤ found ∧ (found = count → left = c :: text) := by
  fun_induction readDashes false count c text with
  | case1 => cases h
  | case2 count text d after hNext ih =>
      have hMore := (ih h).1
      exact ⟨by omega, fun hSame => by omega⟩
  | case3 =>
      cases h
      exact ⟨Nat.le_refl _, fun _ => rfl⟩

section

variable {pattern : List Char} (hNames : HasNoName pattern)

include hNames

/-- How what remains of a class can go on. -/
theorem Remains.cases {text : List Char} (h : Remains true pattern text) :
    text = [] ∨
      (∃ left, text = ']' :: neutralFrom false false left ∧ left <:+ pattern ∧
        parentheses true pattern = parentheses false left) ∨
      ∃ d more, text = d :: more ∧ d ≠ '[' ∧ d ≠ ']' ∧
        ∀ atom left, readAtom false d more = some (atom, left) → Remains true pattern left := by
  obtain ⟨afterSet, left, rfl, hLeft, hMarks⟩ := h
  cases left with
  | nil => exact .inl (neutralFrom_nil ..)
  | cons c rest =>
      have hRest : rest <:+ pattern := (List.suffix_cons c rest).trans hLeft
      rcases neutralFrom_inside afterSet (hNames.of_suffix hLeft).head? with
        ⟨rfl, hText⟩ | ⟨hBackslash, hOpen, hEnd, hText⟩ | ⟨d, more, hText, hFirst, hRead⟩
      · have hEnds : parentheses true (']' :: rest) = parentheses false rest :=
          parentheses_cons (by decide) ..
        exact .inr (.inl ⟨rest, hText, hRest, hMarks.trans hEnds⟩)
      · refine .inr (.inr ⟨c, _, hText, hOpen, hEnd, fun atom left hAtom => ?_⟩)
        rw [readAtom, if_neg hBackslash] at hAtom
        cases hAtom
        exact ⟨false, rest, rfl, hRest, hMarks.trans (parentheses_inside hBackslash hEnd rest)⟩
      · refine .inr (.inr ⟨d, more, hText, ?_, ?_, fun atom left hAtom => ?_⟩)
        · rintro rfl
          simp [isMeta] at hFirst
        · rintro rfl
          simp [isMeta] at hFirst
        · exact (hRead atom left hAtom).trans hLeft hMarks

theorem Remains.tail {d : Char} {more : List Char} (h : Remains true pattern (d :: more))
    (hEnd : d ≠ ']') (hBackslash : d ≠ '\\') : Remains true pattern more := by
  rcases h.cases hNames with hNil | ⟨left, hText, -⟩ | ⟨d, more, hText, -, -, hRead⟩
  · cases hNil
  · exact absurd (List.cons.inj hText).1 hEnd
  · cases hText
    exact hRead (.literal d) more (if_neg hBackslash)

theorem Remains.of_readAtom {c : Char} {atom : Atom} {text left : List Char}
    (h : Remains true pattern (c :: text)) (hEnd : c ≠ ']')
    (hRead : readAtom false c text = some (atom, left)) : Remains true pattern left := by
  rcases h.cases hNames with hNil | ⟨_, hText, -⟩ | ⟨d, more, hText, -, -, hAtom⟩
  · cases hNil
  · exact absurd (List.cons.inj hText).1 hEnd
  · cases hText
    exact hAtom atom left hRead

theorem Remains.not_open {more : List Char} (h : Remains true pattern ('[' :: more)) : False := by
  rcases h.cases hNames with hNil | ⟨_, hText, -⟩ | ⟨d, more, hText, hOpen, -⟩
  · cases hNil
  · cases hText
  · exact hOpen (List.cons.inj hText).1.symm

theorem Remains.of_readItem {c : Char} {text left : List Char}
    (h : Remains true pattern (c :: text)) (hEnd : c ≠ ']')
    (hRead : readItem false c text = some left) : Remains true pattern left := by
  unfold readItem at hRead
  split at hRead
  · cases hRead
  · rename_i first after hAtom
    have hAfter := h.of_readAtom hNames hEnd hAtom
    split at hRead
    · cases hRead
    · rename_i d rest hNext
      obtain rfl := eq_cons_of_next? hNext
      simp only at hRead
      split at hRead
      case isTrue hRange =>
        simp only [Bool.and_eq_true, decide_eq_true_eq] at hRange
        obtain ⟨⟨rfl, hClose⟩, -⟩ := hRange
        have hHigh := hAfter.tail hNames (by decide) (by decide)
        unfold readRangeEnd at hRead
        split at hRead
        · cases hRead
        · rename_i high last hLast
          obtain rfl := eq_cons_of_next? hLast
          split at hRead
          · rename_i hAtom
            split at hRead
            · cases hRead
              exact hHigh.of_readAtom hNames (by simpa [peek] using hClose) hAtom
            · cases hRead
          · cases hRead
      case isFalse =>
        split at hRead
        · cases hRead
        · cases hRead
          exact hAfter

theorem Remains.of_readClassRest {inner : OpenClass} {outer : List OpenClass} {level : Nat}
    {text left : List Char} (hOuter : outer = []) (h : Remains true pattern text)
    (hRead : readClassRest false inner outer text = some (level, left)) :
    ∃ after, left = neutralFrom false false after ∧ after <:+ pattern ∧
      parentheses true pattern = parentheses false after := by
  fun_induction readClassRest false inner outer text with
  | case1 => cases hRead
  | case2 inner outer text tail hNext =>
      -- the pass escapes every opening bracket in a class, so no class is in another
      obtain rfl := eq_cons_of_next? hNext
      exact (h.not_open hNames).elim
  | case3 => cases hRead
  | case4 inner outer text tail hNext =>
      obtain rfl := eq_cons_of_next? hNext
      exact (h.not_open hNames).elim
  | case5 inner text tail hNext =>
      obtain rfl := eq_cons_of_next? hNext
      cases hRead
      rcases h.cases hNames with hNil | ⟨after, hText, hAfter⟩ | ⟨d, more, hText, -, hEnd, -⟩
      · cases hNil
      · exact ⟨after, (List.cons.inj hText).2, hAfter⟩
      · exact absurd (List.cons.inj hText).1.symm hEnd
  | case6 => cases hOuter
  | case7 inner outer text c tail hOpen hClose hNext hOperator ih =>
      -- an operator is written twice, and each of the two is an atom for the pass
      obtain rfl := eq_cons_of_next? hNext
      simp only [Bool.and_eq_true, Bool.or_eq_true, decide_eq_true_eq] at hOperator
      obtain ⟨hOperator, hTwice⟩ := hOperator
      obtain ⟨more, rfl⟩ := List.head?_eq_some_iff.1 hTwice
      have hEnd : c ≠ ']' := by
        rintro rfl
        simp at hOperator
      have hBackslash : c ≠ '\\' := by
        rintro rfl
        simp at hOperator
      exact ih hOuter ((h.tail hNames hEnd hBackslash).tail hNames hEnd hBackslash) hRead
  | case8 => cases hRead
  | case9 inner outer text c tail hOpen hClose hNext hOperator after hItem ih =>
      obtain rfl := eq_cons_of_next? hNext
      exact ih hOuter (h.of_readItem hNames hClose hItem) hRead

theorem Remains.of_readDashes {count found : Nat} {c : Char} {text left : List Char}
    (h : Remains true pattern (c :: text))
    (hRead : readDashes false count c text = some (found, left)) : Remains true pattern left := by
  fun_induction readDashes false count c text with
  | case1 => cases hRead
  | case2 count text d after hNext ih =>
      obtain rfl := eq_cons_of_next? hNext
      exact ih (h.tail hNames (by decide) (by decide)) hRead
  | case3 =>
      cases hRead
      exact h

theorem eq_of_neutralFrom_inside {afterSet : Bool} {c : Char} {left : List Char}
    (hEnd : pattern.head? ≠ some ']') (h : neutralFrom true afterSet pattern = c :: left) :
    c ≠ ']' ∧ (c = '^' → ∃ rest, pattern = '^' :: rest ∧ left = neutralFrom true false rest) := by
  cases pattern with
  | nil =>
      rw [neutralFrom_nil] at h
      cases h
  | cons d rest =>
      rcases neutralFrom_inside afterSet hNames.head? with
        ⟨rfl, -⟩ | ⟨-, -, hClose, hText⟩ | ⟨_, more, hText, hFirst, -⟩
      · exact absurd rfl hEnd
      · rw [hText] at h
        cases h
        exact ⟨hClose, fun hCaret => ⟨rest, by rw [hCaret], rfl⟩⟩
      · rw [hText] at h
        cases h
        constructor
        · rintro rfl
          simp [isMeta] at hFirst
        · rintro rfl
          simp [isMeta] at hFirst

theorem remains_of_readCaret {c : Char} {left : List Char} (hEnd : pattern.head? ≠ some ']')
    (hAny : ∀ rest, pattern = '^' :: rest → rest.head? ≠ some ']')
    (hRead : readCaret false (neutralFrom true false pattern) = some (c, left)) :
    c ≠ ']' ∧ Remains true pattern (c :: left) := by
  unfold readCaret at hRead
  split at hRead
  · rename_i rest hNext
    have hText := eq_cons_of_next? hNext
    obtain ⟨-, hCaret⟩ := eq_of_neutralFrom_inside hNames hEnd hText
    obtain ⟨rest, rfl, rfl⟩ := hCaret rfl
    have hLeft := eq_cons_of_next? hRead
    obtain ⟨hClose, -⟩ := eq_of_neutralFrom_inside
      (hNames.of_suffix (List.suffix_cons '^' rest)) (hAny rest rfl) hLeft
    exact ⟨hClose, false, rest, hLeft.symm, List.suffix_cons '^' rest, parentheses_skip rfl ..⟩
  · have hText := eq_cons_of_next? hRead
    obtain ⟨hClose, -⟩ := eq_of_neutralFrom_inside hNames hEnd hText
    exact ⟨hClose, false, pattern, hText.symm, List.suffix_rfl, rfl⟩

theorem remains_of_readClass {level : Nat} {left : List Char} (hEnd : pattern.head? ≠ some ']')
    (hAny : ∀ rest, pattern = '^' :: rest → rest.head? ≠ some ']')
    (hRead : readClass false (neutralFrom true false pattern) = some (level, left)) :
    ∃ after, left = neutralFrom false false after ∧ after <:+ pattern ∧
      parentheses true pattern = parentheses false after := by
  unfold readClass at hRead
  split at hRead
  · cases hRead
  · rename_i begun text hStart
    refine Remains.of_readClassRest hNames rfl ?_ hRead
    unfold readClassStart at hStart
    split at hStart
    · cases hStart
    · rename_i c rest hCaret
      obtain ⟨hClose, hRemains⟩ := remains_of_readCaret hNames hEnd hAny hCaret
      split at hStart
      · cases hStart
      · -- a bracket right behind the caret would be read as one of the class's characters
        rename_i hDashes
        have hText := (le_of_readDashes hDashes).2 rfl
        exact absurd (List.cons.inj hText).1.symm hClose
      · rename_i hDashes
        cases hStart
        exact hRemains.of_readDashes hNames hDashes

end

/-! ## Repetition -/

section

variable {chars : List Char} (hDigits : ∀ d ∈ chars, d.isDigit = true)

include hDigits

theorem isStructural_of_digits {d : Char} (hd : d ∈ chars) : isStructural d = false :=
  isStructural_eq_false (hDigits d hd) (by decide)

theorem left_readNumber {c : Char} {rest left : List Char} {value : Nat}
    (hDigit : c.isDigit = false) (hBlank : Unicode.isBlank c = false)
    (h : readNumber false (chars ++ c :: rest) = some (value, left)) : left = c :: rest := by
  have hHead : ((chars ++ c :: rest).head?.any Unicode.isBlank) = false := by
    cases chars with
    | nil => exact hBlank
    | cons d chars => exact Regex.Digits.isBlank_of_isDigit (hDigits d List.mem_cons_self)
  have hStart : (chars ++ c :: rest).dropWhile Unicode.isBlank = chars ++ c :: rest := by
    cases hText : chars ++ c :: rest with
    | nil => rfl
    | cons d text =>
        rw [hText] at hHead
        exact List.dropWhile_cons_of_neg (Bool.eq_false_iff.1 hHead)
  simp only [readNumber, hStart, Regex.Digits.readDigits_append hDigit rest hDigits] at h
  split at h
  · split at h
    · cases h
      exact List.dropWhile_cons_of_neg (Bool.eq_false_iff.1 hBlank)
    · cases h
  · cases h

theorem left_readCount_exactly {more left : List Char}
    (h : readCount false (chars ++ '}' :: more) = some left) : left = skipLazy more := by
  unfold readCount at h
  split at h
  · rename_i hNumber
    cases left_readNumber hDigits rfl rfl hNumber
    cases h
    rfl
  · rename_i hNumber
    cases left_readNumber hDigits rfl rfl hNumber
  · cases h

theorem left_readCount_between {most more left : List Char}
    (hMost : ∀ d ∈ most, d.isDigit = true)
    (h : readCount false (chars ++ ',' :: (most ++ '}' :: more)) = some left) :
    left = skipLazy more := by
  unfold readCount at h
  split at h
  · rename_i hNumber
    cases left_readNumber hDigits rfl rfl hNumber
  · rename_i hNumber
    cases left_readNumber hDigits rfl rfl hNumber
    rw [skip_false] at h
    split at h
    · rename_i hText
      cases most with
      | nil =>
          cases hText
          cases h
          rfl
      | cons d most =>
          obtain ⟨rfl, -⟩ := List.cons.inj hText
          exact absurd (hMost _ List.mem_cons_self) (by decide)
    · split at h
      · rename_i hNumber
        cases left_readNumber hMost rfl rfl hNumber
        split at h
        · cases h
          rfl
        · cases h
      · cases h
  · cases h

end

/-- The pass takes a quantifier and no more, and the reader too, but for what makes it lazy. -/
theorem quantifier_of_split {text piece after : List Char}
    (h : splitQuantifier? text = some (piece, after)) :
    text = piece ++ after ∧ (∀ c ∈ piece, isStructural c = false) ∧
      ∀ more left, readCount false (piece ++ more) = some left → left = skipLazy more := by
  have hLeast : ∀ d ∈ text.takeWhile Char.isDigit, d.isDigit = true :=
    List.all_eq_true.1 List.all_takeWhile
  have hText : text.takeWhile Char.isDigit ++ text.dropWhile Char.isDigit = text :=
    List.takeWhile_append_dropWhile
  simp only [splitQuantifier?] at h
  split at h
  · cases h
  · split at h
    · rename_i hDrop
      cases h
      rw [hDrop] at hText
      refine ⟨by simp [hText], ?_, fun more left hRead => ?_⟩
      · intro c hc
        rcases List.mem_append.1 hc with hc | hc
        · exact isStructural_of_digits hLeast hc
        · rw [List.mem_singleton.1 hc]
          rfl
      · rw [List.append_assoc] at hRead
        exact left_readCount_exactly hLeast hRead
    · rename_i rest hDrop
      have hMost : ∀ d ∈ rest.takeWhile Char.isDigit, d.isDigit = true :=
        List.all_eq_true.1 List.all_takeWhile
      have hRest : rest.takeWhile Char.isDigit ++ rest.dropWhile Char.isDigit = rest :=
        List.takeWhile_append_dropWhile
      split at h
      · rename_i hEnd
        cases h
        rw [hEnd] at hRest
        rw [hDrop, ← hRest] at hText
        refine ⟨by simp [hText], ?_, fun more left hRead => ?_⟩
        · intro c hc
          simp only [List.mem_append, List.mem_cons, List.not_mem_nil, or_false] at hc
          rcases hc with (hc | rfl | hc) | rfl
          · exact isStructural_of_digits hLeast hc
          · rfl
          · exact isStructural_of_digits hMost hc
          · rfl
        · simp only [List.append_assoc, List.cons_append] at hRead
          exact left_readCount_between hLeast hMost hRead
      · cases h
    · cases h

/-! ## Whole patterns -/

/-- Outside of classes the pass does not depend on what came before. -/
theorem neutralFrom_outside (afterSet : Bool) (pattern : List Char) :
    neutralFrom false afterSet pattern = neutralFrom false false pattern := by
  cases pattern with
  | nil => rw [neutralFrom_nil, neutralFrom_nil]
  | cons c rest =>
      cases hPiece : Piece.read false false c rest with
      | mk text inClass afterSet' left =>
          have hPiece' : Piece.read false afterSet c rest = ⟨text, inClass, afterSet', left⟩ :=
            hPiece
          rw [neutralFrom_of_read hPiece, neutralFrom_of_read hPiece']

/-- In the pattern are no openings of groups but plain ones, and no escapes of the names of
groups. -/
structure IsPlain (pattern : List Char) : Prop where
  /-- No parenthesis opens a special group. -/
  groups : ¬ "(?".toList <:+: pattern
  /-- No escape is of the name of a group. -/
  names : HasNoName pattern

structure Continues (state : State) (pattern : List Char) : Prop where
  /-- The innermost scope is not extended. -/
  inner : state.scope.extended = false
  /-- Nor is a scope around it. -/
  outer : ∀ scope ∈ state.outer, scope.extended = false
  /-- The pattern is well formed in the state. -/
  accepts : isWellFormedFrom state (neutralFrom false false pattern) = true

inductive Advance (depth : Nat) (pattern : List Char) : Nat → List Char → Prop where
  | same {left} (marks : parentheses false pattern = parentheses false left) :
      Advance depth pattern depth left
  | opens {left} (marks : parentheses false pattern = (parentheses false left).map ('(' :: ·)) :
      Advance depth pattern (depth + 1) left
  | closes {depth' left} (deeper : depth = depth' + 1)
      (marks : parentheses false pattern = (parentheses false left).map (')' :: ·)) :
      Advance depth pattern depth' left

theorem exists_read {state : State} {d : Char} {more : List Char}
    (hPlain : state.scope.extended = false) (h : isWellFormedFrom state (d :: more) = true) :
    ∃ next left, state.read d more = some (next, left) ∧ isWellFormedFrom next left = true := by
  cases hRead : state.read d more with
  | none =>
      rw [isWellFormedFrom] at h
      split at h
      · rename_i hText
        rw [hPlain] at hText
        cases hText
      · rename_i hText
        rw [hPlain] at hText
        cases hText
        split at h
        · cases h
        · rename_i hSome
          cases hRead.symm.trans hSome
  | some step =>
      obtain ⟨next, left⟩ := step
      rw [isWellFormedFrom_of_read hPlain hRead] at h
      exact ⟨next, left, rfl, h⟩

theorem read_of_not_reserved {state : State} {d : Char} (hPlain : state.scope.extended = false)
    (hReserved : Regex.isTermReserved d = false) (more : List Char) :
    state.read d more =
      (readAtom false d more).map fun (_, left) => (state.push (.item 0), left) := by
  simp only [Regex.isTermReserved, Bool.or_eq_false_iff, decide_eq_false_iff_not] at hReserved
  simp [State.read, hPlain, hReserved]

theorem read_repetition {state : State} {c : Char} (hPlain : state.scope.extended = false)
    (hOperator : c = '*' ∨ c = '+' ∨ c = '?' ∨ c = '\x7b') (more : List Char) :
    state.read c more = state.scope.repeatLast.bind fun scope =>
      (readRepetition false c more).map ({ state with scope := scope }, ·) := by
  rcases hOperator with rfl | rfl | rfl | rfl
  all_goals
    simp only [State.read, hPlain]
    cases state.scope.repeatLast <;> rfl

/-- The reader takes a part of the pattern and goes on behind it. -/
def Advances (state : State) (pattern : List Char) : Prop :=
  ∃ next left, Continues next left ∧ left <:+ pattern ∧
    (neutralFrom false false left).length < (neutralFrom false false pattern).length ∧
    Advance state.outer.length pattern next.outer.length left

section

variable {state : State} {pattern : List Char} (h : Continues state pattern)

include h

theorem Continues.advances {d : Char} {more : List Char}
    (hText : neutralFrom false false pattern = d :: more)
    (hRead : ∀ next text, state.read d more = some (next, text) →
      next.scope.extended = false ∧ (∀ scope ∈ next.outer, scope.extended = false) ∧
      ∃ left, text = neutralFrom false false left ∧ left <:+ pattern ∧
        Advance state.outer.length pattern next.outer.length left) : Advances state pattern := by
  have hAccepts := h.accepts
  rw [hText] at hAccepts
  obtain ⟨next, text, hStep, hNext⟩ := exists_read h.inner hAccepts
  obtain ⟨hInner, hOuter, left, rfl, hLeft, hAdvance⟩ := hRead next text hStep
  refine ⟨next, left, ⟨hInner, hOuter, hNext⟩, hLeft, ?_, hAdvance⟩
  rw [hText]
  exact Nat.lt_succ_of_le (State.length_read hStep)

/-- What is read in the innermost scope leaves the scopes around it alone. -/
theorem Continues.advances_same {d : Char} {more : List Char}
    (hText : neutralFrom false false pattern = d :: more)
    (hRead : ∀ next text, state.read d more = some (next, text) →
      next.scope.extended = state.scope.extended ∧ next.outer = state.outer ∧
        Remains false pattern text) : Advances state pattern := by
  refine h.advances hText fun next text hStep => ?_
  obtain ⟨hInner, hOuter, afterSet, left, hLeft, hSuffix, hMarks⟩ := hRead next text hStep
  rw [neutralFrom_outside] at hLeft
  rw [hInner, hOuter]
  exact ⟨h.inner, h.outer, left, hLeft, hSuffix, .same hMarks⟩

theorem Continues.advances_atom {d : Char} {more : List Char}
    (hText : neutralFrom false false pattern = d :: more)
    (hReserved : Regex.isTermReserved d = false)
    (hRead : ∀ atom left, readAtom false d more = some (atom, left) → Remains false pattern left) :
    Advances state pattern := by
  refine h.advances_same hText fun next text hStep => ?_
  rw [read_of_not_reserved h.inner hReserved] at hStep
  obtain ⟨⟨atom, left⟩, hAtom, hEq⟩ := Option.map_eq_some_iff.1 hStep
  cases hEq
  exact ⟨rfl, rfl, hRead atom _ hAtom⟩

theorem Continues.advances_of_atomRemains
    (hAtom : AtomRemains false pattern (neutralFrom false false pattern)) :
    Advances state pattern := by
  obtain ⟨d, more, hText, hFirst, hRead⟩ := hAtom
  refine h.advances_atom hText ?_ hRead
  rcases hFirst with rfl | hMeta
  · rfl
  · exact Regex.isTermReserved_of_forall_ne fun d hd _ => ne_of_test hMeta hd

theorem Continues.advances_repetition {c : Char} {more : List Char}
    (hText : neutralFrom false false pattern = c :: more)
    (hOperator : c = '*' ∨ c = '+' ∨ c = '?' ∨ c = '\x7b')
    (hRead : ∀ left, readRepetition false c more = some left → Remains false pattern left) :
    Advances state pattern := by
  refine h.advances_same hText fun next text hStep => ?_
  rw [read_repetition h.inner hOperator] at hStep
  obtain ⟨scope, hScope, hStep⟩ := Option.bind_eq_some_iff.1 hStep
  obtain ⟨left, hLeft, hEq⟩ := Option.map_eq_some_iff.1 hStep
  cases hEq
  refine ⟨?_, rfl, hRead _ hLeft⟩
  unfold Scope.repeatLast at hScope
  split at hScope
  · cases hScope
    rfl
  · cases hScope

end

theorem Continues.advances_backReference {state : State} {pattern after : List Char}
    (h : Continues state pattern)
    (hText : neutralFrom false false pattern = "(?:)".toList ++ after)
    (hAfter : Remains false pattern after) : Advances state pattern := by
  obtain ⟨afterSet, left, rfl, hSuffix, hMarks⟩ := hAfter
  rw [neutralFrom_outside afterSet] at hText
  have hAccepts := h.accepts
  rw [hText] at hAccepts
  have hEmpty : isWellFormedFrom state ("(?:)".toList ++ neutralFrom false false left) =
      isWellFormedFrom (state.push (.item (enclosing [(Scope.empty false).level])))
        (neutralFrom false false left) :=
    calc
      _ = isWellFormedFrom (state.openScope false) (')' :: neutralFrom false false left) :=
        Regex.isWellFormedFrom_opener h.inner .plain (by simp)
      _ = _ := Regex.isWellFormedFrom_leave rfl rfl _
  refine ⟨state.push (.item (enclosing [(Scope.empty false).level])), left,
    ⟨h.inner, h.outer, hEmpty.symm.trans hAccepts⟩, hSuffix, ?_, .same hMarks⟩
  rw [hText, List.length_append]
  simp

theorem head?_outside (c : Char) (rest : List Char) :
    (Piece.outside c rest).text.head? = some c ∨ (Piece.outside c rest).text.head? = some '\\' := by
  unfold Piece.outside
  split
  case isTrue hBracket =>
    subst hBracket
    unfold Piece.bracket
    left
    split <;> rfl
  split
  case isTrue hBrace =>
    subst hBrace
    unfold Piece.brace
    split
    · exact .inl rfl
    · exact .inr rfl
  split
  case isTrue hParenthesis =>
    subst hParenthesis
    unfold Piece.parenthesis
    left
    split <;> rfl
  split
  · exact .inr rfl
  · exact .inl rfl

theorem eq_of_neutralFrom_question {pattern more : List Char} (hNames : HasNoName pattern)
    (h : neutralFrom false false pattern = '?' :: more) :
    ∃ rest, pattern = '?' :: rest ∧ more = neutralFrom false false rest := by
  cases pattern with
  | nil =>
      rw [neutralFrom_nil] at h
      cases h
  | cons c rest =>
      by_cases hBackslash : c = '\\'
      · subst hBackslash
        rcases neutralFrom_escape false false (hNames.head? rfl) with
          ⟨-, after, hText, -⟩ | ⟨d, more, hText, hFirst, -⟩
        · rw [hText] at h
          cases h
        · rw [hText] at h
          cases h
          simp [isMeta] at hFirst
      · have hHead : (neutralFrom false false (c :: rest)).head? = some '?' := by
          rw [h]
          rfl
        have hFirst := head?_outside c rest
        cases hOutside : Piece.outside c rest with
        | mk text inClass afterSet left =>
            have hPiece : Piece.read false false c rest = ⟨text, inClass, afterSet, left⟩ := by
              simp [Piece.read, hBackslash, hOutside]
            rw [neutralFrom_of_read hPiece, List.head?_append] at hHead
            rw [hOutside] at hFirst
            obtain rfl : c = '?' := by
              rcases hFirst with hFirst | hFirst
              · rw [hFirst] at hHead
                exact Option.some.inj hHead
              · rw [hFirst] at hHead
                cases hHead
            rw [neutralFrom_unchanged rfl] at h
            exact ⟨rest, rfl, (List.cons.inj h).2.symm⟩

theorem Remains.skipLazy {pattern left : List Char} (hNames : HasNoName pattern)
    (hLeft : left <:+ pattern) (hMarks : parentheses false pattern = parentheses false left) :
    Remains false pattern (skipLazy (neutralFrom false false left)) := by
  unfold Pattern.skipLazy
  split
  · rename_i more hText
    obtain ⟨rest, rfl, rfl⟩ := eq_of_neutralFrom_question (hNames.of_suffix hLeft) hText
    exact ⟨false, rest, rfl, (List.suffix_cons '?' rest).trans hLeft,
      hMarks.trans (parentheses_skip rfl ..)⟩
  · exact ⟨false, left, rfl, hLeft, hMarks⟩

section

variable {state : State} {rest : List Char}

/-- A class that holds nothing is no class in the neutral form but one with two sets. -/
theorem Continues.advances_emptyClass (class_ : Regex.Class) {pattern : List Char}
    (hPattern : pattern = class_.write ++ rest)
    (hMarks : parentheses false pattern = parentheses false rest)
    (h : Continues state pattern) : Advances state pattern := by
  obtain ⟨text, hNeutral, hRead⟩ := class_.readClass_neutral (neutralFrom false false rest)
  have hText : neutralFrom false false pattern = '[' :: (text ++ neutralFrom false false rest) := by
    rw [hPattern, class_.neutralFrom_write, hNeutral, List.cons_append]
  refine h.advances_same hText fun next left hStep => ?_
  have hNext : state.read '[' (text ++ neutralFrom false false rest) =
      some (state.push (.item class_.level), neutralFrom false false rest) := by
    simp [State.read, h.inner, hRead]
  rw [hNext] at hStep
  cases hStep
  exact ⟨rfl, rfl, false, rest, rfl, hPattern ▸ List.suffix_append .., hMarks⟩

theorem Continues.advances_class (hNames : HasNoName ('[' :: rest))
    (h : Continues state ('[' :: rest)) : Advances state ('[' :: rest) := by
  have hOpens : parentheses false ('[' :: rest) = parentheses true rest :=
    parentheses_cons (by decide) ..
  by_cases hEnd : rest.head? = some ']'
  · obtain ⟨after, rfl⟩ := List.head?_eq_some_iff.1 hEnd
    exact h.advances_emptyClass ⟨false, [], by decide, rfl⟩ rfl
      (hOpens.trans (parentheses_cons (by decide) ..))
  by_cases hAny : ∃ after, rest = '^' :: ']' :: after
  · obtain ⟨after, rfl⟩ := hAny
    exact h.advances_emptyClass ⟨true, [], by decide, rfl⟩ rfl
      (hOpens.trans ((parentheses_skip rfl ..).trans (parentheses_cons (by decide) ..)))
  have hPiece : Piece.read false false '[' rest = ⟨['['], true, false, rest⟩ := by
    refine Regex.Class.read_bracket (fun after hRest => ?_) (fun after hRest => ?_)
    · exact hEnd (by rw [hRest]; rfl)
    · exact hAny ⟨after, hRest⟩
  have hText : neutralFrom false false ('[' :: rest) = '[' :: neutralFrom true false rest :=
    neutralFrom_of_read hPiece
  refine h.advances_same hText fun next text hStep => ?_
  have hStep' : (readClass false (neutralFrom true false rest)).map
      (fun read => (state.push (.item read.1), read.2)) = some (next, text) := by
    rw [← hStep]
    simp [State.read, h.inner]
  obtain ⟨⟨level, left⟩, hRead, hEq⟩ := Option.map_eq_some_iff.1 hStep'
  cases hEq
  obtain ⟨after, hLeft, hSuffix, hMarks⟩ := remains_of_readClass
    (hNames.of_suffix (List.suffix_cons '[' rest)) hEnd
    (fun after hRest hHead => by
      obtain ⟨after', rfl⟩ := List.head?_eq_some_iff.1 hHead
      exact hAny ⟨after', hRest⟩) hRead
  exact ⟨rfl, rfl, false, after, hLeft, hSuffix.trans (List.suffix_cons '[' rest),
    hOpens.trans hMarks⟩

theorem Continues.advances_escaped {c : Char}
    (hPiece : Piece.read false false c rest = ⟨['\\', c], false, false, rest⟩)
    (hByte : c ≠ 'x') (hUnit : c ≠ 'u')
    (hMarks : parentheses false (c :: rest) = parentheses false rest)
    (h : Continues state (c :: rest)) : Advances state (c :: rest) := by
  refine h.advances_of_atomRemains ?_
  rw [neutralFrom_of_read hPiece]
  exact .of_isAtom (isAtom_escaped hByte hUnit) ⟨false, rest, rfl, List.suffix_cons c rest, hMarks⟩

theorem Continues.advances_brace (hNames : HasNoName ('\x7b' :: rest))
    (h : Continues state ('\x7b' :: rest)) : Advances state ('\x7b' :: rest) := by
  cases hSplit : splitQuantifier? rest with
  | none =>
      refine h.advances_escaped ?_ (by decide) (by decide) (parentheses_skip rfl ..)
      simp [Piece.read, Piece.outside, Piece.brace, hSplit]
  | some split =>
      obtain ⟨piece, after⟩ := split
      obtain ⟨rfl, hPiece, hRead⟩ := quantifier_of_split hSplit
      refine h.advances_repetition (Regex.Operator.neutralFrom_brace hSplit)
        (.inr (.inr (.inr rfl))) fun left hLeft => ?_
      rw [hRead _ left hLeft]
      exact .skipLazy hNames ((List.suffix_append piece after).trans (List.suffix_cons ..))
        ((parentheses_skip rfl ..).trans (parentheses_append hPiece ..))

theorem Continues.advances_open (hPlain : IsPlain ('(' :: rest))
    (h : Continues state ('(' :: rest)) : Advances state ('(' :: rest) := by
  have hRest : rest.head? ≠ some '?' := by
    intro hHead
    obtain ⟨after, rfl⟩ := List.head?_eq_some_iff.1 hHead
    exact hPlain.groups ⟨[], after, rfl⟩
  have hText := Regex.Opener.neutralFrom_write .capture rest hRest
  have hOpening : readOpening false (neutralFrom false false rest) =
      some (.plain, neutralFrom false false rest) := by
    refine readOpening_plain fun hHead => ?_
    obtain ⟨more, hMore⟩ := List.head?_eq_some_iff.1 hHead
    obtain ⟨after, rfl, -⟩ := eq_of_neutralFrom_question
      (hPlain.names.of_suffix (List.suffix_cons '(' rest)) hMore
    exact hRest rfl
  refine h.advances hText fun next text hStep => ?_
  have hNext : state.read '(' (neutralFrom false false rest) =
      some (state.openScope false, neutralFrom false false rest) := by
    simp [State.read, h.inner, hOpening, State.enter]
  obtain ⟨rfl, rfl⟩ := Prod.mk.inj (Option.some.inj (hNext.symm.trans hStep))
  refine ⟨rfl, List.forall_mem_cons.2 ⟨h.inner, h.outer⟩, rest, rfl, List.suffix_cons '(' rest,
    .opens (parentheses_cons (by decide) ..)⟩

theorem Continues.advances_close (h : Continues state (')' :: rest)) :
    Advances state (')' :: rest) := by
  refine h.advances (neutralFrom_unchanged rfl rest) fun next text hStep => ?_
  have hLeave : state.leave.map (·, neutralFrom false false rest) = some (next, text) := by
    rw [← hStep]
    simp [State.read]
  obtain ⟨next', hNext, hEq⟩ := Option.map_eq_some_iff.1 hLeave
  cases hEq
  unfold State.leave at hNext
  split at hNext
  · cases hNext
  · rename_i parent outer hOuter
    cases hNext
    obtain ⟨hParent, hOthers⟩ := List.forall_mem_cons.1 (hOuter ▸ h.outer)
    exact ⟨hParent, hOthers, rest, rfl, List.suffix_cons ')' rest,
      .closes (by rw [hOuter]; rfl) (parentheses_cons (by decide) ..)⟩

/-- Whatever a plain pattern begins with, the reader takes a part of it and goes on. -/
theorem Continues.advances_cons {c : Char} (hPlain : IsPlain (c :: rest))
    (h : Continues state (c :: rest)) : Advances state (c :: rest) := by
  have hRest : rest <:+ c :: rest := List.suffix_cons c rest
  by_cases hBackslash : c = '\\'
  · subst hBackslash
    rcases neutralFrom_escape false false (hPlain.names.head? rfl) with
      ⟨-, after, hText, hAfter⟩ | hAtom
    · exact h.advances_backReference hText hAfter
    · exact h.advances_of_atomRemains hAtom
  by_cases hReplaced : isReplaced c = true
  · simp only [isReplaced, Bool.or_eq_true, decide_eq_true_eq] at hReplaced
    rcases hReplaced with ((((rfl | rfl) | rfl) | rfl) | rfl) | rfl
    · exact absurd rfl hBackslash
    · exact h.advances_class hPlain.names
    · exact h.advances_brace hPlain.names
    · exact h.advances_open hPlain
    · exact h.advances_escaped rfl (by decide) (by decide) (parentheses_skip rfl ..)
    · exact h.advances_escaped rfl (by decide) (by decide) (parentheses_cons (by decide) ..)
  have hText := neutralFrom_unchanged (Bool.eq_false_iff.2 hReplaced) rest
  by_cases hClose : c = ')'
  · subst hClose
    exact h.advances_close
  have hOther {d : Char} (hd : isReplaced d = true) : c ≠ d :=
    ne_of_test (Bool.eq_false_iff.2 hReplaced) hd
  have hMarks : parentheses false (c :: rest) = parentheses false rest := by
    simp [parentheses_cons hBackslash, hOther (d := '[') rfl, hOther (d := '(') rfl, hClose]
  by_cases hOperator : c = '*' ∨ c = '+' ∨ c = '?' ∨ c = '\x7b'
  · refine h.advances_repetition hText hOperator fun left hLeft => ?_
    rw [readRepetition, if_neg (hOther rfl)] at hLeft
    cases hLeft
    exact .skipLazy hPlain.names hRest hMarks
  by_cases hBar : c = '|'
  · subst hBar
    refine h.advances_same hText fun next text hStep => ?_
    cases hStep
    exact ⟨rfl, rfl, false, rest, rfl, hRest, hMarks⟩
  · refine h.advances_atom hText ?_ fun atom left hAtom => ?_
    · simp only [not_or] at hOperator
      simp [Regex.isTermReserved, hOther (d := '[') rfl, hOther (d := '(') rfl, hClose, hBar,
        hOperator]
    · rw [readAtom, if_neg hBackslash] at hAtom
      cases hAtom
      exact ⟨false, rest, rfl, hRest, hMarks⟩

end

/-- The parentheses close `depth` groups more than they open, and never one that is not open. -/
def ClosesFrom (depth : Nat) (marks : List Char) : Prop :=
  (∀ before, before <+: marks → before.count ')' ≤ depth + before.count '(') ∧
    marks.count ')' = depth + marks.count '('

theorem closesFrom_nil : ClosesFrom 0 [] := by
  refine ⟨fun before hBefore => ?_, rfl⟩
  simp [List.prefix_nil.1 hBefore]

theorem ClosesFrom.opens {depth : Nat} {marks : List Char} (h : ClosesFrom (depth + 1) marks) :
    ClosesFrom depth ('(' :: marks) := by
  obtain ⟨hPrefix, hAll⟩ := h
  refine ⟨fun before hBefore => ?_, by simp [hAll]; omega⟩
  rcases List.prefix_cons_iff.1 hBefore with rfl | ⟨before, rfl, hMarks⟩
  · simp
  · have hCount := hPrefix before hMarks
    simp
    omega

theorem ClosesFrom.closes {depth : Nat} {marks : List Char} (h : ClosesFrom depth marks) :
    ClosesFrom (depth + 1) (')' :: marks) := by
  obtain ⟨hPrefix, hAll⟩ := h
  refine ⟨fun before hBefore => ?_, by simp [hAll]; omega⟩
  rcases List.prefix_cons_iff.1 hBefore with rfl | ⟨before, rfl, hMarks⟩
  · simp
  · have hCount := hPrefix before hMarks
    simp
    omega

theorem Advance.closesFrom {depth depth' : Nat} {pattern left marks : List Char}
    (h : Advance depth pattern depth' left) (hMarks : parentheses false left = some marks)
    (hCloses : ClosesFrom depth' marks) :
    ∃ marks, parentheses false pattern = some marks ∧ ClosesFrom depth marks := by
  cases h with
  | same hSame => exact ⟨marks, hSame.trans hMarks, hCloses⟩
  | opens hOpens => exact ⟨_, by rw [hOpens, hMarks]; rfl, hCloses.opens⟩
  | closes hDeeper hCloses' => exact ⟨_, by rw [hCloses', hMarks]; rfl, hDeeper ▸ hCloses.closes⟩

theorem IsPlain.of_suffix {pattern left : List Char} (h : IsPlain pattern)
    (hLeft : left <:+ pattern) : IsPlain left where
  groups hGroup := h.groups (hGroup.trans hLeft.isInfix)
  names := h.names.of_suffix hLeft

/-- A pattern that the reader accepts closes what is open before it. -/
theorem Continues.exists_marks {state : State} {pattern : List Char} (hPlain : IsPlain pattern)
    (h : Continues state pattern) :
    ∃ marks, parentheses false pattern = some marks ∧ ClosesFrom state.outer.length marks := by
  -- the induction is on the neutral form: of the pattern a part can be read that writes nothing
  induction hLength : (neutralFrom false false pattern).length using Nat.strongRecOn
    generalizing state pattern with
  | ind length ih =>
      cases pattern with
      | nil =>
          have hComplete := h.accepts
          rw [neutralFrom_nil, isWellFormedFrom_nil h.inner, State.isComplete, Bool.and_eq_true,
            List.isEmpty_iff] at hComplete
          rw [hComplete.1]
          exact ⟨[], rfl, closesFrom_nil⟩
      | cons c rest =>
          obtain ⟨next, left, hNext, hLeft, hLess, hAdvance⟩ := h.advances_cons hPlain
          obtain ⟨marks, hMarks, hCloses⟩ :=
            ih _ (hLength ▸ hLess) (hPlain.of_suffix hLeft) hNext rfl
          exact hAdvance.closesFrom hMarks hCloses

/-- A pattern without special groups and named back references is balanced if it is accepted. So
where a slash is followed by a text that is not balanced and the next slash, no regular expression
is read. -/
theorem isBalanced_of_isPattern {pattern : List Char} (hGroups : ¬ "(?".toList <:+: pattern)
    (hNames : ¬ "\\k".toList <:+: pattern) :
    (isPattern pattern = true → IsBalanced pattern) ∧
      ∀ maxFlags before after text, IsBody pattern → ¬ IsBalanced pattern →
        (Step.slash maxFlags before (pattern ++ '/' :: after)).token ≠ .leaf .regex text := by
  have hBalanced : isPattern pattern = true → IsBalanced pattern := by
    intro hPattern
    have hAccepts : isWellFormed (neutral pattern) = true := (Bool.and_eq_true _ _ ▸ hPattern).2
    have hContinues : Continues .initial pattern := ⟨rfl, nofun, hAccepts⟩
    obtain ⟨marks, hMarks, hPrefix, hAll⟩ := hContinues.exists_marks ⟨hGroups, hNames⟩
    refine ⟨marks, hMarks, fun before hBefore => ?_, ?_⟩
    · simpa [State.initial] using hPrefix before hBefore
    · simpa [State.initial] using hAll
  refine ⟨hBalanced, fun maxFlags before after text hBody hOpen => ?_⟩
  have hRefused : isPattern pattern = false := Bool.eq_false_iff.2 fun h => hOpen (hBalanced h)
  unfold Step.slash
  split
  · simp
  · unfold Step.blockComment
    split <;> simp
  · split
    · rw [Step.regex, splitUnescaped_append hBody.1 hBody.2]
      simp [hRefused, Step.division]
    · simp [Step.division]

/-- Neither the escaped parenthesis nor the one in a class counts. In `(1 / 2) / (3 / 4)` the text
between the last two slashes is no pattern. -/
theorem isBalanced_of_isPattern_slashes :
    (isPattern "(\\)[(]|[^]\\1)*?".toList = true ∧ IsBalanced "(\\)[(]|[^]\\1)*?".toList) ∧
    ∀ text, (Step.slash 4 (some ')') (" (3 ".toList ++ '/' :: " 4)".toList)).token ≠
      .leaf .regex text := by
  have hPattern : isPattern "(\\)[(]|[^]\\1)*?".toList = true := by decide +kernel
  have hBalanced : (isPattern "(\\)[(]|[^]\\1)*?".toList = true → _) ∧ _ :=
    isBalanced_of_isPattern (by decide +kernel) (by decide +kernel)
  have hOpen : (isPattern " (3 ".toList = true → _) ∧ _ :=
    isBalanced_of_isPattern (by decide +kernel) (by decide +kernel)
  have hMarks : parentheses false " (3 ".toList = some ['('] := by decide +kernel
  refine ⟨⟨hPattern, hBalanced.1 hPattern⟩, fun text => hOpen.2 4 _ _ text ⟨?_, ?_⟩ ?_⟩
  · decide +kernel
  · decide +kernel
  · rintro ⟨marks, hSame, -, hCount⟩
    rw [hMarks] at hSame
    cases hSame
    exact absurd hCount (by decide)

end Pattern

end CodeListing
