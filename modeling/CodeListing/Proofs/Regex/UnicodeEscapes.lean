import CodeListing.Proofs.Regex.WellFormed

/-! # Unicode escapes

`\u` and four hexadecimal digits denote a unit of UTF-16, and a character outside of the
first plane is written as two of them, the halves of a surrogate pair. The pass to the
neutral form leaves every such escape as it is, and the reader takes the four digits for
the code point of a character, which a half is not. So what is accepted of letters,
Unicode escapes and classes of these is what has no half of a pair in it.
-/

namespace CodeListing

namespace Regex

open Pattern

structure CodeUnit where
  a : HexDigit
  b : HexDigit
  c : HexDigit
  d : HexDigit

namespace CodeUnit

variable (unit : CodeUnit)

def digits : List HexDigit :=
  [unit.a, unit.b, unit.c, unit.d]

/-- The unit of UTF-16 that is denoted. -/
def value : Nat :=
  hexNumber unit.digits

def write : List Char :=
  '\\' :: 'u' :: unit.digits.map HexDigit.char

/-- Half of a pair is no character by itself. -/
def IsSurrogate : Prop :=
  0xD800 ≤ unit.value ∧ unit.value ≤ 0xDFFF

instance : Decidable unit.IsSurrogate :=
  inferInstanceAs (Decidable (_ ∧ _))

theorem value_lt : unit.value < 0x10000 := by
  have ha := unit.a.value_lt
  have hb := unit.b.value_lt
  have hc := unit.c.value_lt
  have hd := unit.d.value_lt
  simp only [value, digits, hexNumber, List.foldl]
  omega

theorem isValidChar_iff : unit.value.isValidChar ↔ ¬ unit.IsSurrogate := by
  have hValue := unit.value_lt
  simp only [Nat.isValidChar, IsSurrogate]
  omega

theorem readAtom_write (rest : List Char) :
    readAtom false '\\' ('u' :: (unit.digits.map HexDigit.char ++ rest)) =
      if unit.IsSurrogate then none else some (.literal (Char.ofNat unit.value), rest) := by
  have hDigits : readHexDigits false 4 0 (unit.digits.map HexDigit.char ++ rest) =
      some (unit.value, rest) := readHexDigits_append unit.digits 0 rest
  show readCodePoint false 4 _ = _
  rw [readCodePoint, hDigits]
  simp [isValidChar_iff]

theorem neutralFrom_write (inClass afterSet : Bool) (rest : List Char) :
    neutralFrom inClass afterSet (unit.write ++ rest) =
      unit.write ++ neutralFrom inClass false rest := by
  refine neutralFrom_of_read ?_
  simp [Piece.read, Piece.escape, neutralEscape, write, digits, unit.a.isHex, unit.b.isHex,
    unit.c.isHex, unit.d.isHex, isSetLetter]

theorem neutralFrom_writeAll (units : List CodeUnit) (rest : List Char) :
    neutralFrom true false (units.flatMap write ++ ']' :: rest) =
      units.flatMap write ++ ']' :: neutralFrom false false rest := by
  induction units with
  | nil => exact neutralFrom_of_read rfl
  | cons unit units ih =>
      rw [List.flatMap_cons, List.append_assoc, neutralFrom_write, ih, List.append_assoc]

theorem goesOn_writeAll (units : List CodeUnit) (rest : List Char) :
    GoesOn (units.flatMap write ++ ']' :: rest) := by
  cases units with
  | nil => exact ⟨']', rest, rfl, by decide⟩
  | cons unit units => exact ⟨'\\', _, rfl, by decide⟩

theorem readItem_write {text : List Char} (hText : GoesOn text) :
    readItem false '\\' ('u' :: (unit.digits.map HexDigit.char ++ text)) =
      if unit.IsSurrogate then none else some text := by
  obtain ⟨d, rest, rfl, hDash⟩ := hText
  have hAtom := unit.readAtom_write (d :: rest)
  split
  · rename_i hSurrogate
    rw [if_pos hSurrogate] at hAtom
    simp [readItem, hAtom]
  · rename_i hScalar
    rw [if_neg hScalar] at hAtom
    exact ClassItem.readItem_atom hAtom (by simp) fun hd => absurd hd hDash

/-- The first half of a pair ends the reading of a class. -/
theorem readClassRest_writeAll (units : List CodeUnit) (count : Nat) (rest : List Char) :
    readClassRest false (begun count) [] (units.flatMap write ++ ']' :: rest) =
      if ∀ unit ∈ units, ¬ unit.IsSurrogate then
        some ((begun (count + units.length)).level, rest)
      else none := by
  induction units generalizing count with
  | nil =>
      rw [if_pos (by simp), List.flatMap_nil, List.nil_append, readClassRest]
      rfl
  | cons unit units ih =>
      have hItem := unit.readItem_write (goesOn_writeAll units rest)
      rw [List.flatMap_cons, List.append_assoc, write, List.cons_append, List.cons_append,
        ClassItem.readClassRest_of_not_reserved rfl, hItem, add_begun]
      by_cases hSurrogate : unit.IsSurrogate
      · simp [hSurrogate]
      · simp [hSurrogate, ih, Nat.add_assoc, Nat.add_comm 1]

end CodeUnit

/-- The class without items, or the one of all characters. -/
def emptyClass (negated : Bool) : Class :=
  ⟨negated, [], fun _ => nofun, rfl⟩

/-- A letter, a Unicode escape, or a class of Unicode escapes. -/
inductive UnitTerm where
  | letter (c : Char) (isLetter : c.isAlpha = true)
  | codeUnit (unit : CodeUnit)
  | brackets (negated : Bool) (units : List CodeUnit)

namespace UnitTerm

def write : UnitTerm → List Char
  | .letter c _ => [c]
  | .codeUnit unit => unit.write
  | .brackets negated units =>
    '[' :: ((if negated then ['^'] else []) ++ (units.flatMap CodeUnit.write ++ [']']))

def writeAll (terms : List UnitTerm) : List Char :=
  terms.flatMap write

def units : UnitTerm → List CodeUnit
  | .letter _ _ => []
  | .codeUnit unit => [unit]
  | .brackets _ units => units

/-- No escape in the term is half of a pair. -/
def IsScalar (term : UnitTerm) : Prop :=
  ∀ unit ∈ term.units, ¬ unit.IsSurrogate

instance (term : UnitTerm) : Decidable term.IsScalar :=
  inferInstanceAs (Decidable (∀ _ ∈ _, _))

def neutral : UnitTerm → List Char
  | .brackets negated [] => (emptyClass negated).neutral
  | other => other.write

theorem neutralFrom_write (term : UnitTerm) (rest : List Char) :
    neutralFrom false false (term.write ++ rest) =
      term.neutral ++ neutralFrom false false rest := by
  match term with
  | .letter c hLetter =>
      refine neutralFrom_unchanged ?_ rest
      simp [isReplaced, ne_of_test (p := fun d => !d.isAlpha) (c := c) (by simp [hLetter])]
  | .codeUnit unit => exact unit.neutralFrom_write false false rest
  | .brackets negated [] => exact (emptyClass negated).neutralFrom_write rest
  | .brackets negated (unit :: units) =>
      obtain ⟨more, hMore⟩ : ∃ more,
          (unit :: units).flatMap CodeUnit.write ++ ']' :: rest = '\\' :: more := ⟨_, rfl⟩
      have hOpen := Class.neutralFrom_bracket negated (c := '\\') (by decide)
        (fun _ => by decide) more
      rw [← hMore, CodeUnit.neutralFrom_writeAll] at hOpen
      simpa [write, neutral] using hOpen

theorem neutralFrom_writeAll (terms : List UnitTerm) :
    Pattern.neutral (writeAll terms) = terms.flatMap neutral := by
  rw [Pattern.neutral]
  induction terms with
  | nil => exact neutralFrom_nil ..
  | cons term terms ih =>
      rw [List.flatMap_cons, ← ih]
      exact term.neutralFrom_write _

/-- A class of Unicode escapes is read in one step, unless half of a pair is in it. -/
theorem readClass_brackets (negated : Bool) (units : List CodeUnit) (rest : List Char) :
    ∃ text level, (brackets negated units).neutral = '[' :: text ∧ level ≤ 2 ∧
      readClass false (text ++ rest) =
        if (brackets negated units).IsScalar then some (level, rest) else none := by
  cases units with
  | nil =>
      obtain ⟨text, hNeutral, hRead⟩ := (emptyClass negated).readClass_neutral rest
      have hScalar : (brackets negated []).IsScalar := by simp [IsScalar, units]
      exact ⟨text, 2, hNeutral, Nat.le_refl 2, by rw [hRead, if_pos hScalar]; rfl⟩
  | cons unit units =>
      obtain ⟨more, hMore⟩ : ∃ more,
          (unit :: units).flatMap CodeUnit.write ++ ']' :: rest = '\\' :: more := ⟨_, rfl⟩
      have hStart := Class.readClassStart_of_readCaret (Class.readCaret_append negated
        (c := '\\') (fun _ => by decide) more) (by decide) (by decide)
      have hRest := CodeUnit.readClassRest_writeAll (unit :: units) 0 rest
      refine ⟨_, (begun (0 + (unit :: units).length)).level, rfl, level_begun_le _, ?_⟩
      rw [hMore] at hRest
      rw [readClass, List.append_assoc, List.append_assoc, List.singleton_append, hMore, hStart]
      exact hRest

theorem isWellFormedFrom_neutral (term : UnitTerm) {state : State}
    (hPlain : state.scope.extended = false) (rest : List Char) : ∃ level ≤ 2,
    isWellFormedFrom state (term.neutral ++ rest) =
      (decide term.IsScalar && isWellFormedFrom (state.push (.item level)) rest) := by
  cases term with
  | letter c hLetter =>
      have hOther {d : Char} (hd : d.isAlpha = false) : c ≠ d :=
        (ne_of_test (p := Char.isAlpha) hd hLetter).symm
      have hRead : readAtom false c rest = some (.literal c, rest) := if_neg (hOther rfl)
      have hScalar : (letter c hLetter).IsScalar := nofun
      refine ⟨0, Nat.zero_le 2, ?_⟩
      rw [decide_eq_true hScalar, Bool.true_and]
      exact isWellFormedFrom_atom hPlain (by simp [isTermReserved, hOther]) hRead
  | codeUnit unit =>
      have hRead := unit.readAtom_write rest
      have hScalar : (codeUnit unit).IsScalar ↔ ¬ unit.IsSurrogate := List.forall_mem_singleton
      have hNeutral : (codeUnit unit).neutral ++ rest =
          '\\' :: 'u' :: (unit.digits.map HexDigit.char ++ rest) := rfl
      refine ⟨0, Nat.zero_le 2, ?_⟩
      rw [hNeutral, isWellFormedFrom_cons hPlain]
      by_cases hSurrogate : unit.IsSurrogate
      · rw [if_pos hSurrogate] at hRead
        simp [State.read, hPlain, hRead, hScalar, hSurrogate]
      · rw [if_neg hSurrogate] at hRead
        simp [State.read, hPlain, hRead, hScalar, hSurrogate]
  | brackets negated units =>
      obtain ⟨text, level, hNeutral, hLevel, hRead⟩ := readClass_brackets negated units rest
      refine ⟨level, hLevel, ?_⟩
      rw [hNeutral, List.cons_append, isWellFormedFrom_cons hPlain]
      by_cases hScalar : (brackets negated units).IsScalar
      · simp [State.read, hPlain, hRead, hScalar]
      · simp [State.read, hPlain, hRead, hScalar]

/-- Nothing but terms has been read, so nothing is nested deep. -/
structure IsFlat (state : State) : Prop where
  plain : state.scope.extended = false
  outer : state.outer = []
  finished : state.scope.finished = []
  parts : ∀ part ∈ state.scope.parts, part.level ≤ 2

namespace IsFlat

theorem initial : IsFlat .initial :=
  ⟨rfl, rfl, rfl, nofun⟩

theorem push {state : State} (h : IsFlat state) {level : Nat} (hLevel : level ≤ 2) :
    IsFlat (state.push (.item level)) :=
  ⟨h.plain, h.outer, h.finished, List.forall_mem_cons.2 ⟨hLevel, h.parts⟩⟩

theorem isComplete {state : State} (h : IsFlat state) : state.isComplete = true := by
  have hAlternative : state.scope.alternative ≤ 3 :=
    nesting_le (List.forall_mem_map.2 h.parts)
  have hLevel : state.scope.level ≤ maxNesting := by
    rw [Scope.level, h.finished]
    exact Nat.le_trans hAlternative (by decide)
  simp [State.isComplete, h.outer, hLevel]

end IsFlat

theorem isWellFormedFrom_neutralAll (terms : List UnitTerm) {state : State}
    (h : IsFlat state) :
    isWellFormedFrom state (terms.flatMap neutral) = decide (∀ term ∈ terms, term.IsScalar) := by
  induction terms generalizing state with
  | nil =>
      rw [List.flatMap_nil, isWellFormedFrom_nil h.plain, h.isComplete]
      simp
  | cons term terms ih =>
      obtain ⟨level, hLevel, hTerm⟩ :=
        term.isWellFormedFrom_neutral h.plain (terms.flatMap neutral)
      rw [List.flatMap_cons, hTerm, ih (h.push hLevel)]
      simp

/-- Letters, Unicode escapes and classes of these are accepted exactly if no escape among them
is half of a surrogate pair. -/
theorem isPattern_terms_iff (term : UnitTerm) (terms : List UnitTerm) :
    isPattern (writeAll (term :: terms)) = true ↔
      ∀ t ∈ term :: terms, ∀ unit ∈ t.units, ¬ unit.IsSurrogate := by
  have hWrite : (writeAll (term :: terms)).isEmpty = false := by
    cases term <;> rfl
  rw [isPattern, hWrite, isWellFormed, neutralFrom_writeAll,
    isWellFormedFrom_neutralAll _ IsFlat.initial]
  simp [IsScalar]

/-- A character outside of the first plane is refused, alone and in a class. -/
theorem isPattern_surrogatePair :
    ∃ high low : CodeUnit,
      writeAll [.codeUnit high, .codeUnit low] = "\\ud83d\\ude00".toList ∧
      isPattern "\\ud83d\\ude00".toList = false ∧
      writeAll [.brackets false [high, low]] = "[\\ud83d\\ude00]".toList ∧
      isPattern "[\\ud83d\\ude00]".toList = false :=
  ⟨⟨⟨'d', rfl⟩, ⟨'8', rfl⟩, ⟨'3', rfl⟩, ⟨'d', rfl⟩⟩,
    ⟨⟨'d', rfl⟩, ⟨'e', rfl⟩, ⟨'0', rfl⟩, ⟨'0', rfl⟩⟩,
    by decide, by decide +kernel, by decide, by decide +kernel⟩

end UnitTerm

end Regex

end CodeListing
