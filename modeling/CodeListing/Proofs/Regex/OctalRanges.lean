import CodeListing.Proofs.Regex.Balance

/-! # Ranges with legacy octal escapes

A backslash and three octal digits are one character. In a class the pass to the neutral
form takes the backslash and the first digit for NUL and leaves the other digits to be
characters of their own. So a range that begins with an octal escape is read as one from
the last digit of the escape, and a range that ends with one as a range up to NUL. A class
of ranges is accepted if these ranges are in order, whatever the order of the ranges
themselves.
-/

namespace CodeListing

namespace Regex

open Pattern

theorem ne_of_isAlpha {c d : Char} (h : c.isAlpha = true) (hd : d.isAlpha = false) : c ≠ d :=
  (ne_of_test (p := Char.isAlpha) hd h).symm

inductive RangeEnd where
  | letter (c : Char) (isLetter : c.isAlpha = true)
  | space
  /-- `\x` and the code of a character. -/
  | byte (high low : HexDigit)
  /-- A backslash and the code of a character in three octal digits. -/
  | octal (a : Fin 4) (b c : Fin 8)

namespace RangeEnd

/-- The code of the character that the end denotes. -/
def code : RangeEnd → Nat
  | .letter c _ => c.toNat
  | .space => ' '.toNat
  | .byte high low => hexNumber [high, low]
  | .octal a b c => 64 * a + 8 * b + c

def write : RangeEnd → List Char
  | .letter c _ => [c]
  | .space => [' ']
  | .byte high low => ['\\', 'x', high.char, low.char]
  | .octal a b c => ['\\', Nat.digitChar a, Nat.digitChar b, Nat.digitChar c]

def isOctal : RangeEnd → Bool
  | .octal _ _ _ => true
  | _ => false

/-- The code that is read for the end on the left of a dash. -/
def leftCode : RangeEnd → Nat
  | .octal _ _ c => (Nat.digitChar c).toNat
  | other => other.code

/-- The code that is read for the end on the right of a dash. -/
def rightCode : RangeEnd → Nat
  | .octal _ _ _ => 0
  | other => other.code

theorem leftCode_of_isOctal {e : RangeEnd} (h : e.isOctal = false) : e.leftCode = e.code := by
  cases e with
  | octal a b c => cases h
  | _ => rfl

theorem rightCode_of_isOctal {e : RangeEnd} (h : e.isOctal = false) : e.rightCode = e.code := by
  cases e with
  | octal a b c => cases h
  | _ => rfl

def digit (d : Fin 8) : ClassAtom :=
  .plain (Nat.digitChar d) (by decide +revert)

def first : RangeEnd → ClassAtom
  | .letter c h => .plain c ⟨ne_of_isAlpha h rfl, ne_of_isAlpha h rfl, ne_of_isAlpha h rfl⟩
  | .space => .plain ' ' (by decide)
  | .byte high low => .escape (.byte high low) (Char.ofNat (hexNumber [high, low])) rfl
  | .octal _ _ _ => .null

def after : RangeEnd → List ClassAtom
  | .octal _ b c => [digit b, digit c]
  | _ => []

def last : RangeEnd → ClassAtom
  | .octal _ _ c => digit c
  | other => other.first

def before : RangeEnd → List ClassAtom
  | .octal _ b _ => [.null, digit b]
  | _ => []

theorem first_after (e : RangeEnd) : e.first :: e.after = e.before ++ [e.last] := by
  cases e <;> rfl

theorem char_first (e : RangeEnd) : e.first.char.toNat = e.rightCode := by
  cases e with
  | byte high low =>
      have hHigh := high.value_lt
      have hLow := low.value_lt
      have hValid : (hexNumber [high, low]).isValidChar := by
        refine .inl ?_
        simp only [hexNumber, List.foldl]
        omega
      show (Char.ofNat (hexNumber [high, low])).toNat = hexNumber [high, low]
      rw [Char.ofNat, dif_pos hValid]
      rfl
  | _ => rfl

theorem char_last (e : RangeEnd) : e.last.char.toNat = e.leftCode := by
  cases e with
  | octal a b c => rfl
  | letter c h => rfl
  | space => rfl
  | byte high low => exact char_first (.byte high low)

def neutral (e : RangeEnd) : List Char :=
  (e.first :: e.after).flatMap ClassAtom.neutral

theorem neutral_eq_first (e : RangeEnd) :
    e.neutral = e.first.neutral ++ e.after.flatMap ClassAtom.neutral := rfl

theorem neutral_eq_last (e : RangeEnd) :
    e.neutral = e.before.flatMap ClassAtom.neutral ++ e.last.neutral := by
  rw [neutral, first_after, List.flatMap_append, List.flatMap_singleton]

theorem read_octal (a : Fin 4) (rest : List Char) :
    Piece.read true false '\\' (Nat.digitChar a :: rest) =
      ⟨"\\x00".toList, true, false, rest⟩ := by
  have hDigit : (Nat.digitChar a).isDigit = true := by decide +revert
  have hSet : isSetLetter (Nat.digitChar a) = false := by decide +revert
  simp [Piece.read, Piece.escape, neutralEscape, hDigit, hSet]

theorem neutralFrom_write (e : RangeEnd) (rest : List Char) :
    neutralFrom true false (e.write ++ rest) = e.neutral ++ neutralFrom true false rest := by
  have hAtom (h : e.write = e.first.write) (hNone : e.after = []) :
      neutralFrom true false (e.write ++ rest) = e.neutral ++ neutralFrom true false rest := by
    rw [h, e.first.neutralFrom_write, neutral_eq_first, hNone, List.flatMap_nil, List.append_nil]
  cases e with
  | letter c h => exact hAtom rfl rfl
  | space => exact hAtom rfl rfl
  | byte high low => exact hAtom rfl rfl
  | octal a b c =>
      have hFirst := (digit b).neutralFrom_write false ((digit c).write ++ rest)
      have hSecond := (digit c).neutralFrom_write false rest
      rw [hSecond] at hFirst
      calc
        _ = "\\x00".toList ++
            neutralFrom true false ((digit b).write ++ ((digit c).write ++ rest)) :=
          neutralFrom_of_read (read_octal a _)
        _ = "\\x00".toList ++
            ((digit b).neutral ++ ((digit c).neutral ++ neutralFrom true false rest)) := by
          rw [hFirst]
        _ = _ := by simp [neutral, first, after, ClassAtom.neutral]

theorem startsWithSet_write (e : RangeEnd) (rest : List Char) :
    startsWithSet (e.write ++ rest) = false := by
  cases e with
  | letter c h => exact (RangeEnd.letter c h).first.startsWithSet_write rest
  | space => rfl
  | byte high low => rfl
  | octal a b c => exact (by decide : ∀ a : Fin 4, isSetLetter (Nat.digitChar a) = false) a

theorem head?_first (e : RangeEnd) : e.first.write.head? ≠ some '^' := by
  cases e with
  | letter c h => exact fun hHead => ne_of_isAlpha h rfl (Option.some.inj hHead)
  | space => simp [first, ClassAtom.write]
  | byte high low => simp [first, ClassAtom.write, Escape.write]
  | octal a b c => simp [first, ClassAtom.write]

theorem exists_write (e : RangeEnd) : ∃ c more, e.write = c :: more ∧ c ≠ ']' ∧ c ≠ '^' := by
  cases e with
  | letter c h => exact ⟨c, [], rfl, ne_of_isAlpha h rfl, ne_of_isAlpha h rfl⟩
  | space => exact ⟨' ', [], rfl, by decide, by decide⟩
  | byte high low => exact ⟨'\\', _, rfl, by decide, by decide⟩
  | octal a b c => exact ⟨'\\', _, rfl, by decide, by decide⟩

end RangeEnd

namespace ClassAtom

theorem goesOn_neutral (atom : ClassAtom) (rest : List Char) : GoesOn (atom.neutral ++ rest) := by
  obtain ⟨c, more, hNeutral, hReserved, _, _⟩ := atom.readAtom_neutral
  exact ⟨c, more ++ rest, by rw [hNeutral, List.cons_append], ne_of_test hReserved rfl⟩

theorem readClassRest_atoms (atoms : List ClassAtom) {text : List Char} (hText : GoesOn text)
    (count : Nat) :
    readClassRest false (begun count) [] (atoms.flatMap neutral ++ text) =
      readClassRest false (begun (count + atoms.length)) [] text := by
  induction atoms generalizing count with
  | nil => rfl
  | cons atom atoms ih =>
      have hNext : GoesOn (atoms.flatMap neutral ++ text) := by
        cases atoms with
        | nil => exact hText
        | cons next atoms =>
            rw [List.flatMap_cons, List.append_assoc]
            exact next.goesOn_neutral _
      obtain ⟨d, rest, hRest, hDash⟩ := hNext
      obtain ⟨c, more, hNeutral, hReserved, _, hRead⟩ := atom.readAtom_neutral
      have hItem : readItem false c (more ++ d :: rest) = some (d :: rest) :=
        ClassItem.readItem_atom (hRead _) (by simp) fun hd => absurd hd hDash
      rw [List.flatMap_cons, List.append_assoc, hRest, hNeutral, List.cons_append,
        ClassItem.readClassRest_atom hReserved hItem, add_begun, ← hRest, ih, List.length_cons,
        Nat.add_right_comm, Nat.add_assoc]

theorem readClassRest_range (low high : ClassAtom) (count : Nat) (rest : List Char) :
    readClassRest false (begun count) [] (low.neutral ++ '-' :: (high.neutral ++ rest)) =
      if low.char.toNat ≤ high.char.toNat then readClassRest false (begun (count + 1)) [] rest
      else none := by
  obtain ⟨c, text, hLow, hReserved, _, hRead⟩ := low.readAtom_neutral
  rw [hLow, List.cons_append, ClassItem.readClassRest_of_not_reserved hReserved,
    ClassItem.readItem_range (hRead _), add_begun]
  split <;> rfl

end ClassAtom

structure CharRange where
  low : RangeEnd
  high : RangeEnd
  ordered : low.code ≤ high.code

namespace CharRange

def write (range : CharRange) : List Char :=
  range.low.write ++ '-' :: range.high.write

def writeAll (ranges : List CharRange) : List Char :=
  ranges.flatMap write

/-- Whether the range is in order as it is read. -/
def IsReadInOrder (range : CharRange) : Prop :=
  range.low.leftCode ≤ range.high.rightCode

instance (range : CharRange) : Decidable range.IsReadInOrder :=
  inferInstanceAs (Decidable (_ ≤ _))

def neutral (range : CharRange) : List Char :=
  range.low.neutral ++ '-' :: range.high.neutral

theorem neutralFrom_write (range : CharRange) (rest : List Char) :
    neutralFrom true false (range.write ++ rest) =
      range.neutral ++ neutralFrom true false rest := by
  have hDash : Piece.read true false '-' (range.high.write ++ rest) =
      ⟨['-'], true, false, range.high.write ++ rest⟩ := by
    simp [Piece.read, Piece.inside, range.high.startsWithSet_write]
  rw [write, List.append_assoc, range.low.neutralFrom_write, List.cons_append,
    neutralFrom_of_read hDash, range.high.neutralFrom_write, neutral, List.append_assoc]
  rfl

theorem neutralFrom_writeAll (ranges : List CharRange) :
    neutralFrom true false (writeAll ranges ++ [']']) = ranges.flatMap neutral ++ [']'] := by
  induction ranges with
  | nil =>
      have hEnd : Piece.read true false ']' [] = ⟨[']'], false, false, []⟩ := rfl
      exact (neutralFrom_of_read hEnd).trans (by rw [neutralFrom_nil]; rfl)
  | cons range ranges ih =>
      have hWrite : writeAll (range :: ranges) = range.write ++ writeAll ranges := rfl
      rw [hWrite, List.append_assoc, range.neutralFrom_write, ih, List.flatMap_cons,
        List.append_assoc]

theorem readClassRest_neutral (range : CharRange) {rest : List Char} (hRest : GoesOn rest)
    (count : Nat) : ∃ more,
    readClassRest false (begun count) [] (range.neutral ++ rest) =
      if range.IsReadInOrder then readClassRest false (begun more) [] rest else none := by
  obtain ⟨low, high, -⟩ := range
  refine ⟨count + low.before.length + 1 + high.after.length, ?_⟩
  rw [neutral, low.neutral_eq_last, high.neutral_eq_first]
  simp only [List.append_assoc, List.cons_append]
  rw [ClassAtom.readClassRest_atoms _ (low.last.goesOn_neutral _),
    ClassAtom.readClassRest_range, ClassAtom.readClassRest_atoms _ hRest, low.char_last,
    high.char_first]
  rfl

theorem goesOn_neutralAll (ranges : List CharRange) :
    GoesOn (ranges.flatMap neutral ++ [']']) := by
  cases ranges with
  | nil => exact ⟨']', [], rfl, by decide⟩
  | cons range ranges =>
      rw [List.flatMap_cons, neutral, range.low.neutral_eq_first]
      simp only [List.append_assoc]
      exact range.low.first.goesOn_neutral _

theorem readClassRest_neutralAll (ranges : List CharRange) (count : Nat) : ∃ all,
    readClassRest false (begun count) [] (ranges.flatMap neutral ++ [']']) =
      if ∀ range ∈ ranges, range.IsReadInOrder then some ((begun all).level, []) else none := by
  induction ranges generalizing count with
  | nil =>
      refine ⟨count, ?_⟩
      rw [List.flatMap_nil, List.nil_append, readClassRest, if_pos (by simp)]
      rfl
  | cons range ranges ih =>
      obtain ⟨more, hRange⟩ := range.readClassRest_neutral (goesOn_neutralAll ranges) count
      obtain ⟨all, hRanges⟩ := ih more
      refine ⟨all, ?_⟩
      rw [List.flatMap_cons, List.append_assoc, hRange, hRanges]
      by_cases hOrder : range.IsReadInOrder
      · simp [hOrder]
      · simp [hOrder]

theorem readClass_neutralAll (range : CharRange) (ranges : List CharRange) : ∃ all,
    readClass false ((range :: ranges).flatMap neutral ++ [']']) =
      if ∀ r ∈ range :: ranges, r.IsReadInOrder then some ((begun all).level, []) else none := by
  obtain ⟨all, hAll⟩ := readClassRest_neutralAll (range :: ranges) 0
  obtain ⟨c, more, hNeutral, hReserved, hCaret, _⟩ := range.low.first.readAtom_neutral
  have hText : ∃ rest, (range :: ranges).flatMap neutral ++ [']'] = c :: rest := by
    rw [List.flatMap_cons, neutral, range.low.neutral_eq_first, hNeutral]
    exact ⟨_, rfl⟩
  obtain ⟨rest, hText⟩ := hText
  have hStart : readClassStart false (c :: rest) = some (⟨none, []⟩, c :: rest) :=
    Class.readClassStart_of_readCaret
      (Class.readCaret_append false (fun _ hc => range.low.head?_first (hCaret hc)) rest)
      (ne_of_test hReserved rfl) (ne_of_test hReserved rfl)
  refine ⟨all, ?_⟩
  rw [← hAll, hText, readClass, hStart]
  rfl

theorem neutral_brackets (range : CharRange) (ranges : List CharRange) :
    Pattern.neutral ('[' :: (writeAll (range :: ranges) ++ [']'])) =
      '[' :: ((range :: ranges).flatMap neutral ++ [']']) := by
  obtain ⟨c, more, hWrite, hEnd, hCaret⟩ := range.low.exists_write
  have hText : ∃ rest, writeAll (range :: ranges) ++ [']'] = c :: rest := by
    rw [writeAll, List.flatMap_cons, write, hWrite]
    exact ⟨_, rfl⟩
  obtain ⟨rest, hText⟩ := hText
  have hOpen : neutralFrom false false ('[' :: c :: rest) =
      '[' :: neutralFrom true false (c :: rest) :=
    Class.neutralFrom_bracket false hEnd (fun _ => hCaret) rest
  rw [Pattern.neutral, hText, hOpen, ← hText, neutralFrom_writeAll]

/-- A class of ranges is accepted if all of them are in order as they are read. -/
theorem isPattern_brackets (range : CharRange) (ranges : List CharRange) :
    isPattern ('[' :: (writeAll (range :: ranges) ++ [']'])) = true ↔
      ∀ r ∈ range :: ranges, r.IsReadInOrder := by
  obtain ⟨all, hClass⟩ := readClass_neutralAll range ranges
  have hRead : State.initial.read '[' ((range :: ranges).flatMap neutral ++ [']']) =
      (readClass false ((range :: ranges).flatMap neutral ++ [']'])).map fun step =>
        (State.initial.push (.item step.1), step.2) := rfl
  have hPattern : isPattern ('[' :: (writeAll (range :: ranges) ++ [']'])) =
      isWellFormedFrom .initial ('[' :: ((range :: ranges).flatMap neutral ++ [']'])) := by
    rw [isPattern, neutral_brackets]
    rfl
  rw [hPattern]
  constructor
  · intro hAccepted
    obtain ⟨next, left, hNext, -⟩ := exists_read rfl hAccepted
    by_contra hOrder
    rw [hRead, hClass, if_neg hOrder] at hNext
    cases hNext
  · intro hOrder
    rw [hClass, if_pos hOrder] at hRead
    have hLevel : (begun all).level ≤ maxNesting :=
      Nat.le_trans (level_begun_le all) (by decide)
    rw [isWellFormedFrom_of_read rfl hRead, isWellFormedFrom_nil rfl]
    exact decide_eq_true hLevel

/-- A class of ranges in order is accepted unless an octal escape puts a range out of order. -/
theorem isPattern_ranges_iff (range : CharRange) (ranges : List CharRange) :
    isPattern ('[' :: (writeAll (range :: ranges) ++ [']'])) = true ↔
      ∀ r ∈ range :: ranges,
        (r.low.isOctal = false ∧ r.high.isOctal = false) ∨ r.low.leftCode ≤ r.high.rightCode := by
  rw [isPattern_brackets]
  refine forall₂_congr fun r _ => ⟨.inr, ?_⟩
  rintro (⟨hLow, hHigh⟩ | hOrder)
  · rw [IsReadInOrder, RangeEnd.leftCode_of_isOctal hLow, RangeEnd.rightCode_of_isOctal hHigh]
    exact r.ordered
  · exact hOrder

/-- The range from the space to the last character of ASCII is refused. -/
theorem isPattern_space_octal :
    ∃ range : CharRange, '[' :: (writeAll [range] ++ [']']) = "[ -\\177]".toList ∧
      isPattern "[ -\\177]".toList = false :=
  ⟨⟨.space, .octal 1 7 7, by decide⟩, by decide, by decide +kernel⟩

end CharRange

end Regex

end CodeListing
