import Mathlib.Order.Bounds.Basic
import Mathlib.Data.Int.Order.Basic
import CodeListing.Indentation

/-! # Levels and surpluses

Going through lines the level rises and falls with the brackets at their ends, and
where it would fall below zero it stays there. So it is not the surplus of openers
over closers since the first line, but the greatest such surplus since any line: the
lines before the one that it is counted from have closed more than they opened. The
padding is a multiple of the level as long as that is a word of 32 bits.
-/

namespace CodeListing.Indentation

def levels (level : Nat) : List (Char × Char) → List Nat
  | [] => []
  | (first, last) :: lines =>
    levelOf level first :: levels (levelAfter (levelOf level first) last) lines

/-- How many more levels the lines from `start` on open than are closed again up to the line
at `stop`. What a line closes it closes before itself, and what it opens it opens after. -/
def surplus (lines : List (Char × Char)) (start stop : Nat) : Int :=
  (lines.extract start stop).countP (isOpener ·.2) -
    (lines.extract (start + 1) (stop + 1)).countP (isCloser ·.1)

theorem paddings_eq_levels (unit : UInt32) (level : Nat) (lines : List (Char × Char)) :
    paddings unit level (lines.map some) =
      (levels level lines).map fun level => some (padding unit level) := by
  induction lines generalizing level with
  | nil => rfl
  | cons line lines ih => rw [List.map_cons, paddings, ih, levels, List.map_cons]

@[simp] theorem length_levels (level : Nat) (lines : List (Char × Char)) :
    (levels level lines).length = lines.length := by
  induction lines generalizing level with
  | nil => rfl
  | cons line lines ih => rw [levels, List.length_cons, ih, List.length_cons]

theorem getElem?_levels_zero (level : Nat) (lines : List (Char × Char)) :
    (levels level lines)[0]? = lines[0]?.map fun line => levelOf level line.1 := by
  cases lines <;> rfl

theorem getElem?_levels_succ {level here i : Nat} {lines : List (Char × Char)}
    {line next : Char × Char} (hHere : (levels level lines)[i]? = some here)
    (hLine : lines[i]? = some line) (hNext : lines[i + 1]? = some next) :
    (levels level lines)[i + 1]? = some (levelOf (levelAfter here line.2) next.1) := by
  induction i generalizing level lines with
  | zero =>
      obtain _ | ⟨first, lines⟩ := lines
      · cases hLine
      · cases hLine
        cases hHere
        simp only [levels, List.getElem?_cons_succ] at hNext ⊢
        rw [getElem?_levels_zero, hNext]
        rfl
  | succ i ih =>
      obtain _ | ⟨first, lines⟩ := lines
      · cases hLine
      · exact ih hHere hLine hNext

theorem extract_succ {α : Type} {items : List α} {item : α} {start stop : Nat}
    (hStart : start ≤ stop) (hItem : items[stop]? = some item) :
    items.extract start (stop + 1) = items.extract start stop ++ [item] := by
  have hCount : stop + 1 - start = stop - start + 1 := by omega
  have hLast : (items.drop start)[stop - start]? = some item := by
    rw [List.getElem?_drop, show start + (stop - start) = stop by omega, hItem]
  rw [List.extract_eq_take_drop, List.extract_eq_take_drop, hCount, List.take_add_one, hLast]
  rfl

@[simp] theorem surplus_self (lines : List (Char × Char)) (stop : Nat) :
    surplus lines stop stop = 0 := by
  simp [surplus, List.extract_eq_take_drop]

/-- By how much the level changes from a line that ends with `last` to one that begins with
`first`, if it can. -/
def change (last first : Char) : Int :=
  (if isOpener last then 1 else 0) - (if isCloser first then 1 else 0)

theorem level_next (here : Nat) (last first : Char) :
    (levelOf (levelAfter here last) first : Int) = max (here + change last first) 0 := by
  unfold levelOf levelAfter change
  split <;> split <;> omega

/-- The surplus does not stop. -/
theorem surplus_succ {lines : List (Char × Char)} {line next : Char × Char} {start stop : Nat}
    (hStart : start ≤ stop) (hLine : lines[stop]? = some line)
    (hNext : lines[stop + 1]? = some next) :
    surplus lines start (stop + 1) = surplus lines start stop + change line.2 next.1 := by
  rw [surplus, extract_succ hStart hLine, extract_succ (Nat.add_le_add_right hStart 1) hNext]
  simp only [List.countP_append, List.countP_singleton, surplus, change]
  split <;> split <;> omega

def surpluses (lines : List (Char × Char)) (stop : Nat) : Set Int :=
  {n | ∃ start ≤ stop, n = surplus lines start stop}

theorem isGreatest_surpluses_succ {lines : List (Char × Char)} {line next : Char × Char}
    {here stop : Nat} (h : IsGreatest (surpluses lines stop) here)
    (hLine : lines[stop]? = some line) (hNext : lines[stop + 1]? = some next) :
    IsGreatest (surpluses lines (stop + 1)) (levelOf (levelAfter here line.2) next.1 : Nat) := by
  have hStep (start : Nat) (hStart : start ≤ stop) := surplus_succ hStart hLine hNext
  obtain ⟨⟨best, hBest, hHere⟩, hBound⟩ := h
  rw [level_next]
  constructor
  · -- where the level would fall below zero, counting begins anew
    rcases Int.le_total 0 (here + change line.2 next.1) with hUp | hDown
    · refine ⟨best, Nat.le_succ_of_le hBest, ?_⟩
      rw [hStep best hBest, ← hHere, max_eq_left hUp]
    · refine ⟨stop + 1, Nat.le_refl _, ?_⟩
      rw [surplus_self, max_eq_right hDown]
  · rintro _ ⟨start, hStart, rfl⟩
    rcases Nat.le_succ_iff.1 hStart with hStart | rfl
    · have hOther := hBound ⟨start, hStart, rfl⟩
      rw [hStep start hStart]
      exact (Int.add_le_add_right hOther _).trans (le_max_left _ _)
    · rw [surplus_self]
      exact le_max_right _ _

/-- The level of a line is the greatest surplus that ends with it. -/
theorem isGreatest_level {lines : List (Char × Char)} {here i : Nat}
    (hHere : (levels 0 lines)[i]? = some here) : IsGreatest (surpluses lines i) here := by
  induction i generalizing here with
  | zero =>
      rw [getElem?_levels_zero] at hHere
      obtain ⟨line, -, rfl⟩ := Option.map_eq_some_iff.1 hHere
      have hZero : levelOf 0 line.1 = 0 := by
        unfold levelOf
        split <;> rfl
      rw [hZero]
      refine ⟨⟨0, Nat.le_refl 0, (surplus_self lines 0).symm⟩, ?_⟩
      rintro _ ⟨start, hStart, rfl⟩
      rw [Nat.le_zero.1 hStart, surplus_self]
      exact Int.le_refl 0
  | succ i ih =>
      have hLength := (List.getElem?_eq_some_iff.1 hHere).1
      rw [length_levels] at hLength
      have hLine := List.getElem?_eq_getElem (Nat.lt_of_succ_lt hLength)
      have hNext := List.getElem?_eq_getElem hLength
      obtain ⟨before, hBefore⟩ : ∃ before, (levels 0 lines)[i]? = some before :=
        ⟨_, List.getElem?_eq_getElem (by rw [length_levels]; omega)⟩
      rw [getElem?_levels_succ hBefore hLine hNext] at hHere
      obtain rfl := Option.some.inj hHere
      exact isGreatest_surpluses_succ (ih hBefore) hLine hNext

/-- Counting the level modulo the size of a word makes no difference exactly if the level is a
word, the unit is zero, or the greatest padding is reached all the same. -/
theorem min_mod_eq_iff (unit : UInt32) (level : Nat) :
    min (level % UInt32.size * unit.toNat) maxPadding = min (unit.toNat * level) maxPadding ↔
      level < UInt32.size ∨ unit = 0 ∨ maxPadding ≤ level % UInt32.size * unit.toNat := by
  rw [Nat.mul_comm unit.toNat level]
  rcases Nat.lt_or_ge level UInt32.size with hWord | hLong
  · simp [Nat.mod_eq_of_lt hWord, hWord]
  by_cases hZero : unit = 0
  · simp [hZero]
  have hUnit : 0 < unit.toNat := by
    rw [Nat.pos_iff_ne_zero]
    exact fun h => hZero (UInt32.toNat_inj.1 h)
  have hLess : level % UInt32.size * unit.toNat < level * unit.toNat :=
    Nat.mul_lt_mul_of_pos_right
      (Nat.lt_of_lt_of_le (Nat.mod_lt level (by decide)) hLong) hUnit
  have hNot : ¬ level < UInt32.size := Nat.not_lt.2 hLong
  simp only [hNot, hZero, false_or]
  omega

/-- The padding of a line. Its level is the greatest surplus that ends with it, and the padding
is that of the level modulo the size of a word. It is the multiple of the level itself, up to the
greatest padding, exactly if the level is a word, the unit is zero, or the greatest padding is
reached all the same. -/
theorem paddings_eq_surplus (unit : UInt32) (lines : List (Char × Char)) {i : Nat}
    (hLine : i < lines.length) :
    ∃ level : Nat, IsGreatest (surpluses lines i) level ∧
      (paddings unit 0 (lines.map some))[i]? =
        some (some (min (level % UInt32.size * unit.toNat) maxPadding)) ∧
      ((paddings unit 0 (lines.map some))[i]? =
          some (some (min (unit.toNat * level) maxPadding)) ↔
        level < UInt32.size ∨ unit = 0 ∨ maxPadding ≤ level % UInt32.size * unit.toNat) := by
  obtain ⟨level, hLevel⟩ : ∃ level, (levels 0 lines)[i]? = some level :=
    ⟨_, List.getElem?_eq_getElem (by rwa [length_levels])⟩
  have hPadding : (paddings unit 0 (lines.map some))[i]? =
      some (some (min (level % UInt32.size * unit.toNat) maxPadding)) := by
    rw [paddings_eq_levels, List.getElem?_map, hLevel]
    rfl
  refine ⟨level, isGreatest_level hLevel, hPadding, ?_⟩
  rw [hPadding, Option.some_inj, Option.some_inj]
  exact min_mod_eq_iff unit level

/-- Surplus closers at the start are not remembered by the lines after them. -/
theorem paddings_eq_surplus_closers :
    let lines := [(')', ';'), ('}', '}'), ('a', '{'), ('b', ';')]
    3 < lines.length ∧ IsGreatest (surpluses lines 3) 1 ∧
      (paddings 20 0 (lines.map some))[3]? = some (some 20) := by
  intro lines
  have hLine : 3 < lines.length := by decide
  have hOne : IsGreatest (surpluses lines 3) (1 : Nat) := isGreatest_level rfl
  obtain ⟨level, hLevel, hPadding, -⟩ := paddings_eq_surplus 20 lines hLine
  obtain rfl : level = 1 := Int.ofNat_inj.1 (hLevel.unique hOne)
  exact ⟨hLine, hOne, hPadding⟩

theorem getElem?_levels_replicate (level : Nat) {i count : Nat} (h : i < count) :
    (levels level (List.replicate count ('{', '{')))[i]? = some (level + i) := by
  induction count generalizing level i with
  | zero => exact absurd h (Nat.not_lt_zero i)
  | succ count ih =>
      have hOpens : levels level (List.replicate (count + 1) ('{', '{')) =
          level :: levels (level + 1) (List.replicate count ('{', '{')) := rfl
      rw [hOpens]
      cases i with
      | zero => rfl
      | succ i =>
          rw [List.getElem?_cons_succ, ih _ (Nat.lt_of_succ_lt_succ h), Nat.add_assoc,
            Nat.add_comm 1 i]

/-- Behind as many opening lines as there are words a line has no padding at all, where the
multiple of its level is beyond the greatest padding. -/
theorem paddings_replicate_eq_zero :
    let lines := List.replicate (UInt32.size + 1) ('{', '{')
    IsGreatest (surpluses lines UInt32.size) UInt32.size ∧
      (paddings 1 0 (lines.map some))[UInt32.size]? = some (some 0) ∧
      min (1 * UInt32.size) maxPadding = 4294967295 := by
  intro lines
  have hLevel : (levels 0 lines)[UInt32.size]? = some UInt32.size := by
    rw [getElem?_levels_replicate 0 (Nat.lt_succ_self _), Nat.zero_add]
  have hWraps : padding 1 UInt32.size = 0 := by decide
  refine ⟨isGreatest_level hLevel, ?_, by decide⟩
  rw [paddings_eq_levels, List.getElem?_map, hLevel, Option.map_some, hWraps]

end CodeListing.Indentation
