import CodeListing.Proofs.Concatenation
import CodeListing.Proofs.Paddings

/-! # Blocks of lines

In balanced lines every block that a line opens is closed by a later line, and
middle lines may divide it into parts. What a block adds to the level it takes
away again, so its edges stand at the level of the lines around the block and
all that it holds stands further in. The level never stops at zero on the way.
-/

namespace CodeListing.Indentation

/-- What a line does to the blocks around it. -/
inductive Role where
  | neutral
  /-- The line begins a block. -/
  | opening
  /-- The line ends a block. -/
  | closing
  /-- The line ends one part of a block and begins the next, like `} else {`. -/
  | middle
  deriving Repr, DecidableEq

namespace Role

def closes : Role → Bool
  | .closing | .middle => true
  | _ => false

def opens : Role → Bool
  | .opening | .middle => true
  | _ => false

def of (line : Char × Char) : Role :=
  match isCloser line.1, isOpener line.2 with
  | false, false => .neutral
  | false, true => .opening
  | true, false => .closing
  | true, true => .middle

theorem ends_of (line : Char × Char) :
    isCloser line.1 = (of line).closes ∧ isOpener line.2 = (of line).opens := by
  unfold of
  split <;> exact ⟨‹_›, ‹_›⟩

end Role

/-- Where a line of a block stands. -/
inductive Place where
  /-- The line opens or closes the block, or divides it. -/
  | edge
  | inside
  deriving Repr, DecidableEq

/-- A line that opens a block, the lines after it, middle lines with the lines after each, and
the line that closes the block. -/
structure Block where
  opening : Char × Char
  body : List (Char × Char)
  parts : List ((Char × Char) × List (Char × Char))
  closing : Char × Char
  deriving Repr, DecidableEq

namespace Block

/-- A middle line and the lines after it, each with its place in the block. -/
def placePart (part : (Char × Char) × List (Char × Char)) : List (Place × (Char × Char)) :=
  (.edge, part.1) :: part.2.map (.inside, ·)

def placed (block : Block) : List (Place × (Char × Char)) :=
  (.edge, block.opening) :: (block.body.map (.inside, ·) ++
    (block.parts.flatMap placePart ++ [(.edge, block.closing)]))

def lines (block : Block) : List (Char × Char) :=
  block.placed.map (·.2)

end Block

/-- Lines in which every block is closed: neutral lines and blocks one after another, where
what a block holds is balanced as well. -/
inductive Balanced : List (Char × Char) → Prop where
  | nil : Balanced []
  | neutral {line : Char × Char} {lines : List (Char × Char)} (role : Role.of line = .neutral)
      (later : Balanced lines) : Balanced (line :: lines)
  | block {block : Block} {lines : List (Char × Char)}
      (opening : Role.of block.opening = .opening) (body : Balanced block.body)
      (middles : ∀ part ∈ block.parts, Role.of part.1 = .middle)
      (bodies : ∀ part ∈ block.parts, Balanced part.2)
      (closing : Role.of block.closing = .closing) (later : Balanced lines) :
      Balanced (block.lines ++ lines)

structure Block.IsBalanced (block : Block) : Prop where
  opening : Role.of block.opening = .opening
  body : Balanced block.body
  middles : ∀ part ∈ block.parts, Role.of part.1 = .middle
  bodies : ∀ part ∈ block.parts, Balanced part.2
  closing : Role.of block.closing = .closing

/-- Whether a line of a block at `level` stands at `here`, given its place. -/
def StandsAt (level : Nat) (line : Place × (Char × Char)) (here : Nat) : Prop :=
  match line.1 with
  | .edge => here = level
  | .inside => level < here

theorem levels_append (level : Nat) (first second : List (Char × Char)) :
    levels level (first ++ second) =
      levels level first ++ levels (levelAfterLines level (first.map some)) second := by
  induction first generalizing level with
  | nil => rfl
  | cons line lines ih =>
      rw [List.cons_append, levels, ih, levels, List.cons_append]
      rfl

theorem levelAfterLines_append (level : Nat) (first second : List (Char × Char)) :
    levelAfterLines level ((first ++ second).map some) =
      levelAfterLines (levelAfterLines level (first.map some)) (second.map some) := by
  induction first generalizing level with
  | nil => rfl
  | cons line lines ih => exact ih _

/-- The lines leave the level as it was and never go below it. -/
structure Keeps (lines : List (Char × Char)) : Prop where
  after : ∀ level, levelAfterLines level (lines.map some) = level
  above : ∀ level, ∀ here ∈ levels level lines, level ≤ here

/-- The lines bring the level from `start` to `stop`, and in a block at `level` each stands where
its place says. -/
structure Fits (level start stop : Nat) (placed : List (Place × (Char × Char))) : Prop where
  after : levelAfterLines start ((placed.map (·.2)).map some) = stop
  stand : List.Forall₂ (StandsAt level) placed (levels start (placed.map (·.2)))

namespace Fits

variable {level start stop : Nat}

theorem append {middle : Nat} {first second : List (Place × (Char × Char))}
    (h : Fits level start middle first) (h' : Fits level middle stop second) :
    Fits level start stop (first ++ second) where
  after := by rw [List.map_append, levelAfterLines_append, h.after, h'.after]
  stand := by
    rw [List.map_append, levels_append, h.after]
    exact List.rel_append h.stand h'.stand

/-- A line at the edge of a block goes back to the level of the block before it stands. -/
theorem edge {line : Char × Char}
    (hBefore : start = level + if (Role.of line).closes then 1 else 0)
    (hAfter : stop = level + if (Role.of line).opens then 1 else 0) :
    Fits level start stop [(.edge, line)] := by
  obtain ⟨hCloser, hOpener⟩ := Role.ends_of line
  have hHere : levelOf start line.1 = level := by
    rw [levelOf, hCloser, hBefore]
    split <;> rfl
  have hNext : levelAfter level line.2 = stop := by
    rw [levelAfter, hOpener, hAfter]
    split <;> rfl
  constructor
  · show levelAfter (levelOf start line.1) line.2 = stop
    rw [hHere, hNext]
  · exact .cons hHere .nil

theorem inside {lines : List (Char × Char)} (h : Keeps lines) :
    Fits level (level + 1) (level + 1) (lines.map (.inside, ·)) := by
  have hLines : (lines.map (Place.inside, ·)).map (·.2) = lines := by
    rw [List.map_map]
    exact List.map_id lines
  constructor
  · rw [hLines]
    exact h.after _
  · rw [hLines, List.forall₂_map_left_iff, List.forall₂_iff_get]
    refine ⟨(length_levels _ _).symm, fun i _ hi => ?_⟩
    exact h.above _ _ (List.get_mem _ _)

theorem part {part : (Char × Char) × List (Char × Char)} (hRole : Role.of part.1 = .middle)
    (hBody : Keeps part.2) : Fits level (level + 1) (level + 1) (Block.placePart part) :=
  (edge (by rw [hRole]; rfl) (by rw [hRole]; rfl)).append (inside hBody)

theorem parts {parts : List ((Char × Char) × List (Char × Char))}
    (hRoles : ∀ part ∈ parts, Role.of part.1 = .middle)
    (hBodies : ∀ part ∈ parts, Keeps part.2) :
    Fits level (level + 1) (level + 1) (parts.flatMap Block.placePart) := by
  induction parts with
  | nil => exact ⟨rfl, .nil⟩
  | cons first parts ih =>
      obtain ⟨hRole, hRoles⟩ := List.forall_mem_cons.1 hRoles
      obtain ⟨hBody, hBodies⟩ := List.forall_mem_cons.1 hBodies
      exact (part hRole hBody).append (ih hRoles hBodies)

theorem block {block : Block} (hOpening : Role.of block.opening = .opening)
    (hBody : Keeps block.body) (hMiddles : ∀ part ∈ block.parts, Role.of part.1 = .middle)
    (hBodies : ∀ part ∈ block.parts, Keeps part.2)
    (hClosing : Role.of block.closing = .closing) : Fits level level level block.placed :=
  (edge (by rw [hOpening]; rfl) (by rw [hOpening]; rfl)).append
    ((inside hBody).append ((parts hMiddles hBodies).append
      (edge (by rw [hClosing]; rfl) (by rw [hClosing]; rfl))))

theorem keeps {placed : List (Place × (Char × Char))}
    (h : ∀ level, Fits level level level placed) : Keeps (placed.map (·.2)) where
  after level := (h level).after
  above level here hHere := by
    obtain ⟨i, hi, rfl⟩ := List.getElem_of_mem hHere
    have hStand := (h level).stand.get ((h level).stand.length_eq ▸ hi) hi
    unfold StandsAt at hStand
    split at hStand
    · exact Nat.le_of_eq hStand.symm
    · exact Nat.le_of_lt hStand

end Fits

theorem Keeps.append {first second : List (Char × Char)} (h : Keeps first) (h' : Keeps second) :
    Keeps (first ++ second) where
  after level := by rw [levelAfterLines_append, h.after, h'.after]
  above level here hHere := by
    rw [levels_append, h.after] at hHere
    rcases List.mem_append.1 hHere with hHere | hHere
    · exact h.above level here hHere
    · exact h'.above level here hHere

theorem Balanced.keeps {lines : List (Char × Char)} (h : Balanced lines) : Keeps lines := by
  induction h with
  | nil => exact ⟨fun _ => rfl, nofun⟩
  | @neutral line _ role _ ih =>
      have hLine (level : Nat) : Fits level level level [(.edge, line)] :=
        .edge (by rw [role]; rfl) (by rw [role]; rfl)
      exact (Fits.keeps hLine).append ih
  | block opening _ middles _ closing _ ihBody ihBodies ih =>
      refine (Fits.keeps fun level => ?_).append ih
      exact Fits.block opening ihBody middles ihBodies closing

theorem Block.IsBalanced.fits {block : Block} (h : block.IsBalanced) (level : Nat) :
    Fits level level level block.placed :=
  .block h.opening h.body.keeps h.middles (fun part hPart => (h.bodies part hPart).keeps) h.closing

theorem extract_levels (level : Nat) (before lines after : List (Char × Char)) :
    (levels level (before ++ (lines ++ after))).extract before.length
        (before.length + lines.length) =
      levels (levelAfterLines level (before.map some)) lines := by
  rw [levels_append, levels_append, List.extract_eq_take_drop, Nat.add_sub_cancel_left,
    List.drop_left' (length_levels ..), List.take_left' (length_levels ..)]

/-- Balanced lines are indented as blocks. The lines after them stand as if they were not there,
and a line or a block with only balanced lines before it stands at the level before all of them.
Of every block, wherever it is, the lines at its edge stand at one level and the lines inside
further in. -/
theorem paddings_of_balanced (unit : UInt32) (level : Nat) {lines : List (Char × Char)}
    (hLines : Balanced lines) (hWords : ∀ here ∈ levels level lines, here < UInt32.size) :
    levelAfterLines level (lines.map some) = level ∧
    paddings unit level (lines.map some) =
      (levels level lines).map (fun here => some (min (unit.toNat * here) maxPadding)) ∧
    (∀ before line after, lines = before ++ line :: after → Role.of line = .neutral →
      Balanced before → (levels level lines)[before.length]? = some level) ∧
    ∀ before (block : Block) after, lines = before ++ (block.lines ++ after) → block.IsBalanced →
      ∃ edge, (Balanced before → edge = level) ∧
        List.Forall₂ (StandsAt edge) block.placed
          ((levels level lines).extract before.length (before.length + block.lines.length)) := by
  refine ⟨hLines.keeps.after level, ?_, ?_, ?_⟩
  · rw [paddings_eq_levels]
    refine List.map_congr_left fun here hHere => ?_
    rw [padding_of_lt unit (hWords here hHere), Nat.mul_comm]
  · rintro before line after rfl hRole hBefore
    rw [levels_append, List.getElem?_append_right (Nat.le_of_eq (length_levels ..)),
      length_levels, Nat.sub_self, hBefore.keeps.after, getElem?_levels_zero,
      List.getElem?_cons_zero, Option.map_some, levelOf, (Role.ends_of line).1, hRole]
    rfl
  · rintro before block after rfl hBlock
    refine ⟨_, fun hBefore => hBefore.keeps.after level, ?_⟩
    rw [extract_levels]
    exact (hBlock.fits _).stand

/-- An `if` with an `else` around a nested block, and a line after them. -/
theorem paddings_of_balanced_else :
    let inner : Block := ⟨('f', '('), [('x', ',')], [], (')', ';')⟩
    let outer : Block :=
      ⟨('i', '\x7b'), inner.lines, [(('\x7d', '\x7b'), [('y', ';')])], ('\x7d', '\x7d')⟩
    let lines := outer.lines ++ [('z', ';')]
    Balanced lines ∧ (∀ here ∈ levels 3 lines, here < UInt32.size) ∧
      paddings 20 3 (lines.map some) = [60, 80, 100, 80, 60, 80, 60, 60].map some ∧
      ∃ edge, (Balanced [] → edge = 3) ∧
        List.Forall₂ (StandsAt edge) outer.placed [3, 4, 5, 4, 3, 4, 3] := by
  intro inner outer lines
  have hInner : inner.IsBalanced := ⟨rfl, .neutral rfl .nil, nofun, nofun, rfl⟩
  have hOuter : outer.IsBalanced := by
    refine ⟨rfl, ?_, ?_, ?_, rfl⟩
    · exact .block hInner.opening hInner.body hInner.middles hInner.bodies hInner.closing .nil
    · simp [outer, Role.of, isCloser, isOpener]
    · simpa [outer] using Balanced.neutral rfl .nil
  have hLines : Balanced lines :=
    .block hOuter.opening hOuter.body hOuter.middles hOuter.bodies hOuter.closing
      (.neutral rfl .nil)
  have hWords : ∀ here ∈ levels 3 lines, here < UInt32.size := by decide
  obtain ⟨-, hPaddings, -, hBlock⟩ := paddings_of_balanced 20 3 hLines hWords
  exact ⟨hLines, hWords, hPaddings, hBlock [] outer [('z', ';')] rfl hOuter⟩

end CodeListing.Indentation
