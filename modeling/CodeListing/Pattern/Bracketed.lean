import CodeListing.Pattern.Atom
import CodeListing.Pattern.Nesting

/-! # Bracketed classes

A class lists characters, ranges, escapes and further classes between square
brackets, and may combine such lists by the operators `&&`, `--` and `~~`. Only
its form is checked, so all that is kept of a class is how deep it is nested.
-/

namespace CodeListing.Pattern

/-- A class whose closing bracket has not been read. -/
structure OpenClass where
  /-- The level of the operand on the left of the last operator. -/
  operand : Option Nat
  /-- The levels of the items since then. -/
  items : List Nat
  deriving Repr, DecidableEq

namespace OpenClass

/-- The level of what has been read of the class. -/
def content (begun : OpenClass) : Nat :=
  match begun.operand with
  | none => nesting begun.items
  | some level => enclosing [level, nesting begun.items]

def level (begun : OpenClass) : Nat :=
  enclosing [begun.content]

/-- The class with one more item of the given level. -/
def add (level : Nat) (begun : OpenClass) : OpenClass :=
  { begun with items := level :: begun.items }

/-- The class with an operator, of which all that was read is the left operand. -/
def operate (begun : OpenClass) : OpenClass :=
  ⟨some begun.content, []⟩

end OpenClass

/-- The names that may stand in `[:name:]` inside a class. -/
def namedClasses : List String :=
  ["alnum", "alpha", "ascii", "blank", "cntrl", "digit", "graph", "lower", "print", "punct",
   "space", "upper", "word", "xdigit"]

def readClassName (text : List Char) : Option (List Char) :=
  match text.dropWhile (· ≠ ':') with
  | ':' :: ']' :: rest =>
    if namedClasses.contains (String.ofList (text.takeWhile (· ≠ ':'))) then some rest else none
  | _ => none

def readNamedClass : List Char → Option (List Char)
  | ':' :: '^' :: text => readClassName text
  | ':' :: text => readClassName text
  | _ => none

def next? (extended : Bool) (text : List Char) : Option (Char × List Char) :=
  match skip extended text with
  | [] => none
  | c :: rest => some (c, rest)

theorem length_next? {extended : Bool} {c : Char} {text rest : List Char}
    (h : next? extended text = some (c, rest)) : rest.length < text.length := by
  have hSkip := length_skip_le extended text
  unfold next? at h
  split at h
  · cases h
  · rename_i hText
    cases h
    simp only [hText, List.length_cons] at hSkip
    omega

/-- Reads the dashes that stand for themselves at the start of a class, of which
`count` came before `c`. Something must follow them. -/
def readDashes (extended : Bool) (count : Nat) (c : Char) (rest : List Char) :
    Option (Nat × List Char) :=
  if c = '-' then
    match _h : next? extended rest with
    | none => none
    | some (d, after) => readDashes extended (count + 1) d after
  else some (count, c :: rest)
termination_by rest.length
decreasing_by exact length_next? _h

/-- The first character of a class after a caret, if there is one. -/
def readCaret (extended : Bool) (text : List Char) : Option (Char × List Char) :=
  match next? extended text with
  | some ('^', rest) => next? extended rest
  | first => first

/-- Reads the start of a class after its bracket: a caret, then dashes, or without
these a closing bracket that stands for itself. -/
def readClassStart (extended : Bool) (text : List Char) : Option (OpenClass × List Char) :=
  match readCaret extended text with
  | none => none
  | some (c, rest) =>
    match readDashes extended 0 c rest with
    | none => none
    | some (0, ']' :: rest) =>
      (next? extended rest).map fun (d, after) => (⟨none, [0]⟩, d :: after)
    | some (count, text) => some (⟨none, List.replicate count 0⟩, text)

/-- Reads the end of a range after its dash. Both ends of a range are single
characters, and they are in order. -/
def readRangeEnd (extended : Bool) (first : Atom) (text : List Char) : Option (List Char) :=
  match next? extended text with
  | none => none
  | some (c, rest) =>
    match first, readAtom extended c rest with
    | .literal low, some (.literal high, after) =>
      if low.toNat ≤ high.toNat then some after else none
    | _, _ => none

/-- Reads the item of a class that `c` begins: an atom or a range. A dash makes a
range unless the class ends or another dash follows it. -/
def readItem (extended : Bool) (c : Char) (text : List Char) : Option (List Char) :=
  match readAtom extended c text with
  | none => none
  | some (first, text) =>
    match next? extended text with
    | none => none
    | some (d, rest) =>
      let ahead := peek extended rest
      if d = '-' && ahead ≠ some ']' && ahead ≠ some '-' then readRangeEnd extended first rest
      else if first = .boundary then none
      else some (d :: rest)

theorem length_readClassName {text rest : List Char} (h : readClassName text = some rest) :
    rest.length ≤ text.length := by
  have hDrop := (List.dropWhile_suffix (l := text) (fun c => decide (c ≠ ':'))).length_le
  simp only [readClassName] at h
  split at h
  · rename_i hText
    split at h
    · cases h
      simp only [hText, List.length_cons] at hDrop
      omega
    · cases h
  · cases h

theorem length_readNamedClass {text rest : List Char} (h : readNamedClass text = some rest) :
    rest.length ≤ text.length := by
  unfold readNamedClass at h
  split at h
  · exact Nat.le_succ_of_le (Nat.le_succ_of_le (length_readClassName h))
  · exact Nat.le_succ_of_le (length_readClassName h)
  · cases h

theorem length_readDashes {extended : Bool} {count result : Nat} {c : Char}
    {text rest : List Char} (h : readDashes extended count c text = some (result, rest)) :
    rest.length ≤ text.length + 1 := by
  fun_induction readDashes extended count c text with
  | case1 => cases h
  | case2 count text d after hNext ih =>
    have hShort := length_next? hNext
    have hRest := ih h
    omega
  | case3 =>
    cases h
    simp

theorem length_readCaret {extended : Bool} {c : Char} {text rest : List Char}
    (h : readCaret extended text = some (c, rest)) : rest.length < text.length := by
  unfold readCaret at h
  split at h
  · rename_i hCaret
    exact Nat.lt_trans (length_next? h) (length_next? hCaret)
  · exact length_next? h

theorem length_readClassStart {extended : Bool} {begun : OpenClass} {text rest : List Char}
    (h : readClassStart extended text = some (begun, rest)) : rest.length ≤ text.length := by
  unfold readClassStart at h
  split at h
  · cases h
  · rename_i hCaret
    have hTail := length_readCaret hCaret
    split at h
    · cases h
    · rename_i hDashes
      have hLeft := length_readDashes hDashes
      obtain ⟨⟨d, after⟩, hNext, hEq⟩ := Option.map_eq_some_iff.1 h
      have hAfter := length_next? hNext
      cases hEq
      simp only [List.length_cons] at hLeft ⊢
      omega
    · rename_i hDashes
      have hLeft := length_readDashes hDashes
      cases h
      omega

theorem length_readRangeEnd {extended : Bool} {first : Atom} {text rest : List Char}
    (h : readRangeEnd extended first text = some rest) : rest.length ≤ text.length := by
  unfold readRangeEnd at h
  split at h
  · cases h
  · rename_i hNext
    have hTail := length_next? hNext
    split at h
    · rename_i hAtom
      have hLeft := length_readAtom hAtom
      split at h
      · cases h
        omega
      · cases h
    · cases h

theorem length_readItem {extended : Bool} {c : Char} {text rest : List Char}
    (h : readItem extended c text = some rest) : rest.length ≤ text.length := by
  unfold readItem at h
  split at h
  · cases h
  · rename_i hAtom
    have hLeft := length_readAtom hAtom
    split at h
    · cases h
    · rename_i hNext
      have hTail := length_next? hNext
      simp only at h
      split at h
      · have hEnd := length_readRangeEnd h
        omega
      · split at h
        · cases h
        · cases h
          simp only [List.length_cons]
          omega

/-- Reads the rest of a class inside the classes `outer`, and gives the level of the
outermost. -/
def readClassRest (extended : Bool) (inner : OpenClass) (outer : List OpenClass)
    (text : List Char) : Option (Nat × List Char) :=
  match _hNext : next? extended text with
  | none => none
  | some ('[', rest) =>
    match _hNamed : readNamedClass rest with
    | some after => readClassRest extended (inner.add 0) outer after
    | none =>
      match _hStart : readClassStart extended rest with
      | none => none
      | some (nested, after) => readClassRest extended nested (inner :: outer) after
  | some (']', rest) =>
    match outer with
    | [] => some (inner.level, rest)
    | parent :: outer => readClassRest extended (parent.add inner.level) outer rest
  | some (c, rest) =>
    if (c = '&' || c = '-' || c = '~') && rest.head? = some c then
      readClassRest extended inner.operate outer (rest.drop 1)
    else
      match _hItem : readItem extended c rest with
      | none => none
      | some after => readClassRest extended (inner.add 0) outer after
termination_by text.length
decreasing_by
  all_goals have hNext := length_next? _hNext
  · have hNamed := length_readNamedClass _hNamed
    omega
  · have hStart := length_readClassStart _hStart
    omega
  · exact hNext
  · simp only [List.length_drop]
    omega
  · have hItem := length_readItem _hItem
    omega

/-- Reads a class after its bracket and gives its level. -/
def readClass (extended : Bool) (text : List Char) : Option (Nat × List Char) :=
  match readClassStart extended text with
  | none => none
  | some (inner, rest) => readClassRest extended inner [] rest

theorem length_readClassRest {extended : Bool} {inner : OpenClass} {outer : List OpenClass}
    {level : Nat} {text rest : List Char}
    (h : readClassRest extended inner outer text = some (level, rest)) :
    rest.length ≤ text.length := by
  fun_induction readClassRest extended inner outer text with
  | case1 => cases h
  | case2 inner outer text tail hNext after hNamed ih =>
    have hTail := length_next? hNext
    have hAfter := length_readNamedClass hNamed
    have hRest := ih h
    omega
  | case3 => cases h
  | case4 inner outer text tail hNext hNamed nested after hStart ih =>
    have hTail := length_next? hNext
    have hAfter := length_readClassStart hStart
    have hRest := ih h
    omega
  | case5 inner text tail hNext =>
    have hTail := length_next? hNext
    cases h
    omega
  | case6 inner text tail hNext parent outer ih =>
    have hTail := length_next? hNext
    have hRest := ih h
    omega
  | case7 inner outer text c tail hOpen hClose hNext hOperator ih =>
    have hTail := length_next? hNext
    have hRest := ih h
    simp only [List.length_drop] at hRest
    omega
  | case8 => cases h
  | case9 inner outer text c tail hOpen hClose hNext hOperator after hItem ih =>
    have hTail := length_next? hNext
    have hAfter := length_readItem hItem
    have hRest := ih h
    omega

theorem length_readClass {extended : Bool} {level : Nat} {text rest : List Char}
    (h : readClass extended text = some (level, rest)) : rest.length ≤ text.length := by
  unfold readClass at h
  split at h
  · cases h
  · rename_i hStart
    exact Nat.le_trans (length_readClassRest h) (length_readClassStart hStart)

end CodeListing.Pattern
