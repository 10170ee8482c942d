import CodeListing.Pattern.Bracketed
import CodeListing.Pattern.Neutral
import CodeListing.Pattern.Opening
import CodeListing.Pattern.Repetition

/-! # Well-formed patterns

A pattern is read part by part, with a scope for each group that is open. Of
what was read a scope keeps the nesting levels, since a pattern may be well
formed in every other way and still be nested too deep. A text is accepted as a
regular expression if it is not empty and its neutral form is well formed.
-/

namespace CodeListing.Pattern

/-- A part of an alternative. -/
inductive Part where
  /-- Something that matches, with its level. -/
  | item (level : Nat)
  /-- A setting of flags, which cannot be repeated. -/
  | setting
  deriving Repr, DecidableEq

namespace Part

def level : Part → Nat
  | .item level => level
  | .setting => 0

end Part

/-- A group whose end has not been read, or the whole pattern. -/
structure Scope where
  /-- The levels of the alternatives that have ended. -/
  finished : List Nat
  /-- The parts of the alternative that has not ended, the last first. -/
  parts : List Part
  /-- Whether the pattern is extended from here on. -/
  extended : Bool
  deriving Repr, DecidableEq

namespace Scope

def empty (extended : Bool) : Scope :=
  ⟨[], [], extended⟩

/-- The level of the alternative that has not ended. -/
def alternative (scope : Scope) : Nat :=
  nesting (scope.parts.map Part.level)

/-- The level of everything read in the scope. -/
def level (scope : Scope) : Nat :=
  nesting (scope.alternative :: scope.finished)

def push (part : Part) (scope : Scope) : Scope :=
  { scope with parts := part :: scope.parts }

def endAlternative (scope : Scope) : Scope :=
  { scope with finished := scope.alternative :: scope.finished, parts := [] }

/-- The scope with its last part repeated; there must be one that can be. -/
def repeatLast (scope : Scope) : Option Scope :=
  match scope.parts with
  | .item level :: parts => some { scope with parts := .item (enclosing [level]) :: parts }
  | _ => none

end Scope

/-- What has been read of a pattern. -/
structure State where
  /-- The innermost open scope. -/
  scope : Scope
  /-- The scopes around it, the nearest first. -/
  outer : List Scope
  /-- The names of groups so far. -/
  names : List (List Char)
  deriving Repr, DecidableEq

namespace State

def initial : State :=
  ⟨.empty false, [], []⟩

def isComplete (state : State) : Bool :=
  state.outer.isEmpty && state.scope.level ≤ maxNesting

def push (part : Part) (state : State) : State :=
  { state with scope := state.scope.push part }

def openScope (state : State) (extended : Bool) : State :=
  { state with scope := .empty extended, outer := state.scope :: state.outer }

/-- The state after what an opening parenthesis begins. -/
def enter (state : State) : Opening → Option State
  | .plain => some (state.openScope state.scope.extended)
  | .named name =>
    if state.names.contains name then none
    else some { (state.openScope state.scope.extended) with names := name :: state.names }
  | .flagged extended => some (state.openScope (extended.getD state.scope.extended))
  | .setting extended =>
    let scope := state.scope.push .setting
    some { state with scope := { scope with extended := extended.getD scope.extended } }

/-- The state after a closing parenthesis; a group must be open. -/
def leave (state : State) : Option State :=
  match state.outer with
  | [] => none
  | parent :: outer =>
    some { state with scope := parent.push (.item (enclosing [state.scope.level])), outer := outer }

/-- Reads what `c` begins, with `rest` after it. -/
def read (state : State) (c : Char) (rest : List Char) : Option (State × List Char) :=
  let extended := state.scope.extended
  if c = '(' then
    match readOpening extended rest with
    | none => none
    | some (opening, rest) => (state.enter opening).map (·, rest)
  else if c = ')' then state.leave.map (·, rest)
  else if c = '|' then some ({ state with scope := state.scope.endAlternative }, rest)
  else if c = '[' then
    (readClass extended rest).map fun (level, rest) => (state.push (.item level), rest)
  else if c = '*' || c = '+' || c = '?' || c = '{' then
    match state.scope.repeatLast with
    | none => none
    | some scope => (readRepetition extended c rest).map ({ state with scope := scope }, ·)
  else (readAtom extended c rest).map fun (_, rest) => (state.push (.item 0), rest)

end State

/-- Reading consumes at least the character that is read. -/
theorem State.length_read {state next : State} {c : Char} {text rest : List Char}
    (h : state.read c text = some (next, rest)) : rest.length ≤ text.length := by
  simp only [State.read] at h
  split at h
  · split at h
    · cases h
    · rename_i hOpening
      obtain ⟨_, _, hEq⟩ := Option.map_eq_some_iff.1 h
      cases hEq
      exact length_readOpening hOpening
  · split at h
    · obtain ⟨_, _, hEq⟩ := Option.map_eq_some_iff.1 h
      cases hEq
      exact Nat.le_refl _
    · split at h
      · cases h
        exact Nat.le_refl _
      · split at h
        · obtain ⟨_, hClass, hEq⟩ := Option.map_eq_some_iff.1 h
          cases hEq
          exact length_readClass hClass
        · split at h
          · split at h
            · cases h
            · obtain ⟨_, hRepetition, hEq⟩ := Option.map_eq_some_iff.1 h
              cases hEq
              exact length_readRepetition hRepetition
          · obtain ⟨_, hAtom, hEq⟩ := Option.map_eq_some_iff.1 h
            cases hEq
            exact length_readAtom hAtom

/-- Whether the rest of a pattern is well formed after what has been read of it. -/
def isWellFormedFrom (state : State) (text : List Char) : Bool :=
  match _hText : skip state.scope.extended text with
  | [] => state.isComplete
  | c :: rest =>
    match _hRead : state.read c rest with
    | none => false
    | some (next, rest) => isWellFormedFrom next rest
termination_by text.length
decreasing_by
  have hSkip := length_skip_le state.scope.extended text
  have hRest := State.length_read _hRead
  simp only [_hText, List.length_cons] at hSkip
  omega

/-- Whether a pattern of the core notation is well formed. -/
def isWellFormed (pattern : List Char) : Bool :=
  isWellFormedFrom .initial pattern

/-- Whether the text between two slashes can be a regular expression. -/
def isPattern (text : List Char) : Bool :=
  !text.isEmpty && isWellFormed (neutral text)

end CodeListing.Pattern
