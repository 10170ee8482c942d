import CodeListing.Proofs.Regex.Reading
import Mathlib.Data.List.Perm.Basic

/-! # Which trees are accepted

The reader takes the parts of a tree one by one and keeps their levels, so reading the
neutral form of a tree does to the innermost scope what the tree says and leaves the
scopes around it alone. The reader never stops on the way: what it refuses, it refuses
at the end, for being nested too deep.
-/

namespace CodeListing

namespace Pattern

theorem isWellFormedFrom_nil {state : State} (hPlain : state.scope.extended = false) :
    isWellFormedFrom state [] = state.isComplete := by
  rw [isWellFormedFrom]
  split
  · rfl
  · rename_i hText
    rw [hPlain] at hText
    cases hText

theorem isWellFormedFrom_cons {state : State} (hPlain : state.scope.extended = false) (c : Char)
    (rest : List Char) :
    isWellFormedFrom state (c :: rest) =
      (state.read c rest).elim false fun step => isWellFormedFrom step.1 step.2 := by
  rw [isWellFormedFrom]
  split
  · rename_i hText
    rw [hPlain] at hText
    cases hText
  · rename_i hText
    rw [hPlain] at hText
    cases hText
    split
    · rename_i hNone
      rw [hNone, Option.elim_none]
    · rename_i hSome
      rw [hSome, Option.elim_some]

theorem isWellFormedFrom_of_read {state next : State} {c : Char} {rest left : List Char}
    (hPlain : state.scope.extended = false) (h : state.read c rest = some (next, left)) :
    isWellFormedFrom state (c :: rest) = isWellFormedFrom next left := by
  rw [isWellFormedFrom_cons hPlain, h, Option.elim_some]

theorem readOpening_plain {rest : List Char} (h : rest.head? ≠ some '?') :
    readOpening false rest = some (.plain, rest) := by
  unfold readOpening
  rw [skip_false]
  split
  case h_8 => rfl
  all_goals exact absurd rfl h

theorem skipLazy_append (isLazy : Bool) {rest : List Char} (h : rest.head? ≠ some '?') :
    skipLazy ((if isLazy then ['?'] else []) ++ rest) = rest := by
  cases isLazy with
  | true => rfl
  | false =>
      show skipLazy rest = rest
      unfold skipLazy
      split
      · exact absurd rfl h
      · rfl

end Pattern

namespace Regex

open Pattern Unicode

namespace Digits

theorem isBlank_of_isDigit {c : Char} (h : c.isDigit = true) : isBlank c = false := by
  obtain ⟨hLow, hHigh⟩ := Text.isDigit_iff.1 h
  have hAscii : c.toNat < 128 := by omega
  have hControl : ¬ c.toNat ≤ 13 := by omega
  have hSpace : c ≠ ' ' := by
    rintro rfl
    exact absurd hLow (by decide)
  simp [isBlank, isAscii, hAscii, hControl, hSpace]

theorem readDigits_append {c : Char} (hDigit : c.isDigit = false) (rest : List Char)
    {chars : List Char} (h : ∀ d ∈ chars, d.isDigit = true) (value : Nat) :
    readDigits false value (chars ++ c :: rest) =
      (chars.foldl (fun value c => value * 10 + (c.toNat - '0'.toNat)) value, c :: rest) := by
  induction chars generalizing value with
  | nil => simp [readDigits, hDigit]
  | cons d chars ih =>
      have hFirst := h d List.mem_cons_self
      rw [List.cons_append, readDigits, if_pos hFirst]
      exact ih (fun e he => h e (List.mem_cons_of_mem _ he)) _

theorem readNumber_append (digits : Digits) {c : Char} (hDigit : c.isDigit = false)
    (hBlank : isBlank c = false) (hFits : digits.value ≤ maxCount) (rest : List Char) :
    readNumber false (digits.chars ++ c :: rest) = some (digits.value, c :: rest) := by
  have hRead : readDigits false 0 (digits.chars ++ c :: rest) = (digits.value, c :: rest) :=
    readDigits_append hDigit rest digits.isDigit 0
  obtain ⟨d, more, hChars, hFirst⟩ := digits.exists_chars
  have hStart : (digits.chars ++ c :: rest).dropWhile isBlank = digits.chars ++ c :: rest := by
    simp [hChars, isBlank_of_isDigit hFirst]
  have hHead : (digits.chars ++ c :: rest).head?.any Char.isDigit = true := by
    simp [hChars, hFirst]
  rw [readNumber]
  simp only [hStart, if_pos hHead, hRead]
  rw [if_pos hFits, List.dropWhile_cons_of_neg (Bool.eq_false_iff.1 hBlank)]

end Digits

namespace Operator

theorem readCount_exactly (count : Digits) (h : count.value ≤ maxCount) (rest : List Char) :
    readCount false (count.chars ++ '}' :: rest) = some (skipLazy rest) := by
  simp [readCount, count.readNumber_append (c := '}') rfl rfl h]

theorem readCount_atLeast (least : Digits) (h : least.value ≤ maxCount) (rest : List Char) :
    readCount false (least.chars ++ ',' :: '}' :: rest) = some (skipLazy rest) := by
  simp [readCount, least.readNumber_append (c := ',') rfl rfl h]

theorem readCount_between (least most : Digits) (hOrder : least.value ≤ most.value)
    (h : most.value ≤ maxCount) (rest : List Char) :
    readCount false (least.chars ++ ',' :: (most.chars ++ '}' :: rest)) =
      some (skipLazy rest) := by
  have hLeast := least.readNumber_append (c := ',') rfl rfl (Nat.le_trans hOrder h)
    (most.chars ++ '}' :: rest)
  have hMost := most.readNumber_append (c := '}') rfl rfl h rest
  obtain ⟨d, more, hChars, hFirst⟩ := most.exists_chars
  have hd : d ≠ '}' := by
    rintro rfl
    cases hFirst
  rw [hChars, List.cons_append] at hLeast hMost ⊢
  simp [readCount, hLeast, hMost, hd, hOrder]

theorem readRepetition_write (operator : Operator) : ∃ c text, operator.write = c :: text ∧
    (c = '*' || c = '+' || c = '?' || c = '{') = true ∧
    ∀ rest, readRepetition false c (text ++ rest) = some (skipLazy rest) := by
  cases operator with
  | star => exact ⟨'*', [], rfl, rfl, fun rest => rfl⟩
  | plus => exact ⟨'+', [], rfl, rfl, fun rest => rfl⟩
  | question => exact ⟨'?', [], rfl, rfl, fun rest => rfl⟩
  | exactly count hFits =>
      refine ⟨'{', _, rfl, rfl, fun rest => ?_⟩
      rw [List.append_assoc]
      exact readCount_exactly count hFits rest
  | atLeast least hFits =>
      refine ⟨'{', _, rfl, rfl, fun rest => ?_⟩
      rw [List.append_assoc]
      exact readCount_atLeast least hFits rest
  | between least most hOrder hFits =>
      refine ⟨'{', _, rfl, rfl, fun rest => ?_⟩
      simp only [List.append_assoc, List.cons_append]
      exact readCount_between least most hOrder hFits rest

end Operator

/-- The characters that begin something else than an atom. -/
def isTermReserved (c : Char) : Bool :=
  c = '(' || c = ')' || c = '|' || c = '[' || c = '*' || c = '+' || c = '?' || c = '{'

theorem isTermReserved_of_forall_ne {c : Char}
    (h : ∀ d, isMeta d = true → isLiteral d = false → c ≠ d) : isTermReserved c = false := by
  simp only [isTermReserved, Bool.or_eq_false_iff, decide_eq_false_iff_not]
  exact ⟨⟨⟨⟨⟨⟨⟨h _ rfl rfl, h _ rfl rfl⟩, h _ rfl rfl⟩, h _ rfl rfl⟩, h _ rfl rfl⟩, h _ rfl rfl⟩,
    h _ rfl rfl⟩, h _ rfl rfl⟩

section

variable {state : State} (hPlain : state.scope.extended = false)

include hPlain

theorem isWellFormedFrom_quantifier (quantifier : Option Quantifier) (level : Nat)
    {rest : List Char} (hRest : rest.head? ≠ some '?') :
    isWellFormedFrom (state.push (.item level)) (Quantifier.write quantifier ++ rest) =
      isWellFormedFrom (state.push (.item (Quantifier.level quantifier level))) rest := by
  cases quantifier with
  | none => rfl
  | some quantifier =>
      obtain ⟨operator, isLazy⟩ := quantifier
      obtain ⟨c, text, hWrite, hOperator, hRead⟩ := operator.readRepetition_write
      rw [Quantifier.write, hWrite, List.append_assoc, List.cons_append]
      refine isWellFormedFrom_of_read hPlain ?_
      simp only [Bool.or_eq_true, decide_eq_true_eq] at hOperator
      rcases hOperator with ((rfl | rfl) | rfl) | rfl
      all_goals
        simp [State.read, State.push, Scope.push, Scope.repeatLast, hPlain, hRead,
          skipLazy_append isLazy hRest, Quantifier.level]

theorem isWellFormedFrom_atom {c : Char} {text rest : List Char} {atom : Atom}
    (hReserved : isTermReserved c = false)
    (hRead : readAtom false c text = some (atom, rest)) :
    isWellFormedFrom state (c :: text) = isWellFormedFrom (state.push (.item 0)) rest := by
  refine isWellFormedFrom_of_read hPlain ?_
  simp only [isTermReserved, Bool.or_eq_false_iff, decide_eq_false_iff_not] at hReserved
  simp [State.read, hPlain, hRead, hReserved]

theorem isWellFormedFrom_assertion (place : Assertion) (rest : List Char) :
    isWellFormedFrom state (place.write ++ rest) =
      isWellFormedFrom (state.push (.item 0)) rest := by
  cases place with
  | start => exact isWellFormedFrom_atom hPlain rfl rfl
  | stop => exact isWellFormedFrom_atom hPlain rfl rfl
  | boundary => exact isWellFormedFrom_atom hPlain rfl rfl
  | interior => exact isWellFormedFrom_atom hPlain rfl rfl

theorem isWellFormedFrom_opener (opener : Opener) {rest : List Char}
    (hRest : rest.head? ≠ some '?') :
    isWellFormedFrom state (opener.neutral ++ rest) =
      isWellFormedFrom (state.openScope false) rest := by
  cases opener with
  | capture =>
      refine isWellFormedFrom_of_read hPlain ?_
      simp [State.read, hPlain, readOpening_plain hRest, State.enter]
  | _ =>
      have hOpening : readOpening false ('?' :: ':' :: rest) = some (.flagged none, rest) := rfl
      have hRead : state.read '(' ('?' :: ':' :: rest) = some (state.openScope false, rest) := by
        simp [State.read, hPlain, hOpening, State.enter]
      exact isWellFormedFrom_of_read hPlain hRead

theorem isWellFormedFrom_leave {parent : Scope} {outer : List Scope}
    (hOuter : state.outer = parent :: outer) (rest : List Char) :
    isWellFormedFrom state (')' :: rest) =
      isWellFormedFrom { state with
        scope := parent.push (.item (enclosing [state.scope.level])), outer := outer } rest := by
  refine isWellFormedFrom_of_read hPlain ?_
  simp [State.read, State.leave, hOuter]

theorem isWellFormedFrom_single (first : Single) (rest : List Char) :
    isWellFormedFrom state (first.neutral ++ rest) =
      isWellFormedFrom (state.push (.item first.level)) rest := by
  cases first with
  | dot => exact isWellFormedFrom_atom hPlain rfl rfl
  | literal c hLiteral =>
      rw [Single.neutral]
      split
      · rename_i hClosing
        simp only [Bool.or_eq_true, decide_eq_true_eq] at hClosing
        rcases hClosing with rfl | rfl
        all_goals exact isWellFormedFrom_atom hPlain rfl rfl
      · have hOther {d : Char} (hd : isLiteral d = false) : c ≠ d := (ne_of_test hd hLiteral).symm
        have hRead : readAtom false c rest = some (.literal c, rest) := if_neg (hOther rfl)
        exact isWellFormedFrom_atom hPlain (isTermReserved_of_forall_ne fun d _ => hOther) hRead
  | escape inner =>
      obtain ⟨c, text, hNeutral, hFirst, hRead⟩ := inner.readAtom_neutral
      rw [Single.neutral, hNeutral]
      refine isWellFormedFrom_atom hPlain ?_ (hRead rest)
      rcases hFirst with rfl | hMeta
      · rfl
      · exact isTermReserved_of_forall_ne fun d hd _ => ne_of_test hMeta hd
  | backReference digits =>
      calc
        _ = isWellFormedFrom (state.openScope false) (')' :: rest) :=
          isWellFormedFrom_opener hPlain .plain (by simp)
        _ = _ := isWellFormedFrom_leave rfl rfl rest
  | charClass class_ =>
      obtain ⟨text, hNeutral, hRead⟩ := class_.readClass_neutral rest
      rw [Single.neutral, hNeutral]
      refine isWellFormedFrom_of_read hPlain ?_
      simp [State.read, hPlain, hRead, Single.level]

end

/-- The scope after the regular expression has been read in it. -/
def readIn : Regex → Scope → Scope
  | .done, scope => scope
  | .bar rest, scope => rest.readIn scope.endAlternative
  | .assertion _ rest, scope => rest.readIn (scope.push (.item 0))
  | .single first quantifier rest, scope =>
    rest.readIn (scope.push (.item (Quantifier.level quantifier first.level)))
  | .group _ body quantifier rest, scope =>
    rest.readIn (scope.push (.item
      (Quantifier.level quantifier (enclosing [(body.readIn (.empty false)).level]))))

theorem extended_readIn (r : Regex) (scope : Scope) :
    (r.readIn scope).extended = scope.extended := by
  induction r generalizing scope with
  | done => rfl
  | bar rest ih => exact ih _
  | assertion place rest ih => exact ih _
  | single first quantifier rest ih => exact ih _
  | group opener body quantifier rest _ ih => exact ih _

theorem Single.head?_neutral (first : Single) (rest : List Char) :
    (first.neutral ++ rest).head? ≠ some '?' := by
  cases first with
  | dot => simp [neutral]
  | literal c hLiteral =>
      rw [neutral]
      split
      · simp
      · have hc : c ≠ '?' := (ne_of_test (p := isLiteral) rfl hLiteral).symm
        simpa using hc
  | escape inner =>
      obtain ⟨c, text, hNeutral, hFirst, _⟩ := inner.readAtom_neutral
      rw [neutral, hNeutral]
      rcases hFirst with rfl | hMeta
      · simp
      · have hc : c ≠ '?' := ne_of_test hMeta rfl
        simpa using hc
  | backReference digits => simp [neutral]
  | charClass class_ =>
      obtain ⟨text, hNeutral, _⟩ := class_.readClass_neutral rest
      rw [neutral, hNeutral]
      simp

theorem head?_neutral {tail : List Char} (r : Regex) (hTail : Closes tail) :
    (r.neutral ++ tail).head? ≠ some '?' := by
  cases r with
  | done =>
      intro h
      exact absurd (hTail '?' h) (by decide)
  | bar rest => simp [neutral]
  | assertion place rest => cases place <;> simp [neutral, Assertion.write]
  | single first quantifier rest =>
      rw [neutral, List.append_assoc]
      exact first.head?_neutral _
  | group opener body quantifier rest => cases opener <;> simp [neutral, Opener.neutral]

/-- Reading the neutral form of a tree goes on behind it with the scope that the tree leaves. -/
theorem isWellFormedFrom_neutral (r : Regex) (state : State)
    (hPlain : state.scope.extended = false) {tail : List Char} (hTail : Closes tail) :
    isWellFormedFrom state (r.neutral ++ tail) =
      isWellFormedFrom { state with scope := r.readIn state.scope } tail := by
  induction r generalizing state tail with
  | done => rfl
  | bar rest ih =>
      have hRead : state.read '|' (rest.neutral ++ tail) =
          some ({ state with scope := state.scope.endAlternative }, rest.neutral ++ tail) := rfl
      rw [neutral, List.cons_append, isWellFormedFrom_of_read hPlain hRead]
      exact ih { state with scope := state.scope.endAlternative } hPlain hTail
  | assertion place rest ih =>
      rw [neutral, List.append_assoc, isWellFormedFrom_assertion hPlain]
      exact ih (state.push _) hPlain hTail
  | single first quantifier rest ih =>
      rw [neutral, List.append_assoc, List.append_assoc, isWellFormedFrom_single hPlain,
        isWellFormedFrom_quantifier hPlain _ _ (rest.head?_neutral hTail)]
      exact ih (state.push _) hPlain hTail
  | group opener body quantifier rest ihBody ihRest =>
      have hClose := closes_parenthesis (Quantifier.write quantifier ++ (rest.neutral ++ tail))
      -- the body is read in a scope of its own, and the parenthesis hands on only its level
      have hPlain' : (body.readIn (.empty false)).extended = false := extended_readIn ..
      rw [neutral]
      simp only [List.append_assoc, List.cons_append]
      rw [isWellFormedFrom_opener hPlain _ (body.head?_neutral hClose),
        ihBody (state.openScope false) rfl hClose]
      calc
        _ = isWellFormedFrom (state.push (.item (enclosing [(body.readIn (.empty false)).level])))
            (Quantifier.write quantifier ++ (rest.neutral ++ tail)) :=
          isWellFormedFrom_leave hPlain' rfl _
        _ = isWellFormedFrom (state.push _) (rest.neutral ++ tail) :=
          isWellFormedFrom_quantifier hPlain _ _ (rest.head?_neutral hTail)
        _ = _ := ihRest (state.push _) hPlain hTail

theorem nesting_reverse (levels : List Nat) : nesting levels.reverse = nesting levels := by
  rw [nesting_eq, nesting_eq, levels.reverse_perm.foldl_eq, List.length_reverse]

/-- The levels of a tree come after those that were in the scope before. -/
theorem level_readIn (r : Regex) (scope : Scope) :
    (r.readIn scope).level =
      nesting (scope.finished.reverse ++
        nesting ((scope.parts.map Part.level).reverse ++ r.levels.1) :: r.levels.2) := by
  induction r generalizing scope with
  | done =>
      rw [readIn, levels, Scope.level, Scope.alternative, ← nesting_reverse]
      simp [nesting_reverse]
  | bar rest ih =>
      rw [readIn, ih, levels]
      simp [Scope.endAlternative, Scope.alternative, nesting_reverse]
  | assertion place rest ih =>
      rw [readIn, ih, levels]
      simp [Scope.push, Part.level]
  | single first quantifier rest ih =>
      rw [readIn, ih, levels]
      simp [Scope.push, Part.level]
  | group opener body quantifier rest ihBody ihRest =>
      rw [readIn, ihRest, levels, ihBody]
      simp [Scope.push, Scope.empty, Part.level]

theorem isPattern_write (r : Regex) :
    isPattern r.write = (!r.write.isEmpty && decide (r.level ≤ maxNesting)) := by
  have hRead := isWellFormedFrom_neutral r.tidy .initial rfl closes_nil
  have hPlain : (r.tidy.readIn (.empty false)).extended = false := extended_readIn ..
  have hLevel : (r.tidy.readIn (.empty false)).level = r.level := level_readIn _ _
  rw [List.append_nil, isWellFormedFrom_nil hPlain] at hRead
  rw [isPattern, isWellFormed, neutral_write, hRead, ← hLevel]
  rfl

/-- Every regular expression that the grammar has is accepted, however its parts are combined,
except for the empty one and those that are nested too deep. -/
theorem isPattern_write_iff (r : Regex) :
    isPattern r.write = true ↔ r.write ≠ [] ∧ r.level ≤ maxNesting := by
  rw [isPattern_write, Bool.and_eq_true, Bool.not_eq_true', List.isEmpty_eq_false_iff,
    decide_eq_true_eq]

/-- A class that is repeated, within a lookbehind, and an escape behind it. -/
def lookbehind : Regex :=
  .group .behind
    (.single
      (.charClass
        { negated := true
          items := [.range (.plain 'a' (by decide)) (.plain 'f' (by decide)) (by decide),
            .set 'd' rfl]
          noCaret := nofun
          dashes := rfl })
      (some
        { operator := .between ⟨['2'], List.cons_ne_nil _ _, by simp⟩
            ⟨['1', '0'], List.cons_ne_nil _ _, by simp⟩ (by decide) (by decide)
          isLazy := true })
      .done)
    none
    (.single (.escape (.unit ⟨'0', rfl⟩ ⟨'0', rfl⟩ ⟨'e', rfl⟩ ⟨'9', rfl⟩ (.inl (by decide)))) none
      .done)

/-- The five levels are those of two items, a repetition, a group and a sequence. -/
theorem isPattern_write_iff_lookbehind :
    lookbehind.write = "(?<=[^a-f\\d]\x7b2,10\x7d?)\\u00e9".toList ∧ lookbehind.level = 5 ∧
      isPattern "(?<=[^a-f\\d]\x7b2,10\x7d?)\\u00e9".toList = true := by
  have hWrite : lookbehind.write = "(?<=[^a-f\\d]\x7b2,10\x7d?)\\u00e9".toList := rfl
  have hLevel : lookbehind.level = 5 := rfl
  refine ⟨hWrite, hLevel, ?_⟩
  rw [← hWrite, isPattern_write_iff, hLevel]
  exact ⟨List.cons_ne_nil _ _, by decide⟩

def groups : Nat → Regex
  | 0 => .done
  | depth + 1 => .group .capture (groups depth) none .done

theorem write_groups (depth : Nat) :
    (groups depth).write = List.replicate depth '(' ++ List.replicate depth ')' := by
  induction depth with
  | zero => rfl
  | succ depth ih =>
      rw [groups, write, ih, List.replicate_succ, List.replicate_succ']
      simp [Opener.write, Quantifier.write, write]

theorem tidy_groups (depth : Nat) : (groups depth).tidy = groups depth := by
  induction depth with
  | zero => rfl
  | succ depth ih => rw [groups, tidy, ih, tidy]

theorem level_groups (depth : Nat) : (groups depth).level = depth := by
  rw [level, tidy_groups]
  induction depth with
  | zero => rfl
  | succ depth ih =>
      show enclosing [(groups depth).height] = depth + 1
      rw [ih]
      simp [enclosing]

/-- The empty regular expression is refused, and so are 251 groups in each other. -/
theorem isPattern_groups_eq_false :
    ((groups 0).write = [] ∧ isPattern (groups 0).write = false) ∧
      (groups 251).write = List.replicate 251 '(' ++ List.replicate 251 ')' ∧
      isPattern (groups 251).write = false := by
  refine ⟨⟨rfl, rfl⟩, write_groups 251, ?_⟩
  rw [isPattern_write, level_groups]
  simp [maxNesting]

end Regex

end CodeListing
