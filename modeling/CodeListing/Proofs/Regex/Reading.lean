import CodeListing.Pattern.WellFormed
import CodeListing.Proofs.Regex.Neutral

/-! # Reading what stands for the parts of a tree

The reader of patterns takes the neutral form of an atom or a class in one step,
whatever follows it, and finds the level that the tree has. In a class what follows
does matter: whether a dash makes a range is decided by looking ahead, so the items
are read on the condition that the dashes among them stand apart.
-/

namespace CodeListing

namespace Regex

open Pattern
open Text (hexValue?)

namespace HexDigit

theorem hexValue?_char (digit : HexDigit) : hexValue? digit.char = some digit.value :=
  (Option.some_get digit.isHex).symm

theorem value_lt (digit : HexDigit) : digit.value < 16 := by
  have hRange := Text.hexValue?_eq_some digit.hexValue?_char
  omega

end HexDigit

theorem readHexDigits_append (digits : List HexDigit) (value : Nat) (rest : List Char) :
    readHexDigits false digits.length value (digits.map HexDigit.char ++ rest) =
      some (digits.foldl (fun value digit => value * 16 + digit.value) value, rest) := by
  induction digits generalizing value with
  | nil => simp [readHexDigits]
  | cons digit digits ih => simp [readHexDigits, digit.hexValue?_char, ih]

theorem readCodePoint_append (digits : List HexDigit) (rest : List Char)
    (h : (hexNumber digits).isValidChar) :
    readCodePoint false digits.length (digits.map HexDigit.char ++ rest) =
      some (.literal (Char.ofNat (hexNumber digits)), rest) := by
  rw [readCodePoint, readHexDigits_append]
  exact if_pos h

theorem readAtom_set {letter : Char} (h : isSetLetter letter = true) (rest : List Char) :
    readAtom false '\\' (letter :: rest) = some (.set, rest) := by
  rcases isSetLetter_iff.1 h with rfl | rfl | rfl | rfl | rfl | rfl <;> rfl

namespace Escape

def atom (escape : Escape) : Atom :=
  escape.char?.elim .set .literal

theorem hexValue?_digitChar (code : Nat) (h : code < 32) :
    hexValue? (Nat.digitChar (code / 16)) = some (code / 16) ∧
      hexValue? (Nat.digitChar (code % 16)).toUpper = some (code % 16) := by
  decide +revert

theorem readCodePoint_control {code : Nat} (h : code < 32) (rest : List Char) :
    readCodePoint false 2
      (Nat.digitChar (code / 16) :: (Nat.digitChar (code % 16)).toUpper :: rest) =
      some (.literal (Char.ofNat code), rest) := by
  obtain ⟨hHigh, hLow⟩ := hexValue?_digitChar code h
  have hValid : code.isValidChar := .inl (by omega)
  simp [readCodePoint, readHexDigits, hHigh, hLow, Nat.div_add_mod', hValid]

theorem readAtom_neutral (escape : Escape) : ∃ c more, escape.neutral = c :: more ∧
    (c = '\\' ∨ isMeta c = false) ∧
    ∀ rest, readAtom false c (more ++ rest) = some (escape.atom, rest) := by
  cases escape with
  | set name hSet =>
      exact ⟨'\\', [name], rfl, .inl rfl, readAtom_set hSet⟩
  | control name c hControl =>
      refine ⟨'\\', [name], rfl, .inl rfl, fun rest => ?_⟩
      have hName := isSome_control?.1 (Option.isSome_of_eq_some hControl)
      rcases hName with rfl | rfl | rfl | rfl | rfl
      all_goals
        cases hControl
        rfl
  | letter name hLetter =>
      refine ⟨'\\', _, rfl, .inl rfl, fun rest => ?_⟩
      exact readCodePoint_control (Nat.mod_lt _ (by decide)) rest
  | byte high low =>
      refine ⟨'\\', ['x', high.char, low.char], rfl, .inl rfl, fun rest => ?_⟩
      have hHigh := high.value_lt
      have hLow := low.value_lt
      have hValid : (hexNumber [high, low]).isValidChar := by
        refine .inl ?_
        simp only [hexNumber, List.foldl]
        omega
      exact readCodePoint_append [high, low] rest hValid
  | unit a b c d hScalar =>
      refine ⟨'\\', ['u', a.char, b.char, c.char, d.char], rfl, .inl rfl, fun rest => ?_⟩
      have ha := a.value_lt
      have hb := b.value_lt
      have hc := c.value_lt
      have hd := d.value_lt
      have hValid : (hexNumber [a, b, c, d]).isValidChar := by
        refine hScalar.imp_right fun hAbove => ⟨hAbove, ?_⟩
        simp only [hexNumber, List.foldl]
        omega
      exact readCodePoint_append [a, b, c, d] rest hValid
  | identity c hSymbol =>
      by_cases hMeta : isMeta c = true
      · refine ⟨'\\', [c], by rw [neutral, if_pos hMeta], .inl rfl, fun rest => ?_⟩
        simp [readAtom, readEscape, ne_of_test hSymbol, isSetLetter_of_isAlphanum hSymbol,
          hMeta, atom, char?]
      · have hc : c ≠ '\\' := by
          rintro rfl
          exact hMeta rfl
        refine ⟨c, [], by rw [neutral, if_neg hMeta], .inr (Bool.not_eq_true _ ▸ hMeta),
          fun rest => ?_⟩
        simp [readAtom, hc, atom, char?]

end Escape

/-- The characters that mean something at the start of an item of a class. -/
def isClassReserved (c : Char) : Bool :=
  c = '[' || c = ']' || c = '-' || c = '&' || c = '~'

theorem isClassReserved_of_isMeta {c : Char} (h : isMeta c = false) :
    isClassReserved c = false := by
  have hOther {d : Char} (hd : isMeta d = true) : c ≠ d := ne_of_test h hd
  simp only [isClassReserved, Bool.or_eq_false_iff, decide_eq_false_iff_not]
  exact ⟨⟨⟨⟨hOther rfl, hOther rfl⟩, hOther rfl⟩, hOther rfl⟩, hOther rfl⟩

theorem ClassAtom.readAtom_neutral (atom : ClassAtom) : ∃ c more, atom.neutral = c :: more ∧
    isClassReserved c = false ∧ (c = '^' → atom.write.head? = some '^') ∧
    ∀ rest, readAtom false c (more ++ rest) = some (.literal atom.char, rest) := by
  cases atom with
  | plain c hPlain =>
      obtain ⟨hBackslash, hBracket, hDash⟩ := hPlain
      rw [neutral]
      split
      · rename_i hOperator
        refine ⟨'\\', [c], rfl, rfl, by simp, fun rest => ?_⟩
        simp only [Bool.or_eq_true, decide_eq_true_eq] at hOperator
        rcases hOperator with (rfl | rfl) | rfl <;> rfl
      · rename_i hOperator
        refine ⟨c, [], rfl, ?_, fun hc => congrArg some hc, fun rest => ?_⟩
        · simpa [isClassReserved, hBracket, hDash, and_assoc] using hOperator
        · simp [readAtom, hBackslash, char]
  | escape inner c hChar =>
      obtain ⟨d, more, hNeutral, hFirst, hRead⟩ := inner.readAtom_neutral
      refine ⟨d, more, hNeutral, ?_, ?_, fun rest => ?_⟩
      · rcases hFirst with rfl | hMeta
        · rfl
        · exact isClassReserved_of_isMeta hMeta
      · rintro rfl
        rcases hFirst with hBackslash | hMeta
        · cases hBackslash
        · cases hMeta
      · rw [hRead, Escape.atom, hChar]
        rfl
  | backspace => exact ⟨'\\', ['x', '0', '8'], rfl, rfl, by simp, fun rest => rfl⟩
  | null => exact ⟨'\\', ['x', '0', '0'], rfl, rfl, by simp, fun rest => rfl⟩

namespace ClassItem

/-- Whether a dash can be read after the item when `after` follows the dash. -/
def AllowsDash (after : List Char) : ClassItem → Prop
  | .single _ => after.head? = some ']'
  | .range _ _ _ => True
  | _ => False

/-- Only a dash away from sets begins with a reserved character. -/
theorem exists_neutral (item : ClassItem) (afterSet beforeSet : Bool) :
    (item = .dash ∧ (afterSet || beforeSet) = false ∧ item.neutral afterSet beforeSet = ['-']) ∨
      ∃ c more, item.neutral afterSet beforeSet = c :: more ∧ isClassReserved c = false ∧
        (c = '^' → item.write.head? = some '^') := by
  cases item with
  | set letter hSet => exact .inr ⟨'\\', [letter], rfl, rfl, nofun⟩
  | single atom =>
      obtain ⟨c, more, hNeutral, hReserved, hCaret, _⟩ := atom.readAtom_neutral
      exact .inr ⟨c, more, hNeutral, hReserved, hCaret⟩
  | range low high _ =>
      obtain ⟨c, more, hNeutral, hReserved, hCaret, _⟩ := low.readAtom_neutral
      refine .inr ⟨c, more ++ '-' :: high.neutral, ?_, hReserved, fun hc => ?_⟩
      · rw [neutral, hNeutral, List.cons_append]
      · rw [write, List.head?_append, hCaret hc, Option.some_or]
  | dash =>
      rw [neutral]
      split
      · exact .inr ⟨'\\', ['-'], rfl, rfl, nofun⟩
      · exact .inl ⟨rfl, Bool.eq_false_iff.2 ‹_›, rfl⟩

theorem allowsDash_neutralAll {before : ClassItem} {items : List ClassItem}
    (h : dashesApart (some before) items = true) (rest : List Char) :
    ∃ c more, neutralAll before.isSet items ++ ']' :: rest = c :: more ∧
      (c = '-' → before.AllowsDash more) := by
  cases items with
  | nil => exact ⟨']', rest, rfl, nofun⟩
  | cons item items =>
      rw [neutralAll]
      rcases item.exists_neutral before.isSet (items.head?.any isSet) with
        ⟨rfl, hApart, hNeutral⟩ | ⟨c, more, hNeutral, hReserved, _⟩
      · rw [hNeutral]
        refine ⟨'-', _, rfl, fun _ => ?_⟩
        have hDash : dashApart (some before) items.head? = true := (Bool.and_eq_true _ _ ▸ h).1
        cases before with
        | set letter hSet => cases hApart
        | range low high _ => trivial
        | dash => cases hDash
        | single atom =>
            cases items with
            | nil => rfl
            | cons next items =>
                have hNext : next.isSet = true := hDash
                exact absurd hNext (Bool.eq_false_iff.1 hApart)
      · rw [hNeutral]
        exact ⟨c, _, rfl, fun hc => absurd hc (ne_of_test hReserved rfl)⟩

theorem readItem_atom {c d : Char} {first : Atom} {text more : List Char}
    (hAtom : readAtom false c text = some (first, d :: more)) (hFirst : first ≠ .boundary)
    (hDash : d = '-' → more.head? = some ']') : readItem false c text = some (d :: more) := by
  by_cases hd : d = '-'
  · simp [readItem, hAtom, next?, peek, hFirst, hDash hd]
  · simp [readItem, hAtom, next?, hFirst, hd]

theorem readItem_range {c : Char} {low high : ClassAtom} {text rest : List Char}
    (hAtom : readAtom false c text = some (.literal low.char, '-' :: (high.neutral ++ rest))) :
    readItem false c text = if low.char.toNat ≤ high.char.toNat then some rest else none := by
  obtain ⟨d, more, hNeutral, hReserved, _, hRead⟩ := high.readAtom_neutral
  have hEnd : d ≠ ']' := (ne_of_test (p := isClassReserved) hReserved rfl)
  have hDash : d ≠ '-' := (ne_of_test (p := isClassReserved) hReserved rfl)
  simp [readItem, hAtom, next?, peek, hNeutral, readRangeEnd, hRead, hEnd, hDash]

theorem readClassRest_cons {c : Char} (hOpen : c ≠ '[') (hClose : c ≠ ']') {text : List Char}
    (hOperator : ((c = '&' || c = '-' || c = '~') && text.head? = some c) = false)
    (inner : OpenClass) :
    readClassRest false inner [] (c :: text) =
      (readItem false c text).bind (readClassRest false (inner.add 0) []) := by
  rw [readClassRest]
  split
  · rename_i hNext
    cases hNext
  · rename_i hNext
    cases hNext
    exact absurd rfl hOpen
  · rename_i hNext
    cases hNext
    exact absurd rfl hClose
  · rename_i hNext
    cases hNext
    rw [if_neg (Bool.eq_false_iff.1 hOperator)]
    split
    · rename_i hNone
      rw [hNone, Option.bind_none]
    · rename_i hSome
      rw [hSome, Option.bind_some]

theorem readClassRest_of_not_reserved {c : Char} (hReserved : isClassReserved c = false)
    (text : List Char) (inner : OpenClass) :
    readClassRest false inner [] (c :: text) =
      (readItem false c text).bind (readClassRest false (inner.add 0) []) := by
  have hOther {d : Char} (hd : isClassReserved d = true) : c ≠ d := ne_of_test hReserved hd
  refine readClassRest_cons (hOther rfl) (hOther rfl) ?_ inner
  simp [hOther (d := '&') rfl, hOther (d := '-') rfl, hOther (d := '~') rfl]

theorem readClassRest_atom {c : Char} {text rest : List Char} {inner : OpenClass}
    (hReserved : isClassReserved c = false) (hItem : readItem false c text = some rest) :
    readClassRest false inner [] (c :: text) = readClassRest false (inner.add 0) [] rest := by
  rw [readClassRest_of_not_reserved hReserved, hItem, Option.bind_some]

theorem readClassRest_item {item : ClassItem} {items : List ClassItem} (afterSet beforeSet : Bool)
    (h : dashesApart (some item) items = true) (inner : OpenClass) (rest : List Char) :
    readClassRest false inner []
        (item.neutral afterSet beforeSet ++ (neutralAll item.isSet items ++ ']' :: rest)) =
      readClassRest false (inner.add 0) [] (neutralAll item.isSet items ++ ']' :: rest) := by
  obtain ⟨d, more, hFollow, hDash⟩ := allowsDash_neutralAll h rest
  rw [hFollow]
  cases item with
  | set letter hSet =>
      exact readClassRest_atom rfl
        (readItem_atom (readAtom_set hSet _) (by simp) fun hd => (hDash hd).elim)
  | single atom =>
      obtain ⟨c, text, hNeutral, hReserved, _, hRead⟩ := atom.readAtom_neutral
      rw [neutral, hNeutral]
      exact readClassRest_atom hReserved (readItem_atom (hRead _) (by simp) hDash)
  | range low high hOrder =>
      obtain ⟨c, text, hNeutral, hReserved, _, hRead⟩ := low.readAtom_neutral
      rw [neutral, hNeutral, List.append_assoc]
      exact readClassRest_atom hReserved ((readItem_range (hRead _)).trans (if_pos hOrder))
  | dash =>
      have hNoDash : d ≠ '-' := hDash
      rw [neutral]
      split
      · exact readClassRest_atom rfl (readItem_atom rfl (by simp) fun hd => absurd hd hNoDash)
      · have hItem : readItem false '-' (d :: more) = some (d :: more) :=
          readItem_atom rfl (by simp) fun hd => absurd hd hNoDash
        calc
          _ = (readItem false '-' (d :: more)).bind (readClassRest false (inner.add 0) []) :=
            readClassRest_cons (by decide) (by decide) (by simp [hNoDash]) inner
          _ = _ := by rw [hItem, Option.bind_some]

theorem readClassRest_neutralAll (items : List ClassItem) {before : Option ClassItem}
    (afterSet : Bool) (h : dashesApart before items = true) (inner : OpenClass)
    (rest : List Char) :
    readClassRest false inner [] (neutralAll afterSet items ++ ']' :: rest) =
      some ((⟨inner.operand, List.replicate items.length 0 ++ inner.items⟩ : OpenClass).level,
        rest) := by
  induction items generalizing before afterSet inner with
  | nil =>
      rw [neutralAll, List.nil_append, readClassRest]
      rfl
  | cons item items ih =>
      have hItems : dashesApart (some item) items = true := (Bool.and_eq_true _ _ ▸ h).2
      rw [neutralAll, List.append_assoc, readClassRest_item _ _ hItems, ih _ hItems]
      simp [OpenClass.add, List.replicate_succ']

end ClassItem

namespace Class

theorem readClassStart_of_readCaret {text rest : List Char} {c : Char}
    (hCaret : readCaret false text = some (c, rest)) (hEnd : c ≠ ']') (hDash : c ≠ '-') :
    readClassStart false text = some (⟨none, []⟩, c :: rest) := by
  simp [readClassStart, hCaret, readDashes, hDash, hEnd]

theorem readClassStart_dash {text rest : List Char} {d : Char}
    (hCaret : readCaret false text = some ('-', d :: rest)) (hDash : d ≠ '-') :
    readClassStart false text = some (⟨none, [0]⟩, d :: rest) := by
  have hDashes : readDashes false 0 '-' (d :: rest) = some (1, d :: rest) := by
    simp [readDashes, next?, hDash]
  simp [readClassStart, hCaret, hDashes]

theorem readCaret_append (negated : Bool) {c : Char} (h : negated = false → c ≠ '^')
    (rest : List Char) :
    readCaret false ((if negated then ['^'] else []) ++ c :: rest) = some (c, rest) := by
  cases negated with
  | false => simp [readCaret, next?, h rfl]
  | true => rfl

/-- What the reader takes for a class with at least one item. -/
theorem readClass_items (negated : Bool) (item : ClassItem) (items : List ClassItem)
    (hCaret : negated = false → (ClassItem.writeAll (item :: items)).head? ≠ some '^')
    (hDashes : ClassItem.dashesApart none (item :: items) = true) (rest : List Char) :
    readClass false ((if negated then ['^'] else []) ++
        (ClassItem.neutralAll false (item :: items) ++ ']' :: rest)) =
      some (enclosing [nesting (List.replicate (items.length + 1) 0)], rest) := by
  rcases item.exists_neutral false (items.head?.any ClassItem.isSet) with
    ⟨rfl, _, hNeutral⟩ | ⟨c, more, hNeutral, hReserved, hFirst⟩
  -- a dash that comes first is read with the bracket and not as an item
  · have hItems : ClassItem.dashesApart (some .dash) items = true :=
      (Bool.and_eq_true _ _ ▸ hDashes).2
    obtain ⟨d, after, hFollow, hDash⟩ := ClassItem.allowsDash_neutralAll hItems rest
    have hNoDash : d ≠ '-' := hDash
    have hRead := readCaret_append negated (fun _ => show '-' ≠ '^' by decide) (d :: after)
    rw [ClassItem.neutralAll, hNeutral, List.append_assoc, hFollow, readClass]
    simp only [List.cons_append, List.nil_append, readClassStart_dash hRead hNoDash]
    rw [← hFollow, ClassItem.readClassRest_neutralAll items _ hItems]
    simp [OpenClass.level, OpenClass.content, List.replicate_succ']
  · have hStart : negated = false → c ≠ '^' := by
      intro hNegated hc
      apply hCaret hNegated
      rw [ClassItem.writeAll_cons, List.head?_append, hFirst hc, Option.some_or]
    have hRead := readCaret_append negated hStart
      (more ++ (ClassItem.neutralAll item.isSet items ++ ']' :: rest))
    have hText : c :: (more ++ (ClassItem.neutralAll item.isSet items ++ ']' :: rest)) =
        ClassItem.neutralAll false (item :: items) ++ ']' :: rest := by
      rw [ClassItem.neutralAll, hNeutral, List.append_assoc, List.cons_append]
    rw [← hText, readClass, readClassStart_of_readCaret hRead (ne_of_test hReserved rfl)
      (ne_of_test hReserved rfl)]
    simp only [hText]
    rw [ClassItem.readClassRest_neutralAll _ _ hDashes]
    simp [OpenClass.level, OpenClass.content]

theorem enclosing_replicate (n : Nat) :
    enclosing [nesting (List.replicate (n + 1) 0)] = if n = 0 then 1 else 2 := by
  have hMax : (List.replicate (n + 1) 0).foldl max 0 = 0 :=
    Nat.le_zero.1 (foldl_max_le (Nat.le_refl 0) (by simp))
  rw [nesting_eq, hMax]
  cases n <;> simp [enclosing]

theorem readClass_neutral (class_ : Class) (rest : List Char) : ∃ text,
    class_.neutral = '[' :: text ∧ readClass false (text ++ rest) = some (class_.level, rest) := by
  obtain ⟨negated, items, hCaret, hDashes⟩ := class_
  cases items with
  | nil =>
      have hSets := readClass_items (!negated) (.set 's' rfl) [.set 'S' rfl]
        (fun _ => by decide) (by decide) rest
      cases negated with
      | false => exact ⟨"^\\s\\S]".toList, rfl, hSets⟩
      | true => exact ⟨"\\s\\S]".toList, rfl, hSets⟩
  | cons item items =>
      refine ⟨_, rfl, ?_⟩
      have hRead := readClass_items negated item items hCaret hDashes rest
      rw [enclosing_replicate] at hRead
      simpa [level] using hRead

end Class

/-- The text goes on, and with no dash. -/
def GoesOn (text : List Char) : Prop :=
  ∃ d rest, text = d :: rest ∧ d ≠ '-'

/-- A class of which `count` characters and ranges have been read. -/
def begun (count : Nat) : OpenClass :=
  ⟨none, List.replicate count 0⟩

theorem add_begun (count : Nat) : (begun count).add 0 = begun (count + 1) := rfl

theorem level_begun_le (count : Nat) : (begun count).level ≤ 2 := by
  have hItems : nesting (List.replicate count 0) ≤ 1 :=
    nesting_le fun level hLevel => Nat.le_of_eq (List.eq_of_mem_replicate hLevel)
  exact Nat.succ_le_succ (foldl_max_le (Nat.zero_le _) (List.forall_mem_singleton.2 hItems))

end Regex

end CodeListing
