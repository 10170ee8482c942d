import CodeListing.Proofs.Json
import CodeListing.Settings.Json

/-! # Settings and their texts

An object describes settings by a member for each choice. The members can stand in
any order, with blanks between any two tokens, and what they say is what is read. A
member that cannot be part of an object makes the text malformed, whatever comes
after it, and before any choice is judged.
-/

namespace CodeListing

open Json

/-- A value that is chosen for a setting. -/
inductive Choice where
  | indentUnit (unit : UInt32)
  | maxRegexFlags (most : UInt64)
  | maxMemberDepth (most : UInt64)
  | classPrefix (letters : List Char)
  deriving DecidableEq

namespace Choice

def field : Choice → Field
  | .indentUnit _ => .indentUnit
  | .maxRegexFlags _ => .maxRegexFlags
  | .maxMemberDepth _ => .maxMemberDepth
  | .classPrefix _ => .classPrefix

/-- Whether the choice makes sense. -/
def IsSound : Choice → Prop
  | .maxMemberDepth most => most ≠ 0
  | .classPrefix letters => ∀ c ∈ letters, Settings.isPrefixCharacter c = true
  | _ => True

@[simp] def unit? : Choice → Option UInt32
  | .indentUnit unit => some unit
  | _ => none

@[simp] def flags? : Choice → Option UInt64
  | .maxRegexFlags most => some most
  | _ => none

@[simp] def depth? : Choice → Option UInt64
  | .maxMemberDepth most => some most
  | _ => none

@[simp] def letters? : Choice → Option (List Char)
  | .classPrefix letters => some letters
  | _ => none

/-- How the value of a choice is written. -/
inductive WritesValue : Choice → List Char → Prop where
  | indentUnit {unit} : WritesValue (.indentUnit unit) (toString unit.toNat).toList
  | maxRegexFlags {most} : WritesValue (.maxRegexFlags most) (toString most.toNat).toList
  | maxMemberDepth {most} : WritesValue (.maxMemberDepth most) (toString most.toNat).toList
  | classPrefix {letters written} (spells : Spells written letters) :
      WritesValue (.classPrefix letters) ('"' :: (written ++ ['"']))

end Choice

/-- How a key is written, with the colon and the blanks behind it. -/
inductive WritesKey (key : List Char) : List Char → Prop where
  | mk {written left right} (spells : Spells written key) (blankLeft : Blank left)
      (blankRight : Blank right) :
      WritesKey key ('"' :: (written ++ '"' :: (left ++ ':' :: right)))

theorem WritesKey.plain (field : Field) {right : List Char} (hBlank : Blank right) :
    WritesKey field.key.toList ('"' :: (field.key.toList ++ '"' :: ':' :: right)) := by
  have hSpells : Spells field.key.toList field.key.toList :=
    .self (by cases field <;> simp [Field.key])
  have hNone : Blank [] := by decide
  exact .mk hSpells hNone hBlank

/-- How a choice is written as a member of an object, with the blanks behind it. -/
inductive WritesMember (choice : Choice) : List Char → Prop where
  | mk {key value blanks} (writesKey : WritesKey choice.field.key.toList key)
      (writesValue : choice.WritesValue value) (blank : Blank blanks) :
      WritesMember choice (key ++ (value ++ blanks))

/-- The beginnings of objects that have made some choices, up to the place for the next
member. -/
inductive Begins : List Choice → List Char → Prop where
  | object {left right} (blankLeft : Blank left) (blankRight : Blank right) :
      Begins [] (left ++ '{' :: right)
  | member {choices choice start member blanks} (begins : Begins choices start)
      (writes : WritesMember choice member) (blank : Blank blanks) :
      Begins (choices ++ [choice]) (start ++ (member ++ ',' :: blanks))

/-- The texts of an object that makes some choices. -/
inductive WritesObject : List Choice → List Char → Prop where
  | none {left gap right} (blankLeft : Blank left) (blankGap : Blank gap)
      (blankRight : Blank right) : WritesObject [] (left ++ '{' :: (gap ++ '}' :: right))
  | some {choices choice start member blanks} (begins : Begins choices start)
      (writes : WritesMember choice member) (blank : Blank blanks) :
      WritesObject (choices ++ [choice]) (start ++ (member ++ '}' :: blanks))

def Field.most? : Field → Option Nat
  | .indentUnit => some (UInt32.size - 1)
  | .maxRegexFlags => some (UInt64.size - 1)
  | .maxMemberDepth => some (UInt64.size - 1)
  | .classPrefix => none

/-- The texts that cannot stand where an object that has made some choices has its next
member. What is wrong is at the front. -/
inductive Spoils (choices : List Choice) : List Char → Prop where
  | unknown {key written rest} (spells : Spells written key)
      (unknown : ∀ field : Field, key ≠ field.key.toList) :
      Spoils choices ('"' :: (written ++ '"' :: rest))
  | repeated {choice written rest} (again : choice ∈ choices)
      (spells : Spells written choice.field.key.toList) :
      Spoils choices ('"' :: (written ++ '"' :: rest))
  | unfit {field : Field} {most key text} (writesKey : WritesKey field.key.toList key)
      (isNumber : field.most? = some most) (unfit : Unfit most text) :
      Spoils choices (key ++ text)

namespace Settings

/-- The settings with the given choices and without any other. -/
def ofChoices (choices : List Choice) : Settings where
  indentUnit := (choices.findSome? Choice.unit?).getD 20
  maxRegexFlags := ((choices.findSome? Choice.flags?).getD 4).toNat
  maxMemberDepth := ((choices.findSome? Choice.depth?).getD 64).toNat
  classPrefix := String.ofList ((choices.findSome? Choice.letters?).getD [])

def choose (settings : Settings) : Choice → Settings
  | .indentUnit unit => { settings with indentUnit := unit }
  | .maxRegexFlags most => { settings with maxRegexFlags := most.toNat }
  | .maxMemberDepth most => { settings with maxMemberDepth := most.toNat }
  | .classPrefix letters => { settings with classPrefix := String.ofList letters }

theorem findSome?_eq_none {α : Type} {value? : Choice → Option α} {field : Field}
    (hOther : ∀ choice : Choice, choice.field ≠ field → value? choice = none)
    {choices : List Choice} (hNew : field ∉ choices.map Choice.field) :
    choices.findSome? value? = none := by
  rw [List.findSome?_eq_none_iff]
  intro choice hMem
  apply hOther
  rintro rfl
  exact hNew (List.mem_map_of_mem hMem)

theorem nodup_append {choices : List Choice} {choice : Choice}
    (h : ((choices ++ [choice]).map Choice.field).Nodup) :
    (choices.map Choice.field).Nodup ∧ choice.field ∉ choices.map Choice.field := by
  rw [List.map_append, List.nodup_append] at h
  obtain ⟨hBefore, -, hApart⟩ := h
  exact ⟨hBefore, fun hMem => hApart _ hMem _ (List.mem_singleton_self _) rfl⟩

theorem ofChoices_append {choices : List Choice} {choice : Choice}
    (hNew : choice.field ∉ choices.map Choice.field) :
    ofChoices (choices ++ [choice]) = (ofChoices choices).choose choice := by
  cases choice with
  | indentUnit unit =>
      have hNone : choices.findSome? Choice.unit? = none :=
        findSome?_eq_none (by rintro ⟨⟩ <;> simp [Choice.field]) hNew
      simp [ofChoices, choose, hNone]
  | maxRegexFlags most =>
      have hNone : choices.findSome? Choice.flags? = none :=
        findSome?_eq_none (by rintro ⟨⟩ <;> simp [Choice.field]) hNew
      simp [ofChoices, choose, hNone]
  | maxMemberDepth most =>
      have hNone : choices.findSome? Choice.depth? = none :=
        findSome?_eq_none (by rintro ⟨⟩ <;> simp [Choice.field]) hNew
      simp [ofChoices, choose, hNone]
  | classPrefix letters =>
      have hNone : choices.findSome? Choice.letters? = none :=
        findSome?_eq_none (by rintro ⟨⟩ <;> simp [Choice.field]) hNew
      simp [ofChoices, choose, hNone]

/-! ## Reading members -/

@[simp] theorem ofKey?_key (field : Field) : Field.ofKey? field.key.toList = some field := by
  cases field <;> decide

theorem ofKey?_eq_none {key : List Char} (h : ∀ field : Field, key ≠ field.key.toList) :
    Field.ofKey? key = none := by
  rw [Field.ofKey?, List.find?_eq_none]
  intro field _ hKey
  exact h field (of_decide_eq_true hKey).symm

theorem read_value {choice : Choice} {value blanks rest : List Char}
    (hValue : choice.WritesValue value) (hBlank : Blank blanks)
    (hEnds : EndsRun continuesNumber rest) (settings : Settings) :
    choice.field.read settings (blanks ++ (value ++ rest)) =
      .ok (settings.choose choice, rest) := by
  cases hValue with
  | @indentUnit unit =>
      have hMost : unit.toNat ≤ UInt32.size - 1 := Nat.le_pred_of_lt unit.toNat_lt
      have hWhole : unit.toNat ≤ maxWhole := hMost.trans (by decide)
      simp only [Choice.field, Field.read, readBounded_toString hMost hWhole hBlank hEnds,
        Except.map, choose, Nat.toUInt32_eq, UInt32.ofNat_toNat]
  | @maxRegexFlags most =>
      have hMost : most.toNat ≤ maxWhole := Nat.le_pred_of_lt most.toNat_lt
      simp only [Choice.field, Field.read, readBounded_toString hMost hMost hBlank hEnds,
        Except.map, choose]
  | @maxMemberDepth most =>
      have hMost : most.toNat ≤ maxWhole := Nat.le_pred_of_lt most.toNat_lt
      simp only [Choice.field, Field.read, readBounded_toString hMost hMost hBlank hEnds,
        Except.map, choose]
  | @classPrefix letters written spells =>
      have hText : readText "a string" (blanks ++ ('"' :: (written ++ ['"']) ++ rest)) =
          .ok (letters, rest) := by
        simp only [readText, skipBlanks_append hBlank, List.cons_append, List.append_assoc]
        exact readString_append spells rest
      simp only [Choice.field, Field.read, hText, Except.map, choose]

theorem exists_map_error {α β : Type} {result : Except Failure α}
    (h : ∃ failure, result = .error failure) (f : α → β) :
    ∃ failure, result.map f = .error failure := by
  obtain ⟨failure, rfl⟩ := h
  exact ⟨failure, rfl⟩

theorem read_unfit {field : Field} {most : Nat} (hMost : field.most? = some most)
    {blanks text : List Char} (hBlank : Blank blanks) (hUnfit : Unfit most text)
    (settings : Settings) :
    ∃ failure, field.read settings (blanks ++ text) = .error failure := by
  cases field with
  | classPrefix => cases hMost
  | _ =>
      cases hMost
      exact exists_map_error (readBounded_unfit hBlank hUnfit) _

theorem readKey_append {fields : List Field} {field : Field} {written : List Char}
    (hKey : Spells written field.key.toList) (hField : field ∈ fields) (rest : List Char) :
    readKey fields (written ++ '"' :: rest) = .ok (field, rest) := by
  simp only [readKey, readString_append hKey, ofKey?_key, List.contains_iff_mem.2 hField, if_true]

theorem readKey_unknown {fields : List Field} {key written : List Char}
    (hKey : Spells written key) (hUnknown : ∀ field : Field, key ≠ field.key.toList)
    (rest : List Char) :
    readKey fields (written ++ '"' :: rest) =
      .error (.here (.unknownField key (Field.all.map Field.key)) (afterKey rest)) := by
  simp only [readKey, readString_append hKey, ofKey?_eq_none hUnknown]

theorem readKey_taken {fields : List Field} {field : Field} {written : List Char}
    (hKey : Spells written field.key.toList) (hTaken : field ∉ fields) (rest : List Char) :
    readKey fields (written ++ '"' :: rest) =
      .error (.here (.duplicateField field.key) (afterKey rest)) := by
  have hContains : fields.contains field = false :=
    Bool.eq_false_iff.2 (mt List.contains_iff_mem.1 hTaken)
  simp only [readKey, readString_append hKey, ofKey?_key, hContains, Bool.false_eq_true, if_false]

theorem readColon_append {blanks : List Char} (hBlank : Blank blanks) (rest : List Char) :
    readColon (blanks ++ ':' :: rest) = .ok rest := by
  rw [readColon, skipBlanks_append hBlank]
  rfl

theorem endsRun_append {blanks : List Char} {c : Char} (hBlank : Blank blanks)
    (hc : continuesNumber c = false) (rest : List Char) :
    EndsRun continuesNumber (blanks ++ c :: rest) := by
  intro d hHead
  cases blanks with
  | nil =>
      cases hHead
      exact hc
  | cons e blanks =>
      cases hHead
      rcases hBlank d List.mem_cons_self with rfl | rfl | rfl | rfl <;> rfl

theorem readMember_append {choice : Choice} {fields : List Field} {member : List Char}
    (hMember : WritesMember choice member) (hField : choice.field ∈ fields) :
    ∃ body blanks, member = '"' :: body ∧ Blank blanks ∧
      ∀ settings c rest, continuesNumber c = false →
        readMember fields settings (body ++ c :: rest) =
          .ok ((choice.field, settings.choose choice), blanks ++ c :: rest) := by
  obtain @⟨_, value, blanks, @⟨written, left, right, spells, blankLeft, blankRight⟩, writesValue,
    blank⟩ := hMember
  refine ⟨written ++ '"' :: (left ++ ':' :: (right ++ (value ++ blanks))), blanks, by simp, blank,
    ?_⟩
  intro settings c rest hc
  have hEnds := endsRun_append blank hc rest
  simp only [List.append_assoc, List.cons_append, readMember, readKey_append spells hField,
    readColon_append blankLeft, read_value writesValue blankRight hEnds]

section

variable {fields : List Field} {settings settings' : Settings} {field : Field}
  {text rest after next : List Char}

theorem readMembers_error {failure : Failure}
    (h : readMember fields settings text = .error failure) :
    readMembers fields settings text = .error failure := by
  rw [readMembers]
  split
  · rename_i hError
    cases hError.symm.trans h
    rfl
  · rename_i hOk
    cases hOk.symm.trans h

theorem readMembers_brace (h : readMember fields settings text = .ok ((field, settings'), rest))
    (hRest : skipBlanks rest = '}' :: after) :
    readMembers fields settings text = .ok (settings', after) := by
  rw [readMembers]
  split
  · rename_i hError
    cases hError.symm.trans h
  · rename_i hOk
    cases hOk.symm.trans h
    simp only [hRest]

theorem readMembers_comma (h : readMember fields settings text = .ok ((field, settings'), rest))
    (hRest : skipBlanks rest = ',' :: after) (hAfter : skipBlanks after = '"' :: next) :
    readMembers fields settings text = readMembers (fields.erase field) settings' next := by
  rw [readMembers]
  split
  · rename_i hError
    cases hError.symm.trans h
  · rename_i hOk
    cases hOk.symm.trans h
    simp only [hRest, hAfter]

end

/-! ## Reading objects -/

/-- The settings for which nothing has been chosen yet. -/
def unchosen (choices : List Choice) : List Field :=
  Field.all.filter (· ∉ choices.map Choice.field)

/-- What comes of settings and the text behind them. -/
def finish : Result Settings → Except Failure Settings
  | .error failure => .error failure
  | .ok (settings, rest) =>
    match skipBlanks rest with
    | [] => .ok settings
    | rest => .error (.next .trailingCharacters rest)

theorem finish_ok {settings : Settings} {rest : List Char} (hBlank : Blank rest) :
    finish (.ok (settings, rest)) = .ok settings := by
  have hRest := skipBlanks_append hBlank []
  rw [List.append_nil] at hRest
  simp only [finish, hRest]
  rfl

theorem readDocument_object {left : List Char} (hBlank : Blank left) (rest : List Char) :
    readDocument (left ++ '{' :: rest) = finish (readObject rest) := by
  rw [readDocument, skipBlanks_append hBlank]
  rfl

theorem mem_unchosen_iff {choices : List Choice} {field : Field} :
    field ∈ unchosen choices ↔ field ∉ choices.map Choice.field := by
  have hAll : field ∈ Field.all := by cases field <;> decide
  simp [unchosen, hAll]

theorem unchosen_append (choices : List Choice) (choice : Choice) :
    unchosen (choices ++ [choice]) = (unchosen choices).erase choice.field := by
  have hNodup : (unchosen choices).Nodup :=
    List.Pairwise.filter _ (show Field.all.Nodup by decide)
  rw [hNodup.erase_eq_filter, unchosen, unchosen, List.filter_filter]
  refine List.filter_congr fun field _ => ?_
  have hSame : (field != choice.field) = !decide (field = choice.field) := rfl
  simp [hSame, eq_comm, Bool.and_comm]

/-- At the next member, what has been chosen so far is set and cannot be chosen again. -/
theorem readDocument_begins {choices : List Choice} {start : List Char}
    (h : Begins choices start) (hNodup : (choices.map Choice.field).Nodup) (rest : List Char) :
    readDocument (start ++ '"' :: rest) =
      finish (readMembers (unchosen choices) (ofChoices choices) rest) := by
  induction h generalizing rest with
  | @object left right blankLeft blankRight =>
      have hStart : readObject (right ++ '"' :: rest) = readMembers Field.all {} rest := by
        rw [readObject, skipBlanks_append blankRight]
        rfl
      rw [List.append_assoc, List.cons_append, readDocument_object blankLeft, hStart]
      rfl
  | @member choices choice start member blanks begins writes blank ih =>
      obtain ⟨hBefore, hNew⟩ := nodup_append hNodup
      obtain ⟨body, gap, rfl, hGap, hRead⟩ := readMember_append writes (mem_unchosen_iff.2 hNew)
      have hMember := hRead (ofChoices choices) ',' (blanks ++ '"' :: rest) rfl
      have hComma : skipBlanks (gap ++ ',' :: (blanks ++ '"' :: rest)) =
          ',' :: (blanks ++ '"' :: rest) := skipBlanks_append hGap _
      have hQuote : skipBlanks (blanks ++ '"' :: rest) = '"' :: rest := skipBlanks_append blank _
      have hText : start ++ ('"' :: body ++ ',' :: blanks) ++ '"' :: rest =
          start ++ '"' :: (body ++ ',' :: (blanks ++ '"' :: rest)) := by simp
      rw [hText, ih hBefore, readMembers_comma hMember hComma hQuote, ofChoices_append hNew,
        unchosen_append]

theorem readDocument_object_eq {choices : List Choice} {text : List Char}
    (h : WritesObject choices text) (hNodup : (choices.map Choice.field).Nodup) :
    readDocument text = .ok (ofChoices choices) := by
  cases h with
  | @none left gap right blankLeft blankGap blankRight =>
      have hEmpty : readObject (gap ++ '}' :: right) = .ok ({}, right) := by
        rw [readObject, skipBlanks_append blankGap]
        rfl
      rw [readDocument_object blankLeft, hEmpty, finish_ok blankRight]
      rfl
  | @some choices choice start member blanks begins writes blank =>
      obtain ⟨hBefore, hNew⟩ := nodup_append hNodup
      obtain ⟨body, gap, rfl, hGap, hRead⟩ := readMember_append writes (mem_unchosen_iff.2 hNew)
      have hMember := hRead (ofChoices choices) '}' blanks rfl
      have hBrace : skipBlanks (gap ++ '}' :: blanks) = '}' :: blanks := skipBlanks_append hGap _
      rw [List.cons_append, readDocument_begins begins hBefore, readMembers_brace hMember hBrace,
        finish_ok blank, ofChoices_append hNew]

theorem exists_readMember_error {choices : List Choice} {text : List Char}
    (h : Spoils choices text) (settings : Settings) :
    ∃ body, text = '"' :: body ∧
      ∃ failure, readMember (unchosen choices) settings body = .error failure := by
  cases h with
  | @unknown key written rest spells unknown =>
      refine ⟨written ++ '"' :: rest, rfl, ?_⟩
      rw [readMember, readKey_unknown spells unknown]
      exact ⟨_, rfl⟩
  | @repeated choice written rest again spells =>
      have hTaken : choice.field ∉ unchosen choices :=
        fun hMem => mem_unchosen_iff.1 hMem (List.mem_map_of_mem again)
      refine ⟨written ++ '"' :: rest, rfl, ?_⟩
      rw [readMember, readKey_taken spells hTaken]
      exact ⟨_, rfl⟩
  | @unfit field most key text writesKey isNumber unfit =>
      obtain @⟨written, left, right, spells, blankLeft, blankRight⟩ := writesKey
      refine ⟨written ++ '"' :: (left ++ ':' :: (right ++ text)), by simp, ?_⟩
      by_cases hMem : field ∈ unchosen choices
      · obtain ⟨failure, hRead⟩ := read_unfit isNumber blankRight unfit settings
        exact ⟨failure, by
          simp only [readMember, readKey_append spells hMem, readColon_append blankLeft, hRead]⟩
      · rw [readMember, readKey_taken spells hMem]
        exact ⟨_, rfl⟩

/-- Where an object is spoilt, it is refused. -/
theorem exists_readDocument_error {choices : List Choice} {start text : List Char}
    (hBegins : Begins choices start) (hNodup : (choices.map Choice.field).Nodup)
    (hSpoils : Spoils choices text) : ∃ failure, readDocument (start ++ text) = .error failure := by
  obtain ⟨body, rfl, failure, hMember⟩ := exists_readMember_error hSpoils (ofChoices choices)
  refine ⟨failure, ?_⟩
  rw [readDocument_begins hBegins hNodup, readMembers_error hMember]
  rfl

theorem violation?_ofChoices {choices : List Choice}
    (hNodup : (choices.map Choice.field).Nodup) :
    (ofChoices choices).violation? = none ↔ ∀ choice ∈ choices, choice.IsSound := by
  induction choices using List.reverseRecOn with
  | nil => simp [violation?_eq_none_iff, ofChoices]
  | append_singleton choices choice ih =>
      obtain ⟨hBefore, hNew⟩ := nodup_append hNodup
      have hAll : (∀ other ∈ choices ++ [choice], other.IsSound) ↔
          (∀ other ∈ choices, other.IsSound) ∧ choice.IsSound := by
        simp [or_imp, forall_and]
      rw [ofChoices_append hNew, hAll, ← ih hBefore, violation?_eq_none_iff, violation?_eq_none_iff]
      cases choice with
      | indentUnit unit => simp [choose, Choice.IsSound]
      | maxRegexFlags most => simp [choose, Choice.IsSound]
      | maxMemberDepth most =>
          have hNone : choices.findSome? Choice.depth? = none :=
            findSome?_eq_none (by rintro ⟨⟩ <;> simp [Choice.field]) hNew
          simp [choose, Choice.IsSound, ofChoices, hNone, and_comm, ← UInt64.toNat_inj]
      | classPrefix letters =>
          have hNone : choices.findSome? Choice.letters? = none :=
            findSome?_eq_none (by rintro ⟨⟩ <;> simp [Choice.field]) hNew
          simp [choose, Choice.IsSound, ofChoices, hNone]

/-- Objects are read as the choices that they make, in any order and with any blanks, and are
invalid if a choice makes no sense. From a member that spoils an object on, no text makes it
other than malformed. Whatever is read makes sense. -/
theorem ofJson_writesObject :
    (∀ (choices : List Choice) (text : String), WritesObject choices text.toList →
      (choices.map Choice.field).Nodup →
        ((∀ choice ∈ choices, choice.IsSound) → ofJson text = .ok (ofChoices choices)) ∧
        (¬ (∀ choice ∈ choices, choice.IsSound) →
          ∃ violation, ofJson text = .error (.invalid violation))) ∧
    (∀ (choices : List Choice) (start rest : List Char), Begins choices start →
      (choices.map Choice.field).Nodup → Spoils choices rest →
        ∃ error, ofJson (String.ofList (start ++ rest)) = .error (.malformed error)) ∧
    ∀ (text : String) (settings : Settings), ofJson text = .ok settings →
      settings.violation? = none := by
  refine ⟨?_, ?_, fun text settings => violation?_of_ofJson⟩
  · intro choices text hWrites hNodup
    have hRead := readDocument_object_eq hWrites hNodup
    rw [← violation?_ofChoices hNodup]
    refine ⟨fun hSound => ?_, fun hUnsound => ?_⟩
    · simp only [ofJson, hRead, validate, hSound]
    · obtain ⟨violation, hViolation⟩ := Option.ne_none_iff_exists'.1 hUnsound
      exact ⟨violation, by simp only [ofJson, hRead, validate, hViolation]⟩
  · intro choices start rest hBegins hNodup hSpoils
    obtain ⟨failure, hRead⟩ := exists_readDocument_error hBegins hNodup hSpoils
    exact ⟨.ofFailure (start ++ rest) failure, by simp only [ofJson, String.toList_ofList, hRead]⟩

/-- Two choices are read, one with an escape in its value; a choice that makes no sense is
refused, and so is a text that is spoilt. -/
theorem ofJson_writesObject_escaped :
    ofJson " \x7b\"max_member_depth\":3\n,\"class_prefix\": \"js\\u002d\"\x7d" =
        .ok { maxMemberDepth := 3, classPrefix := "js-" } ∧
      (∃ violation, ofJson "\x7b\"max_member_depth\":0\x7d" = .error (.invalid violation)) ∧
      ∃ error, ofJson "\x7b\"indent_unit\": -1\x7d" = .error (.malformed error) := by
  have hNone : Blank [] := by decide
  have hSpace : Blank [' '] := by decide
  have hBegins (left : List Char) (hBlank : Blank left) : Begins [] (left ++ ['\x7b']) :=
    .object hBlank hNone
  have hDepth (most : UInt64) (blanks : List Char) (hBlank : Blank blanks) :
      WritesMember (.maxMemberDepth most)
        ("\"max_member_depth\":".toList ++ ((toString most.toNat).toList ++ blanks)) :=
    .mk (.plain .maxMemberDepth hNone) .maxMemberDepth hBlank
  refine ⟨?_, ?_, ?_⟩
  · have hUnit : hexValue4? '0' '0' '2' 'd' = some 0x2d := rfl
    have hDash : Spells "\\u002d".toList "-".toList := .unit hUnit rfl rfl .nil
    have hSpells : Spells "js\\u002d".toList "js-".toList :=
      .plain (by decide) (by decide) (by decide) (.plain (by decide) (by decide) (by decide) hDash)
    have hValue : Choice.WritesValue (.classPrefix "js-".toList) "\"js\\u002d\"".toList :=
      .classPrefix hSpells
    have hKey : WritesKey (Choice.classPrefix "js-".toList).field.key.toList
        "\"class_prefix\": ".toList := .plain .classPrefix hSpace
    have hPrefix : WritesMember (.classPrefix "js-".toList)
        "\"class_prefix\": \"js\\u002d\"".toList :=
      .mk hKey hValue hNone
    have hStart := (hBegins [' '] hSpace).member (hDepth 3 ['\n'] (by decide)) hNone
    have hWrites : WritesObject [.maxMemberDepth 3, .classPrefix "js-".toList]
        " \x7b\"max_member_depth\":3\n,\"class_prefix\": \"js\\u002d\"\x7d".toList :=
      .some hStart hPrefix hNone
    refine (ofJson_writesObject.1 _ _ hWrites (by decide)).1 ?_
    simp [Choice.IsSound, isPrefixCharacter]
  · have hWrites : WritesObject [.maxMemberDepth 0] "\x7b\"max_member_depth\":0\x7d".toList :=
      .some (hBegins [] hNone) (hDepth 0 [] hNone) hNone
    refine (ofJson_writesObject.1 _ _ hWrites (by decide)).2 ?_
    simp [Choice.IsSound]
  · have hUnfit : Spoils [] "\"indent_unit\": -1\x7d".toList :=
      .unfit (.plain .indentUnit hSpace) rfl .negative
    have hText : "\x7b\"indent_unit\": -1\x7d" =
        String.ofList (([] ++ ['\x7b']) ++ "\"indent_unit\": -1\x7d".toList) := by decide
    rw [hText]
    exact ofJson_writesObject.2.1 [] _ _ (hBegins [] hNone) (by decide) hUnfit

end Settings

end CodeListing
