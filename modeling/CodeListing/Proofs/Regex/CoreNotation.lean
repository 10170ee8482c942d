import CodeListing.Proofs.Regex.Balance

/-! # Neutral forms keep to the core of the notation

The neutral form of any text, pattern or not, uses only constructs of the core. A text
is read from left to right with the three things in mind that decide what the next
character is: the class around it, a backslash before it, a set escape before it. In this
reading the pass to the neutral form and the text that it writes agree at the end of every
construct, so one construct after another is compared with what the core allows in its
place.
-/

namespace CodeListing

namespace Pattern

/-- What the text before a character says of it. -/
structure Mode where
  /-- Whether the character stands in a class. -/
  inClass : Bool
  /-- Whether a backslash takes the character along. -/
  escaped : Bool
  /-- Whether the two characters before it are a set escape. -/
  afterSet : Bool
  deriving Repr, DecidableEq

namespace Mode

/-- The mode behind `c`. A class goes from an opening bracket to the next closing one that no
backslash takes along. -/
def next (mode : Mode) (c : Char) : Mode :=
  if mode.escaped then ⟨mode.inClass, false, isSetLetter c⟩
  else if c = '\\' then ⟨mode.inClass, true, false⟩
  else ⟨if mode.inClass then c ≠ ']' else c = '[', false, false⟩

def after (text : List Char) : Mode :=
  text.foldl next ⟨false, false, false⟩

theorem after_append_singleton (text : List Char) (c : Char) :
    after (text ++ [c]) = (after text).next c :=
  List.foldl_append

end Mode

/-- Whether a backslash at the end of the text has no character to take along. -/
def endsInBackslash : List Char → Bool
  | [] => false
  | c :: rest =>
    if c = '\\' then
      match rest with
      | [] => true
      | _ :: after => endsInBackslash after
    else endsInBackslash rest

/-- What may follow a backslash in the core. -/
inductive IsEscape (inClass : Bool) : List Char → Prop where
  | byte {digits} (two : digits.length = 2) (hex : ∀ d ∈ digits, Text.isHexDigit d = true) :
      IsEscape inClass ('x' :: digits)
  | unit {digits} (four : digits.length = 4) (hex : ∀ d ∈ digits, Text.isHexDigit d = true) :
      IsEscape inClass ('u' :: digits)
  | set {c} (letter : isSetLetter c = true) : IsEscape inClass [c]
  | control {c} (letter : (control? c).isSome = true) : IsEscape inClass [c]
  | character {c} (isMeta : isMeta c = true) : IsEscape inClass [c]
  | boundary {c} (outside : inClass = false) (letter : c = 'b' ∨ c = 'B') : IsEscape inClass [c]

inductive IsCount : List Char → Prop where
  | exactly (count : Regex.Digits) : IsCount count.chars
  | atLeast (least : Regex.Digits) : IsCount (least.chars ++ [','])
  | between (least most : Regex.Digits) : IsCount (least.chars ++ ',' :: most.chars)

/-- The character `c` is allowed between `before` and `after`, in the neutral form of `pattern`,
if no backslash takes it along. -/
structure InCore (pattern before : List Char) (c : Char) (after : List Char) : Prop where
  /-- A backslash begins an escape, or is the last character as it is in the pattern. -/
  backslash : c = '\\' →
    (∃ text, IsEscape (Mode.after before).inClass text ∧ text <+: after) ∨
      after = [] ∧ endsInBackslash pattern = true
  /-- Outside of classes an opening brace begins a quantifier. -/
  openBrace : (Mode.after before).inClass = false → c = '{' →
    ∃ count rest, IsCount count ∧ after = count ++ '}' :: rest
  /-- Outside of classes a closing brace ends a quantifier. -/
  closeBrace : (Mode.after before).inClass = false → c = '}' →
    ∃ left count, IsCount count ∧ before = left ++ '{' :: count ∧
      (Mode.after left).inClass = false ∧ (Mode.after left).escaped = false
  /-- Outside of classes nothing is closed that is not open. -/
  closeBracket : (Mode.after before).inClass = false → c ≠ ']'
  /-- A class has characters, also behind a caret. -/
  openBracket : (Mode.after before).inClass = false → c = '[' →
    ¬ [']'] <+: after ∧ ¬ ['^', ']'] <+: after
  /-- No class is in another one, and no operator on classes is used. -/
  operator : (Mode.after before).inClass = true → c ≠ '[' ∧ c ≠ '&' ∧ c ≠ '~'
  /-- In a class no dash stands beside a set. -/
  dash : (Mode.after before).inClass = true → c = '-' →
    (Mode.after before).afterSet = false ∧ startsWithSet after = false

/-- Every character of `text` is allowed where it stands. -/
def InCoreFrom (pattern before : List Char) : List Char → Prop
  | [] => True
  | c :: after =>
    ((Mode.after before).escaped = false → InCore pattern before c after) ∧
      InCoreFrom pattern (before ++ [c]) after

theorem InCoreFrom.inCore {pattern before text left after : List Char} {c : Char}
    (h : InCoreFrom pattern before text) (hText : text = left ++ c :: after)
    (hMode : (Mode.after (before ++ left)).escaped = false) :
    InCore pattern (before ++ left) c after := by
  induction left generalizing before text with
  | nil =>
      subst hText
      rw [List.append_nil] at hMode ⊢
      exact h.1 hMode
  | cons d left ih =>
      subst hText
      rw [List.append_cons] at hMode ⊢
      exact ih h.2 rfl hMode

/-! ## How a pattern ends -/

theorem endsInBackslash_append {c : Char} (hc : c ≠ '\\') (before after : List Char) :
    endsInBackslash (before ++ c :: after) = endsInBackslash after := by
  fun_induction endsInBackslash before with
  | case1 =>
      rw [List.nil_append, endsInBackslash.eq_def]
      exact if_neg hc
  | case2 => simp [endsInBackslash]
  | case3 d rest ih => simpa [endsInBackslash] using ih
  | case4 d rest hBackslash ih =>
      rw [List.cons_append, endsInBackslash.eq_def]
      exact (if_neg hBackslash).trans ih

theorem endsInBackslash_of_suffix {text taken left : List Char} (hText : text = taken ++ left)
    (hTaken : taken.getLast? ≠ some '\\') : endsInBackslash text = endsInBackslash left := by
  subst hText
  rcases List.eq_nil_or_concat' taken with rfl | ⟨before, c, rfl⟩
  · rfl
  · rw [List.append_assoc]
    exact endsInBackslash_append (by simpa using hTaken) before left

theorem getLast?_takeWhile {p : Char → Bool} (hp : p '\\' = false) (text : List Char) :
    (text.takeWhile p).getLast? ≠ some '\\' := by
  intro hLast
  have hBackslash := List.all_eq_true.1 List.all_takeWhile _ (List.mem_of_getLast? hLast)
  exact Bool.false_ne_true (hp.symm.trans hBackslash)

theorem endsInBackslash_dropWhile {p : Char → Bool} (hp : p '\\' = false) (text : List Char) :
    endsInBackslash (text.dropWhile p) = endsInBackslash text :=
  (endsInBackslash_of_suffix List.takeWhile_append_dropWhile.symm
    (getLast?_takeWhile hp text)).symm

theorem endsInBackslash_dropName (text : List Char)
    (h : endsInBackslash ((text.dropWhile (· ≠ '>')).drop 1) = true) :
    endsInBackslash text = true := by
  cases hName : text.dropWhile (· ≠ '>') with
  | nil =>
      rw [hName] at h
      cases h
  | cons c left =>
      have hText : text = text.takeWhile (· ≠ '>') ++ c :: left := by
        rw [← hName, List.takeWhile_append_dropWhile]
      have hEnd : c = '>' := by
        have hNot := List.head?_dropWhile_not (· ≠ '>') text
        rw [hName] at hNot
        simpa using hNot
      rw [hName] at h
      rw [hText, endsInBackslash_append (by rw [hEnd]; decide)]
      exact h

theorem endsInBackslash_drop {count : Nat} {text : List Char}
    (hDigits : count ≤ (text.takeWhile Text.isHexDigit).length) :
    endsInBackslash (text.drop count) = endsInBackslash text := by
  obtain ⟨hHex, -, -⟩ := cappedRun Text.isHexDigit count text (Nat.min_eq_left hDigits).symm
  refine (endsInBackslash_of_suffix (List.take_append_drop count text).symm ?_).symm
  intro hLast
  exact absurd (hHex _ (List.mem_of_getLast? hLast)) (by decide)

theorem endsInBackslash_neutralEscape {inClass : Bool} {c : Char} {rest : List Char}
    (h : endsInBackslash (neutralEscape inClass c rest).2 = true) :
    endsInBackslash rest = true := by
  have hReplaces := replaces_neutralEscape inClass c rest
  generalize (neutralEscape inClass c rest).1 = text, (neutralEscape inClass c rest).2 = left
    at h hReplaces
  cases hReplaces with
  | reference => rwa [endsInBackslash_dropWhile rfl] at h
  | name => exact endsInBackslash_dropName rest h
  | control _ isLetter hAfter =>
      subst hAfter
      rwa [← endsInBackslash_append (ne_of_test rfl isLetter).symm []] at h
  | alone hc =>
      subst hc
      exact (endsInBackslash_append (by decide) [] rest).symm.trans h
  | byte _ digits => rwa [endsInBackslash_drop digits] at h
  | unit _ digits => rwa [endsInBackslash_drop digits] at h
  | _ => exact h

theorem endsInBackslash_outside {c : Char} {rest : List Char}
    (h : endsInBackslash (Piece.outside c rest).rest = true) : endsInBackslash rest = true := by
  -- the characters of a construct, none of which is a backslash
  have hTaken (taken left : List Char) (hLast : taken.getLast? ≠ some '\\')
      (hLeft : endsInBackslash left = true) : endsInBackslash (taken ++ left) = true :=
    (endsInBackslash_of_suffix rfl hLast).trans hLeft
  unfold Piece.outside at h
  split at h
  · unfold Piece.bracket at h
    split at h
    · exact hTaken ['^', ']'] _ (by decide) h
    · exact hTaken [']'] _ (by decide) h
    · exact h
  split at h
  · unfold Piece.brace at h
    split at h
    · rename_i piece after hSplit
      obtain ⟨hText, hPlain, -⟩ := quantifier_of_split hSplit
      rw [hText]
      refine hTaken piece after (fun hLast => ?_) h
      exact absurd (hPlain _ (List.mem_of_getLast? hLast)) (by decide)
    · exact h
  split at h
  · unfold Piece.parenthesis splitLookaround? at h
    split at h
    · rename_i hSplit
      split at hSplit
      · cases hSplit
        exact hTaken ['?', '='] _ (by decide) h
      · cases hSplit
        exact hTaken ['?', '!'] _ (by decide) h
      · cases hSplit
        exact hTaken ['?', '<', '='] _ (by decide) h
      · cases hSplit
        exact hTaken ['?', '<', '!'] _ (by decide) h
      · cases hSplit
    · exact h
  split at h
  · exact h
  · exact h

/-- If what follows a construct ends in a backslash, the construct and it do. -/
theorem endsInBackslash_read {inClass afterSet : Bool} {c : Char} {rest : List Char}
    (h : endsInBackslash (Piece.read inClass afterSet c rest).rest = true) :
    endsInBackslash (c :: rest) = true := by
  unfold Piece.read at h
  split at h
  · rename_i hBackslash
    subst hBackslash
    cases rest with
    | nil => cases h
    | cons d after =>
        have hAfter : endsInBackslash after = true := endsInBackslash_neutralEscape h
        simpa [endsInBackslash] using hAfter
  · rename_i hBackslash
    have hRest : endsInBackslash (c :: rest) = endsInBackslash rest :=
      endsInBackslash_append hBackslash [] rest
    rw [hRest]
    split at h
    · unfold Piece.inside at h
      repeat' split at h
      all_goals exact h
    · exact endsInBackslash_outside h

/-! ## One construct -/

/-- The text written so far is in the mode that the pass believes it is in. -/
structure Agrees (before : List Char) (inClass afterSet : Bool) : Prop where
  inClass_eq : (Mode.after before).inClass = inClass
  escaped_eq : (Mode.after before).escaped = false
  afterSet_le : inClass = true → (Mode.after before).afterSet = true → afterSet = true

def reserved (inClass : Bool) : List Char :=
  if inClass then "\\[]&~-".toList else "\\[]\x7b\x7d".toList

theorem notMem_reserved_of_not_isMeta {c : Char} (h : isMeta c = false) (inClass : Bool) :
    c ∉ reserved inClass := by
  have hMeta : (reserved inClass).all isMeta = true := by cases inClass <;> rfl
  intro hMem
  exact Bool.false_ne_true (h.symm.trans (List.all_eq_true.1 hMeta c hMem))

theorem notMem_reserved_of_test {p : Char → Bool} {c : Char} (h : p c = true)
    (hNone : ∀ inClass, (reserved inClass).any p = false) (inClass : Bool) :
    c ∉ reserved inClass := by
  intro hMem
  have hAny : (reserved inClass).any p = true := List.any_eq_true.2 ⟨c, hMem, h⟩
  exact Bool.false_ne_true ((hNone inClass).symm.trans hAny)

theorem Agrees.mono {before : List Char} {inClass afterSet afterSet' : Bool}
    (h : Agrees before inClass afterSet)
    (hSet : inClass = true → afterSet = true → afterSet' = true) :
    Agrees before inClass afterSet' :=
  ⟨h.inClass_eq, h.escaped_eq, fun hClass hAfter => hSet hClass (h.afterSet_le hClass hAfter)⟩

/-- A character that no backslash takes along and that is no backslash leaves no set behind. -/
theorem Agrees.next {before : List Char} {c : Char} {inClass afterSet : Bool}
    (h : Agrees before inClass afterSet) (hBackslash : c ≠ '\\') (afterSet' : Bool) :
    Agrees (before ++ [c]) (if inClass then c ≠ ']' else c = '[') afterSet' := by
  have hNext : Mode.after (before ++ [c]) =
      ⟨if inClass then c ≠ ']' else c = '[', false, false⟩ := by
    rw [Mode.after_append_singleton, Mode.next, h.escaped_eq, h.inClass_eq, if_neg nofun,
      if_neg hBackslash]
  constructor
  · rw [hNext]
  · rw [hNext]
  · rw [hNext]
    exact nofun

theorem Agrees.plain {before : List Char} {c : Char} {inClass afterSet : Bool}
    (h : Agrees before inClass afterSet) (hc : c ∉ reserved inClass) (afterSet' : Bool) :
    Agrees (before ++ [c]) inClass afterSet' := by
  cases inClass with
  | false =>
      simp [reserved] at hc
      have hNext := h.next (c := c) hc.1 afterSet'
      simpa [hc] using hNext
  | true =>
      simp [reserved] at hc
      have hNext := h.next (c := c) hc.1 afterSet'
      simpa [hc] using hNext

section

variable {pattern before later : List Char} {inClass afterSet : Bool}

theorem InCore.plain {c : Char} (h : Agrees before inClass afterSet) (hc : c ∉ reserved inClass)
    (after : List Char) : InCore pattern before c after := by
  cases inClass with
  | false =>
      simp [reserved] at hc
      constructor <;> simp [h.inClass_eq, hc]
  | true =>
      simp [reserved] at hc
      constructor <;> simp [h.inClass_eq, hc]

theorem InCoreFrom.plain {c : Char} (h : Agrees before inClass afterSet)
    (hc : c ∉ reserved inClass)
    (hLater : Agrees (before ++ [c]) inClass false → InCoreFrom pattern (before ++ [c]) later) :
    InCoreFrom pattern before (c :: later) :=
  ⟨fun _ => .plain h hc later, hLater (h.plain hc false)⟩

theorem InCoreFrom.run {run : List Char} (h : Agrees before inClass afterSet)
    (hRun : ∀ c ∈ run, c ∉ reserved inClass)
    (hLater : Agrees (before ++ run) inClass afterSet →
      InCoreFrom pattern (before ++ run) later) :
    InCoreFrom pattern before (run ++ later) := by
  induction run generalizing before with
  | nil =>
      rw [List.append_nil] at hLater
      exact hLater h
  | cons c run ih =>
      obtain ⟨hc, hRun⟩ := List.forall_mem_cons.1 hRun
      refine ⟨fun _ => .plain h hc _, ?_⟩
      rw [List.append_cons] at hLater
      exact ih (h.plain hc afterSet) hRun hLater

theorem IsEscape.exists_cons {text : List Char} (h : IsEscape inClass text) :
    ∃ c digits, text = c :: digits ∧ (∀ d ∈ digits, Text.isHexDigit d = true) ∧
      (isSetLetter c = true → digits = []) := by
  cases h with
  | byte two hex => exact ⟨'x', _, rfl, hex, nofun⟩
  | unit four hex => exact ⟨'u', _, rfl, hex, nofun⟩
  | set => exact ⟨_, [], rfl, by simp, fun _ => rfl⟩
  | control => exact ⟨_, [], rfl, by simp, fun _ => rfl⟩
  | character => exact ⟨_, [], rfl, by simp, fun _ => rfl⟩
  | boundary => exact ⟨_, [], rfl, by simp, fun _ => rfl⟩

theorem InCoreFrom.escape {text : List Char} {afterSet' : Bool}
    (h : Agrees before inClass afterSet) (hText : IsEscape inClass text)
    (hSet : inClass = true → ∀ c, text = [c] → isSetLetter c = true → afterSet' = true)
    (hLater : Agrees (before ++ '\\' :: text) inClass afterSet' →
      InCoreFrom pattern (before ++ '\\' :: text) later) :
    InCoreFrom pattern before ('\\' :: (text ++ later)) := by
  obtain ⟨c, digits, hCons, hDigits, hShort⟩ := hText.exists_cons
  have hBackslash : Mode.after (before ++ ['\\']) = ⟨inClass, true, false⟩ := by
    simp [Mode.after_append_singleton, Mode.next, h.escaped_eq, h.inClass_eq]
  have hTaken : Mode.after (before ++ ['\\'] ++ [c]) = ⟨inClass, false, isSetLetter c⟩ := by
    rw [Mode.after_append_singleton, hBackslash]
    rfl
  have hAgrees : Agrees (before ++ ['\\'] ++ [c]) inClass afterSet' := by
    constructor
    · rw [hTaken]
    · rw [hTaken]
    · rw [hTaken]
      intro hClass hLetter
      exact hSet hClass c (by rw [hCons, hShort hLetter]) hLetter
  refine ⟨fun _ => ?_, ?_⟩
  · have hEscape : IsEscape (Mode.after before).inClass text := h.inClass_eq ▸ hText
    constructor
    case backslash => exact fun _ => .inl ⟨text, hEscape, List.prefix_append text later⟩
    all_goals simp
  · rw [hCons]
    refine ⟨fun hMode => ?_, ?_⟩
    · rw [hBackslash] at hMode
      cases hMode
    · refine .run hAgrees
        (fun d hd => notMem_reserved_of_test (hDigits d hd) (by decide) inClass) fun hAfter => ?_
      have hPlace : before ++ ['\\'] ++ [c] ++ digits = before ++ '\\' :: text := by simp [hCons]
      rw [hPlace] at hAfter ⊢
      exact hLater hAfter

theorem InCoreFrom.openClass (h : Agrees before false afterSet)
    (hEnd : ¬ [']'] <+: later) (hCaret : ¬ ['^', ']'] <+: later)
    (hLater : Agrees (before ++ ['[']) true false → InCoreFrom pattern (before ++ ['[']) later) :
    InCoreFrom pattern before ('[' :: later) := by
  refine ⟨fun _ => ?_, hLater (h.next (by decide) false)⟩
  constructor
  case openBracket => exact fun _ _ => ⟨hEnd, hCaret⟩
  all_goals simp [h.inClass_eq]

theorem InCoreFrom.closeClass (h : Agrees before true afterSet)
    (hLater : Agrees (before ++ [']']) false false → InCoreFrom pattern (before ++ [']']) later) :
    InCoreFrom pattern before (']' :: later) := by
  refine ⟨fun _ => ?_, hLater (h.next (by decide) false)⟩
  constructor <;> simp [h.inClass_eq]

theorem InCoreFrom.dash (h : Agrees before true false) (hAfter : startsWithSet later = false)
    (hLater : Agrees (before ++ ['-']) true false → InCoreFrom pattern (before ++ ['-']) later) :
    InCoreFrom pattern before ('-' :: later) := by
  refine ⟨fun _ => ?_, hLater (h.next (by decide) false)⟩
  have hBefore : (Mode.after before).afterSet = false :=
    Bool.eq_false_iff.2 fun hSet => Bool.false_ne_true (h.afterSet_le rfl hSet)
  constructor
  case dash => exact fun _ _ => ⟨hBefore, hAfter⟩
  all_goals simp [h.inClass_eq]

theorem IsCount.notMem_reserved {count : List Char} (h : IsCount count) {c : Char}
    (hc : c ∈ count) : c ∉ reserved false := by
  have hDigit {d : Char} (hd : d.isDigit = true) : d ∉ reserved false :=
    notMem_reserved_of_test hd (by decide) false
  cases h with
  | exactly count => exact hDigit (count.isDigit c hc)
  | atLeast least =>
      rcases List.mem_append.1 hc with hc | hc
      · exact hDigit (least.isDigit c hc)
      · rw [List.mem_singleton.1 hc]
        decide
  | between least most =>
      rcases List.mem_append.1 hc with hc | hc
      · exact hDigit (least.isDigit c hc)
      · rcases List.mem_cons.1 hc with rfl | hc
        · decide
        · exact hDigit (most.isDigit c hc)

theorem InCoreFrom.braces {count : List Char} (h : Agrees before false afterSet)
    (hCount : IsCount count)
    (hLater : Agrees (before ++ '{' :: (count ++ ['}'])) false false →
      InCoreFrom pattern (before ++ '{' :: (count ++ ['}'])) later) :
    InCoreFrom pattern before ('{' :: (count ++ '}' :: later)) := by
  refine ⟨fun _ => ?_, ?_⟩
  · constructor
    case openBrace => exact fun _ _ => ⟨count, later, hCount, rfl⟩
    all_goals simp [h.inClass_eq]
  · have hOpen : Agrees (before ++ ['{']) false false := h.next (by decide) false
    refine .run hOpen (fun c hc => hCount.notMem_reserved hc) fun hInner => ?_
    refine ⟨fun _ => ?_, ?_⟩
    · constructor
      case closeBrace =>
        exact fun _ _ => ⟨before, count, hCount, by simp, h.inClass_eq, h.escaped_eq⟩
      all_goals simp
    · have hClose : Agrees (before ++ ['{'] ++ count ++ ['}']) false false :=
        hInner.next (by decide) false
      have hPlace : before ++ ['{'] ++ count ++ ['}'] = before ++ '{' :: (count ++ ['}']) := by simp
      rw [hPlace] at hClose ⊢
      exact hLater hClose

end

/-! ## The pass -/

/-- What can stand for a backslash and `c`: an escape, outside of classes an empty group, or the
character alone if it means nothing. -/
inductive EscapeForm (inClass : Bool) (c : Char) : List Char → Prop where
  | escape {text} (isEscape : IsEscape inClass text)
      (letter : ∀ d, text.head? = some d → isSetLetter d = true → d = c) :
      EscapeForm inClass c ('\\' :: text)
  | group (outside : inClass = false) : EscapeForm inClass c ['(', '?', ':', ')']
  | alone (notMeta : isMeta c = false) : EscapeForm inClass c [c]

theorem EscapeForm.of_head {inClass : Bool} {c d : Char} {more : List Char}
    (h : IsEscape inClass (d :: more)) (hd : isSetLetter d = false) :
    EscapeForm inClass c ('\\' :: d :: more) := by
  refine .escape h fun e hHead hSet => ?_
  cases hHead
  exact absurd hSet (Bool.eq_false_iff.1 hd)

theorem EscapeForm.of_self {inClass : Bool} {c : Char} (h : IsEscape inClass [c]) :
    EscapeForm inClass c ['\\', c] :=
  .escape h fun _ hHead _ => (Option.some.inj hHead).symm

theorem isHexDigit_of_mem_take {count : Nat} {text : List Char}
    (hDigits : count ≤ (text.takeWhile Text.isHexDigit).length) :
    (text.take count).length = count ∧ ∀ d ∈ text.take count, Text.isHexDigit d = true := by
  obtain ⟨hHex, -, -⟩ := cappedRun Text.isHexDigit count text (Nat.min_eq_left hDigits).symm
  have hRun := (List.takeWhile_prefix (l := text) Text.isHexDigit).length_le
  exact ⟨List.length_take_of_le (by omega), hHex⟩

theorem isEscape_controlEscape (inClass : Bool) (letter : Char) :
    ∃ digits, controlEscape letter = '\\' :: 'x' :: digits ∧ IsEscape inClass ('x' :: digits) := by
  have hDigits : ∀ code < 32, Text.isHexDigit (Nat.digitChar (code / 16)) = true ∧
      Text.isHexDigit (Nat.digitChar (code % 16)).toUpper = true := by decide
  obtain ⟨hHigh, hLow⟩ := hDigits (letter.toNat % 32) (Nat.mod_lt _ (by decide))
  exact ⟨_, rfl, .byte rfl (List.forall_mem_cons.2 ⟨hHigh, List.forall_mem_singleton.2 hLow⟩)⟩

theorem escapeForm_neutralEscape (inClass : Bool) (c : Char) (rest : List Char) :
    EscapeForm inClass c (neutralEscape inClass c rest).1 := by
  have hReplaces := replaces_neutralEscape inClass c rest
  generalize (neutralEscape inClass c rest).1 = text, (neutralEscape inClass c rest).2 = left
    at hReplaces ⊢
  cases hReplaces with
  | null => exact .of_head (.byte rfl (List.all_eq_true.1 rfl)) rfl
  | reference _ outside => exact .group outside
  | name _ outside => exact .group outside
  | @control letter =>
      obtain ⟨digits, hText, hEscape⟩ := isEscape_controlEscape inClass letter
      rw [hText]
      exact .of_head hEscape rfl
  | alone => exact .of_head (.character rfl) rfl
  | backspace => exact .of_head (.byte rfl (List.all_eq_true.1 rfl)) rfl
  | byte _ digits =>
      obtain ⟨hTwo, hHex⟩ := isHexDigit_of_mem_take digits
      exact .of_head (.byte hTwo hHex) rfl
  | unit _ digits =>
      obtain ⟨hFour, hHex⟩ := isHexDigit_of_mem_take digits
      exact .of_head (.unit hFour hHex) rfl
  | set isSet => exact .of_self (.set isSet)
  | letter isControl => exact .of_self (.control isControl)
  | boundary hc outside => exact .of_self (.boundary outside hc)
  | symbol isMeta => exact .of_self (.character isMeta)
  | plain notMeta => exact .alone notMeta

theorem isSetLetter_of_isMeta {c : Char} (h : isMeta c = true) : isSetLetter c = false := by
  rw [Bool.eq_false_iff]
  intro hSet
  rcases Regex.isSetLetter_iff.1 hSet with rfl | rfl | rfl | rfl | rfl | rfl
  all_goals cases h

/-- The rest of a class that holds two sets, of which each is the other's complement. -/
def setsEnd : List Char :=
  ['\\', 's', '\\', 'S', ']']

/-- The ways in which the pass writes a construct. -/
inductive Writes (inClass afterSet : Bool) : Char → List Char → Piece → Prop where
  | lone : Writes inClass afterSet '\\' [] ⟨['\\'], inClass, false, []⟩
  | escape {d after text left} (form : EscapeForm inClass d text) :
      Writes inClass afterSet '\\' (d :: after) ⟨text, inClass, inClass && isSetLetter d, left⟩
  | shielded {c rest} (isMeta : isMeta c = true) :
      Writes inClass afterSet c rest ⟨['\\', c], inClass, false, rest⟩
  | plain {c rest} (free : c ∉ reserved inClass) :
      Writes inClass afterSet c rest ⟨[c], inClass, false, rest⟩
  | dash {rest} (inside : inClass = true) (notAfter : afterSet = false)
      (notBefore : startsWithSet rest = false) :
      Writes inClass afterSet '-' rest ⟨['-'], true, false, rest⟩
  | closeClass {rest} (inside : inClass = true) :
      Writes inClass afterSet ']' rest ⟨[']'], false, false, rest⟩
  | openClass {rest} (outside : inClass = false) (notEmpty : ∀ after, rest ≠ ']' :: after)
      (notAll : ∀ after, rest ≠ '^' :: ']' :: after) :
      Writes inClass afterSet '[' rest ⟨['['], true, false, rest⟩
  | allClass {after} (outside : inClass = false) :
      Writes inClass afterSet '[' ('^' :: ']' :: after) ⟨'[' :: setsEnd, false, false, after⟩
  | emptyClass {after} (outside : inClass = false) :
      Writes inClass afterSet '[' (']' :: after) ⟨'[' :: '^' :: setsEnd, false, false, after⟩
  | braces {rest count after} (outside : inClass = false) (isCount : IsCount count) :
      Writes inClass afterSet '{' rest ⟨'{' :: (count ++ ['}']), false, false, after⟩
  | lookaround {rest after} (outside : inClass = false) :
      Writes inClass afterSet '(' rest ⟨['(', '?', ':'], false, false, after⟩

theorem isCount_of_split {text piece after : List Char}
    (h : splitQuantifier? text = some (piece, after)) :
    ∃ count, IsCount count ∧ piece = count ++ ['}'] := by
  have hRun (text : List Char) : ∀ d ∈ text.takeWhile Char.isDigit, d.isDigit = true :=
    List.all_eq_true.1 List.all_takeWhile
  simp only [splitQuantifier?] at h
  split at h
  · cases h
  · rename_i hSome
    let least : Regex.Digits := ⟨_, by simpa using hSome, hRun text⟩
    split at h
    · cases h
      exact ⟨_, .exactly least, rfl⟩
    · rename_i more hDrop
      split at h
      · cases h
        by_cases hNone : more.takeWhile Char.isDigit = []
        · exact ⟨_, .atLeast least, by simp [hNone, least]⟩
        · exact ⟨_, .between least ⟨_, hNone, hRun more⟩, by simp [least]⟩
      · cases h
    · cases h

theorem writes_outside (afterSet : Bool) {c : Char} (hBackslash : c ≠ '\\') (rest : List Char) :
    Writes false afterSet c rest (Piece.outside c rest) := by
  unfold Piece.outside
  split
  · rename_i hOpen
    subst hOpen
    unfold Piece.bracket
    split
    · exact .allClass rfl
    · exact .emptyClass rfl
    · rename_i hNotAll hNotEmpty
      exact .openClass rfl hNotEmpty hNotAll
  split
  · rename_i hBrace
    subst hBrace
    unfold Piece.brace
    split
    · rename_i hSplit
      obtain ⟨count, hCount, rfl⟩ := isCount_of_split hSplit
      exact .braces rfl hCount
    · exact .shielded rfl
  split
  · rename_i hOpen
    subst hOpen
    unfold Piece.parenthesis
    split
    · exact .lookaround rfl
    · exact .plain (by decide)
  split
  · rename_i hClose
    have hMeta : isMeta c = true := by
      rcases Bool.or_eq_true_iff.1 hClose with hClose | hClose
      · rw [of_decide_eq_true hClose]
        rfl
      · rw [of_decide_eq_true hClose]
        rfl
    exact .shielded hMeta
  · rename_i hBracket hBrace hParenthesis hClose
    simp only [Bool.or_eq_true, decide_eq_true_eq, not_or] at hClose
    exact .plain (by simp [reserved, hBackslash, hBracket, hBrace, hClose])

theorem writes_inside {afterSet : Bool} {c : Char} (hBackslash : c ≠ '\\') (rest : List Char) :
    Writes true afterSet c rest (Piece.inside afterSet c rest) := by
  unfold Piece.inside
  split
  · rename_i hOperator
    simp only [Bool.or_eq_true, decide_eq_true_eq] at hOperator
    have hMeta : isMeta c = true := by
      rcases hOperator with (rfl | rfl) | rfl <;> rfl
    exact .shielded hMeta
  rename_i hOperator
  simp only [Bool.or_eq_true, decide_eq_true_eq, not_or] at hOperator
  split
  · rename_i hClose
    subst hClose
    exact .closeClass rfl
  rename_i hClose
  split
  · rename_i hDash
    obtain rfl : c = '-' := of_decide_eq_true (Bool.and_eq_true_iff.1 hDash).1
    exact .shielded rfl
  · rename_i hDash
    by_cases hc : c = '-'
    · subst hc
      simp only [decide_true, Bool.true_and, Bool.or_eq_true, not_or, Bool.not_eq_true] at hDash
      exact .dash rfl hDash.1 hDash.2
    · exact .plain (by simp [reserved, hBackslash, hOperator, hClose, hc])

/-- Every construct is written in one of the listed ways. -/
theorem writes_read (inClass afterSet : Bool) (c : Char) (rest : List Char) :
    Writes inClass afterSet c rest (Piece.read inClass afterSet c rest) := by
  unfold Piece.read
  split
  · rename_i hBackslash
    subst hBackslash
    cases rest with
    | nil => exact .lone
    | cons d after => exact .escape (escapeForm_neutralEscape inClass d after)
  · rename_i hBackslash
    cases inClass with
    | false => exact writes_outside afterSet hBackslash rest
    | true => exact writes_inside hBackslash rest

theorem neutralFrom_cons (inClass afterSet : Bool) (c : Char) (rest : List Char) :
    ∃ piece, Writes inClass afterSet c rest piece ∧
      neutralFrom inClass afterSet (c :: rest) =
        piece.text ++ neutralFrom piece.inClass piece.afterSet piece.rest :=
  ⟨_, writes_read inClass afterSet c rest, neutralFrom_of_read rfl⟩

theorem eq_cons_of_neutralFrom {afterSet : Bool} {c : Char} {rest left : List Char}
    (hMeta : isMeta c = true) (hBackslash : c ≠ '\\')
    (h : neutralFrom true afterSet rest = c :: left) :
    ∃ after, rest = c :: after ∧ (c ≠ ']' → left = neutralFrom true false after) := by
  cases rest with
  | nil =>
      rw [neutralFrom_nil] at h
      cases h
  | cons d rest =>
      obtain ⟨piece, hWrites, hText⟩ := neutralFrom_cons true afterSet d rest
      rw [hText] at h
      cases hWrites with
      | lone => exact absurd (List.cons.inj h).1.symm hBackslash
      | escape form =>
          cases form with
          | escape => exact absurd (List.cons.inj h).1.symm hBackslash
          | group outside => cases outside
          | alone notMeta =>
              obtain ⟨rfl, -⟩ := List.cons.inj h
              exact absurd (notMeta.symm.trans hMeta) Bool.false_ne_true
      | shielded => exact absurd (List.cons.inj h).1.symm hBackslash
      | plain free =>
          obtain ⟨rfl, hLeft⟩ := List.cons.inj h
          exact ⟨rest, rfl, fun _ => hLeft.symm⟩
      | dash =>
          obtain ⟨rfl, hLeft⟩ := List.cons.inj h
          exact ⟨rest, rfl, fun _ => hLeft.symm⟩
      | closeClass =>
          obtain ⟨rfl, -⟩ := List.cons.inj h
          exact ⟨rest, rfl, fun hEnd => absurd rfl hEnd⟩
      | openClass outside => cases outside
      | allClass outside => cases outside
      | emptyClass outside => cases outside
      | braces outside => cases outside
      | lookaround outside => cases outside

theorem startsWithSet_neutralFrom {afterSet : Bool} {rest : List Char}
    (h : startsWithSet rest = false) : startsWithSet (neutralFrom true afterSet rest) = false := by
  cases rest with
  | nil =>
      rw [neutralFrom_nil]
      rfl
  | cons c rest =>
      obtain ⟨piece, hWrites, hText⟩ := neutralFrom_cons true afterSet c rest
      have hPlain {d : Char} (hd : d ≠ '\\') (text : List Char) :
          startsWithSet ([d] ++ text) = false := by simp [startsWithSet, hd]
      rw [hText]
      cases hWrites with
      | lone =>
          rw [neutralFrom_nil]
          rfl
      | escape form =>
          rename_i d after text left
          cases form with
          | escape isEscape letter =>
              obtain ⟨e, digits, rfl, -, -⟩ := isEscape.exists_cons
              have hNot : isSetLetter d = false := h
              rw [Bool.eq_false_iff]
              intro hSet
              have hLetter : isSetLetter e = true := hSet
              rw [letter e rfl hLetter, hNot] at hLetter
              cases hLetter
          | group outside => cases outside
          | alone notMeta => exact hPlain (ne_of_test notMeta rfl) _
      | shielded hMeta => exact isSetLetter_of_isMeta hMeta
      | plain free => exact hPlain (fun hc => free (by simp [hc, reserved])) _
      | dash => exact hPlain (by decide) _
      | closeClass => exact hPlain (by decide) _
      | openClass outside => cases outside
      | allClass outside => cases outside
      | emptyClass outside => cases outside
      | braces outside => cases outside
      | lookaround outside => cases outside

theorem not_prefix_neutralFrom {rest : List Char} (hEmpty : ∀ after, rest ≠ ']' :: after)
    (hAll : ∀ after, rest ≠ '^' :: ']' :: after) :
    ¬ [']'] <+: neutralFrom true false rest ∧ ¬ ['^', ']'] <+: neutralFrom true false rest := by
  constructor
  · rintro ⟨left, hText⟩
    obtain ⟨after, hRest, -⟩ := eq_cons_of_neutralFrom rfl (by decide) hText.symm
    exact hEmpty after hRest
  · rintro ⟨left, hText⟩
    obtain ⟨after, hRest, hLeft⟩ := eq_cons_of_neutralFrom rfl (by decide) hText.symm
    obtain ⟨more, hAfter, -⟩ := eq_cons_of_neutralFrom rfl (by decide) (hLeft (by decide)).symm
    exact hAll more (hAfter ▸ hRest)

theorem InCoreFrom.sets {pattern before later : List Char} {afterSet : Bool}
    (h : Agrees before true afterSet)
    (hLater : Agrees (before ++ setsEnd) false false →
      InCoreFrom pattern (before ++ setsEnd) later) :
    InCoreFrom pattern before (setsEnd ++ later) := by
  change InCoreFrom pattern before ('\\' :: (['s'] ++ '\\' :: (['S'] ++ ']' :: later)))
  refine .escape h (.set rfl) (fun _ _ _ _ => rfl) fun (h : Agrees _ true true) => ?_
  refine .escape h (.set rfl) (fun _ _ _ _ => rfl) fun (h : Agrees _ true true) => ?_
  refine .closeClass h fun h => ?_
  rw [List.append_assoc, List.append_assoc] at h ⊢
  exact hLater h

/-- One construct of the pass is of the core if all that is written behind it is. -/
theorem InCoreFrom.writes {pattern before : List Char} {inClass afterSet : Bool} {c : Char}
    {rest : List Char} {piece : Piece} (hWrites : Writes inClass afterSet c rest piece)
    (hEnds : endsInBackslash (c :: rest) = true → endsInBackslash pattern = true)
    (h : Agrees before inClass afterSet)
    (hLater : Agrees (before ++ piece.text) piece.inClass piece.afterSet →
      InCoreFrom pattern (before ++ piece.text)
        (neutralFrom piece.inClass piece.afterSet piece.rest)) :
    InCoreFrom pattern before
      (piece.text ++ neutralFrom piece.inClass piece.afterSet piece.rest) := by
  cases hWrites with
  | lone =>
      rw [neutralFrom_nil, List.append_nil]
      refine ⟨fun _ => ?_, trivial⟩
      constructor
      case backslash => exact fun _ => .inr ⟨rfl, hEnds (by simp [endsInBackslash])⟩
      all_goals simp
  | escape form =>
      cases form with
      | escape isEscape letter =>
          refine .escape h isEscape (fun hClass e hText hSet => ?_) hLater
          rw [hClass, ← letter e (by rw [hText]; rfl) hSet, hSet]
          rfl
      | group outside =>
          subst outside
          have hGroup : ∀ d ∈ ['(', '?', ':', ')'], d ∉ reserved false := by simp [reserved]
          exact .run h hGroup fun hAfter => hLater (hAfter.mono nofun)
      | alone notMeta =>
          exact .plain h (notMem_reserved_of_not_isMeta notMeta inClass) fun hAfter =>
            hLater (hAfter.mono nofun)
  | shielded hMeta =>
      refine .escape h (.character hMeta) (fun _ e hText hSet => ?_) hLater
      cases hText
      exact absurd ((isSetLetter_of_isMeta hMeta).symm.trans hSet) Bool.false_ne_true
  | plain free => exact .plain h free hLater
  | dash inside notAfter notBefore =>
      subst inside notAfter
      exact .dash h (startsWithSet_neutralFrom notBefore) hLater
  | closeClass inside =>
      subst inside
      exact .closeClass h hLater
  | openClass outside notEmpty notAll =>
      subst outside
      obtain ⟨hEmpty, hAll⟩ := not_prefix_neutralFrom notEmpty notAll
      exact .openClass h hEmpty hAll hLater
  | allClass outside =>
      subst outside
      refine .openClass h (by simp [setsEnd]) (by simp [setsEnd]) fun h => .sets h fun h => ?_
      rw [List.append_assoc] at h ⊢
      exact hLater h
  | emptyClass outside =>
      subst outside
      refine .openClass h (by simp) (by simp [setsEnd]) fun h => ?_
      refine .plain h (by decide) fun h => .sets h fun h => ?_
      rw [List.append_assoc, List.append_assoc] at h ⊢
      exact hLater h
  | braces outside isCount =>
      subst outside
      have hBraces := InCoreFrom.braces h isCount hLater
      simpa using hBraces
  | lookaround outside =>
      subst outside
      have hGroup : ∀ d ∈ ['(', '?', ':'], d ∉ reserved false := by simp [reserved]
      exact .run h hGroup fun hAfter => hLater (hAfter.mono nofun)

/-- What the pass writes behind a text in its own mode is of the core. -/
theorem inCoreFrom_neutralFrom {pattern : List Char} (inClass afterSet : Bool)
    (text before : List Char) (h : Agrees before inClass afterSet)
    (hEnds : endsInBackslash text = true → endsInBackslash pattern = true) :
    InCoreFrom pattern before (neutralFrom inClass afterSet text) := by
  fun_induction neutralFrom inClass afterSet text generalizing before with
  | case1 => trivial
  | case2 inClass afterSet c rest piece ih =>
      refine .writes (writes_read inClass afterSet c rest) hEnds h fun hAfter => ?_
      exact ih _ hAfter fun hRest => hEnds (endsInBackslash_read hRest)

/-- The neutral form of any text is of the core: each of its characters that no backslash takes
along is allowed where it stands. -/
theorem inCore_neutral {pattern before after : List Char} {c : Char}
    (h : neutral pattern = before ++ c :: after)
    (hMode : (Mode.after before).escaped = false) : InCore pattern before c after := by
  have hStart : Agrees [] false false := ⟨rfl, rfl, nofun⟩
  exact (inCoreFrom_neutralFrom false false pattern [] hStart id).inCore h hMode

/-- A dash in front of a set, in a class that nothing ends, with a backslash at the end. -/
theorem inCore_neutral_dash :
    neutral "\x7b1,[&-\\d-\\ck\\".toList = "\\\x7b1,[\\&\\-\\d\\-\\x0B".toList ++ '\\' :: [] ∧
    (Mode.after "\\\x7b1,[\\&\\-\\d\\-\\x0B".toList).escaped = false ∧
    InCore "\x7b1,[&-\\d-\\ck\\".toList "\\\x7b1,[\\&\\-\\d\\-\\x0B".toList '\\' [] := by
  have hNeutral : neutral "\x7b1,[&-\\d-\\ck\\".toList =
      "\\\x7b1,[\\&\\-\\d\\-\\x0B".toList ++ '\\' :: [] := by decide +kernel
  exact ⟨hNeutral, by decide, inCore_neutral hNeutral (by decide)⟩

end Pattern

end CodeListing
