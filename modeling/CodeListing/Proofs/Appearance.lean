import CodeListing.Proofs.Line
import CodeListing.Proofs.SafeMarkup

/-! # What settings do to the markup

The class prefix stands before the class name in every tag that opens a span, and
nowhere else. The indent unit shows in the paddings of items, and nowhere else.
Both can be told from the text of the markup alone, since source text that spells
a tag is escaped.
-/

namespace CodeListing

open Text

namespace Markup

/-- The text with `replacement` in the place of every `pattern`, when the first `skip` characters
belong to a place that is replaced already. -/
def replaceFrom (pattern replacement : List Char) (skip : Nat) : List Char → List Char
  | [] => []
  | c :: rest =>
    match skip with
    | skip + 1 => replaceFrom pattern replacement skip rest
    | 0 =>
      if pattern.isPrefixOf (c :: rest) then
        replacement ++ replaceFrom pattern replacement (pattern.length - 1) rest
      else c :: replaceFrom pattern replacement 0 rest

/-- The text with `insertion` behind every place where `pattern` stands. -/
def insertBehind (pattern insertion text : List Char) : List Char :=
  replaceFrom pattern (pattern ++ insertion) 0 text

section Replacing

variable {name replacement : List Char}

theorem replaceFrom_skip (pattern text rest : List Char) :
    replaceFrom pattern replacement text.length (text ++ rest) =
      replaceFrom pattern replacement 0 rest := by
  induction text with
  | nil => rfl
  | cons c text ih => exact ih

theorem replaceFrom_pattern (rest : List Char) :
    replaceFrom ('<' :: name) replacement 0 ('<' :: name ++ rest) =
      replacement ++ replaceFrom ('<' :: name) replacement 0 rest := by
  have hHere : ('<' :: name).isPrefixOf ('<' :: name ++ rest) = true :=
    List.isPrefixOf_iff_prefix.2 (List.prefix_append _ _)
  rw [List.cons_append] at hHere ⊢
  rw [replaceFrom, if_pos hHere, List.length_cons, Nat.add_sub_cancel, replaceFrom_skip]

theorem replaceFrom_text {text : List Char} (h : '<' ∉ text) (rest : List Char) :
    replaceFrom ('<' :: name) replacement 0 (text ++ rest) =
      text ++ replaceFrom ('<' :: name) replacement 0 rest := by
  induction text with
  | nil => rfl
  | cons c text ih =>
      have hNot : ('<' :: name).isPrefixOf (c :: (text ++ rest)) = false :=
        isPrefixOf_of_ne (List.ne_of_not_mem_cons h)
      rw [List.cons_append, replaceFrom, hNot, if_neg Bool.false_ne_true,
        ih fun hMem => h (List.mem_cons_of_mem _ hMem), List.cons_append]

theorem replaceFrom_tag {tag : List Char} (hTag : IsTag tag) {rest : List Char}
    (hNot : ('<' :: name).isPrefixOf (tag ++ rest) = false) :
    replaceFrom ('<' :: name) replacement 0 (tag ++ rest) =
      tag ++ replaceFrom ('<' :: name) replacement 0 rest := by
  obtain ⟨inner, rfl, hInner⟩ := hTag
  rw [List.cons_append] at hNot ⊢
  rw [replaceFrom, hNot, if_neg Bool.false_ne_true,
    replaceFrom_text (notMem_tagEnd hInner rfl (by decide)), List.cons_append]

end Replacing

def spanStart : List Char :=
  "<span class=\"".toList

theorem spanStart_eq : spanStart = '<' :: "span class=\"".toList := rfl

theorem write_openSpan (classPrefix : List Char) (tokenClass : TokenClass) :
    (Mark.openSpan tokenClass).write classPrefix =
      spanStart ++ (classPrefix ++ (tokenClass.cssName.toList ++ "\">".toList)) := rfl

section Inserting

variable (classPrefix : List Char)

theorem insertBehind_spanStart (rest : List Char) :
    insertBehind spanStart classPrefix (spanStart ++ rest) =
      spanStart ++ (classPrefix ++ insertBehind spanStart classPrefix rest) := by
  rw [insertBehind, insertBehind, spanStart_eq, replaceFrom_pattern, List.append_assoc]

theorem insertBehind_text {text : List Char} (h : '<' ∉ text) (rest : List Char) :
    insertBehind spanStart classPrefix (text ++ rest) =
      text ++ insertBehind spanStart classPrefix rest := by
  rw [insertBehind, insertBehind, spanStart_eq, replaceFrom_text h]

theorem insertBehind_tag {mark : Mark} (hTag : mark.shown? = none)
    (hKind : mark.kind? ≠ some .openSpan) (rest : List Char) :
    insertBehind spanStart classPrefix (mark.write [] ++ rest) =
      mark.write [] ++ insertBehind spanStart classPrefix rest := by
  have hNot : spanStart.isPrefixOf (mark.write [] ++ rest) = false := by
    rw [Bool.eq_false_iff, Ne, List.isPrefixOf_iff_prefix]
    intro hSpan
    have hShort : TagKind.openSpan.pattern <+: spanStart :=
      List.isPrefixOf_iff_prefix.1 (by decide)
    have hMark := List.isPrefixOf_iff_prefix.2 (hShort.trans hSpan)
    rw [Mark.isPrefixOf_write [] .openSpan hTag] at hMark
    exact hKind (of_decide_eq_true hMark)
  rw [spanStart_eq] at hNot
  rw [insertBehind, insertBehind, spanStart_eq,
    replaceFrom_tag (Mark.isTag_write (by simp) hTag) hNot]

/-- Behind every beginning of a span there is room for a class prefix. -/
theorem insertBehind_write (mark : Mark) (rest : List Char) :
    insertBehind spanStart classPrefix (mark.write [] ++ rest) =
      mark.write classPrefix ++ insertBehind spanStart classPrefix rest := by
  cases mark with
  | openSpan tokenClass =>
      have hName : '<' ∉ tokenClass.cssName.toList ++ "\">".toList := by
        intro hMem
        rcases List.mem_append.1 hMem with hMem | hMem
        · exact Bool.noConfusion (isPlain_cssName tokenClass '<' hMem)
        · revert hMem
          decide
      rw [write_openSpan, write_openSpan, List.nil_append, List.append_assoc,
        insertBehind_spanStart, insertBehind_text classPrefix hName]
      simp only [List.append_assoc]
  | character c =>
      rw [Mark.write_character, Mark.write_character,
        insertBehind_text classPrefix (notMem_escapeChar (.inl rfl))]
  | openItem padding =>
      rw [insertBehind_tag classPrefix rfl (by simp [Mark.kind?])]
      cases padding <;> rfl
  | closeItem => exact insertBehind_tag classPrefix rfl (by simp [Mark.kind?]) rest
  | closeSpan => exact insertBehind_tag classPrefix rfl (by simp [Mark.kind?]) rest

theorem insertBehind_writeAll (marks : List Mark) :
    insertBehind spanStart classPrefix (Mark.writeAll [] marks) =
      Mark.writeAll classPrefix marks := by
  induction marks with
  | nil => rfl
  | cons mark marks ih => rw [Mark.writeAll_cons, insertBehind_write, ih, Mark.writeAll_cons]

end Inserting

def paddingStart : List Char :=
  "<li style=\"padding-left:".toList

def paddingEnd : List Char :=
  "px\">".toList

/-- Whether `c` is a digit of the padding of an item, when `before` stands before it,
read backwards, and `after` behind it. -/
def isPaddingDigit (before : List Char) (c : Char) (after : List Char) : Bool :=
  c.isDigit && paddingStart.reverse.isPrefixOf (before.dropWhile Char.isDigit) &&
    paddingEnd.isPrefixOf (after.dropWhile Char.isDigit)

/-- The text without the digits of the paddings, when `before` stands before it, read
backwards. -/
def erasePaddingsFrom (before : List Char) : List Char → List Char
  | [] => []
  | c :: rest =>
    (if isPaddingDigit before c rest then [] else [c]) ++ erasePaddingsFrom (c :: before) rest

/-- The markup without the digits of the paddings in the tags that open items. -/
def erasePaddings (markup : List Char) : List Char :=
  erasePaddingsFrom [] markup

structure IsNumber (digits : List Char) : Prop where
  ne : digits ≠ []
  digit : ∀ d ∈ digits, d.isDigit = true

theorem isNumber_toString (n : Nat) : IsNumber (toString n).toList where
  ne := by
    rw [toList_toString]
    exact Nat.toDigits_ne_nil
  digit _ := isDigit_of_mem_toString

theorem IsNumber.reverse {digits : List Char} (h : IsNumber digits) :
    IsNumber digits.reverse where
  ne := by simpa using h.ne
  digit d hd := h.digit d (List.mem_reverse.1 hd)

theorem IsNumber.dropWhile_append {digits : List Char} (h : IsNumber digits)
    (text : List Char) : (digits ++ text).dropWhile Char.isDigit = text.dropWhile Char.isDigit :=
  List.dropWhile_append_of_pos h.digit

theorem IsNumber.isPrefixOf_append {digits : List Char} (h : IsNumber digits) {p : Char}
    (hp : p.isDigit = false) (pattern text : List Char) :
    (p :: pattern).isPrefixOf (digits ++ text) = false := by
  cases digits with
  | nil => exact absurd rfl h.ne
  | cons d digits =>
      exact isPrefixOf_of_ne (ne_of_test hp (h.digit d List.mem_cons_self))

/-- Texts that differ in some of their numbers. -/
inductive SameButNumbers : List Char → List Char → Prop where
  | nil : SameButNumbers [] []
  | cons (c : Char) {a b : List Char} (rest : SameButNumbers a b) :
      SameButNumbers (c :: a) (c :: b)
  | number {m n a b : List Char} (left : IsNumber m) (right : IsNumber n)
      (rest : SameButNumbers a b) : SameButNumbers (m ++ a) (n ++ b)

namespace SameButNumbers

theorem append (text : List Char) {a b : List Char} (h : SameButNumbers a b) :
    SameButNumbers (text ++ a) (text ++ b) := by
  induction text with
  | nil => exact h
  | cons c text ih => exact .cons c ih

theorem dropWhile {a b : List Char} (h : SameButNumbers a b) :
    SameButNumbers (a.dropWhile Char.isDigit) (b.dropWhile Char.isDigit) := by
  induction h with
  | nil => exact .nil
  | cons c rest ih =>
      cases hDigit : c.isDigit with
      | true => simpa [hDigit] using ih
      | false => simpa [hDigit] using rest.cons c
  | number left right rest ih => rwa [left.dropWhile_append, right.dropWhile_append]

theorem isPrefixOf_eq {a b : List Char} (h : SameButNumbers a b) {pattern : List Char}
    (hPattern : pattern.any Char.isDigit = false) :
    pattern.isPrefixOf a = pattern.isPrefixOf b := by
  induction h generalizing pattern with
  | nil => rfl
  | cons c rest ih =>
      cases pattern with
      | nil => rfl
      | cons p pattern =>
          have hRest : pattern.any Char.isDigit = false := (Bool.or_eq_false_iff.1 hPattern).2
          rw [List.isPrefixOf, List.isPrefixOf, ih hRest]
  | number left right rest ih =>
      cases pattern with
      | nil => simp
      | cons p pattern =>
          have hp : p.isDigit = false := (Bool.or_eq_false_iff.1 hPattern).1
          rw [left.isPrefixOf_append hp, right.isPrefixOf_append hp]

theorem isPaddingDigit_eq {before before' after after' : List Char}
    (hBefore : SameButNumbers before before') (hAfter : SameButNumbers after after') (c : Char) :
    isPaddingDigit before c after = isPaddingDigit before' c after' := by
  have hStart : paddingStart.reverse.any Char.isDigit = false := by decide
  have hEnd : paddingEnd.any Char.isDigit = false := by decide
  rw [isPaddingDigit, isPaddingDigit, hBefore.dropWhile.isPrefixOf_eq hStart,
    hAfter.dropWhile.isPrefixOf_eq hEnd]

end SameButNumbers

/-- Texts that differ in some of the paddings of their items. -/
inductive SameButPaddings : List Char → List Char → Prop where
  | nil : SameButPaddings [] []
  | cons (c : Char) {a b : List Char} (rest : SameButPaddings a b) :
      SameButPaddings (c :: a) (c :: b)
  | padding {m n a b : List Char} (left : IsNumber m) (right : IsNumber n)
      (rest : SameButPaddings a b) :
      SameButPaddings (paddingStart ++ (m ++ (paddingEnd ++ a)))
        (paddingStart ++ (n ++ (paddingEnd ++ b)))

namespace SameButPaddings

theorem append (text : List Char) {a b : List Char} (h : SameButPaddings a b) :
    SameButPaddings (text ++ a) (text ++ b) := by
  induction text with
  | nil => exact h
  | cons c text ih => exact .cons c ih

theorem sameButNumbers {a b : List Char} (h : SameButPaddings a b) : SameButNumbers a b := by
  induction h with
  | nil => exact .nil
  | cons c rest ih => exact .cons c ih
  | padding left right rest ih => exact .append _ (.number left right (.append _ ih))

end SameButPaddings

section Erasing

variable {before before' a b : List Char}

/-- What two texts have in common is left alike before what they have not. -/
theorem erasePaddingsFrom_common (text : List Char) (hBefore : SameButNumbers before before')
    (hRest : SameButNumbers a b)
    (h : erasePaddingsFrom (text.reverse ++ before) a =
      erasePaddingsFrom (text.reverse ++ before') b) :
    erasePaddingsFrom before (text ++ a) = erasePaddingsFrom before' (text ++ b) := by
  induction text generalizing before before' with
  | nil => exact h
  | cons c text ih =>
      rw [List.reverse_cons, List.append_assoc, List.append_assoc] at h
      rw [List.cons_append, List.cons_append, erasePaddingsFrom, erasePaddingsFrom,
        hBefore.isPaddingDigit_eq (hRest.append text), ih (hBefore.cons c) h]

theorem erasePaddingsFrom_number {digits : List Char} (h : ∀ d ∈ digits, d.isDigit = true)
    (hStart : paddingStart.reverse <+: before.dropWhile Char.isDigit)
    (hEnd : paddingEnd <+: a.dropWhile Char.isDigit) :
    erasePaddingsFrom before (digits ++ a) = erasePaddingsFrom (digits.reverse ++ before) a := by
  induction digits generalizing before with
  | nil => rfl
  | cons d digits ih =>
      have hd := h d List.mem_cons_self
      have hDigits : ∀ e ∈ digits, e.isDigit = true := fun e he => h e (List.mem_cons_of_mem _ he)
      have hHere : isPaddingDigit before d (digits ++ a) = true := by
        rw [isPaddingDigit, hd, List.isPrefixOf_iff_prefix.2 hStart,
          List.dropWhile_append_of_pos hDigits, List.isPrefixOf_iff_prefix.2 hEnd]
        rfl
      have hNext : paddingStart.reverse <+: (d :: before).dropWhile Char.isDigit := by
        rwa [List.dropWhile_cons, if_pos hd]
      rw [List.cons_append, erasePaddingsFrom, if_pos hHere, List.nil_append, ih hDigits hNext,
        List.reverse_cons, List.append_assoc, List.singleton_append]

end Erasing

theorem SameButPaddings.erasePaddingsFrom_eq {a b : List Char} (h : SameButPaddings a b)
    {before before' : List Char} (hBefore : SameButNumbers before before') :
    erasePaddingsFrom before a = erasePaddingsFrom before' b := by
  induction h generalizing before before' with
  | nil => rfl
  | cons c rest ih =>
      rw [erasePaddingsFrom, erasePaddingsFrom,
        hBefore.isPaddingDigit_eq rest.sameButNumbers, ih (hBefore.cons c)]
  | @padding m n a b left right rest ih =>
      have hEnd : SameButNumbers (paddingEnd ++ a) (paddingEnd ++ b) :=
        rest.sameButNumbers.append _
      have hOpened := hBefore.append paddingStart.reverse
      refine erasePaddingsFrom_common _ hBefore (.number left right hEnd) ?_
      rw [erasePaddingsFrom_number left.digit (List.prefix_append ..) (List.prefix_append ..),
        erasePaddingsFrom_number right.digit (List.prefix_append ..) (List.prefix_append ..)]
      have hNumbers := SameButNumbers.number left.reverse right.reverse hOpened
      exact erasePaddingsFrom_common _ hNumbers rest.sameButNumbers (ih (hNumbers.append _))

theorem item_some (padding : Nat) (content : List Char) :
    item (some (padding, content)) =
      paddingStart ++ (toString padding).toList ++ paddingEnd ++ content ++ "</li>".toList := rfl

theorem SameButPaddings.item (content : List Char) (m n : Nat) {a b : List Char}
    (h : SameButPaddings a b) :
    SameButPaddings (Markup.item (some (m, content)) ++ a)
      (Markup.item (some (n, content)) ++ b) := by
  simp only [item_some, List.append_assoc]
  exact .padding (isNumber_toString m) (isNumber_toString n) (.append _ (.append _ h))

end Markup

section Readings

variable {settings other : Settings} (hFlags : settings.maxRegexFlags = other.maxRegexFlags)
  (hDepth : settings.maxMemberDepth = other.maxMemberDepth)

include hFlags hDepth

theorem Step.read_congr (before : Option Char) (c : Char) (rest : List Char) :
    read settings before c rest = read other before c rest := by
  cases settings
  cases other
  cases hFlags
  cases hDepth
  rfl

namespace LineReading

theorem ofText_congr (offset : Nat) (before : Option Char) (text : List Char) :
    ofText settings offset before text = ofText other offset before text := by
  fun_induction ofText settings offset before text with
  | case1 => rw [ofText]
  | case2 offset before c rest step ih =>
      rw [ih, ofText_cons, ← Step.read_congr hFlags hDepth]

theorem ofLine_congr (openComment : Option Nat) (line : Text.SourceLine) :
    ofLine settings openComment line = ofLine other openComment line := by
  unfold ofLine
  simp only [ofText_congr hFlags hDepth]

theorem ofLines_congr (openComment : Option Nat) (lines : List Text.SourceLine) :
    ofLines settings openComment lines = ofLines other openComment lines := by
  induction lines generalizing openComment with
  | nil => rfl
  | cons line lines ih => rw [ofLines, ofLines, ofLine_congr hFlags hDepth, ih]

end LineReading

end Readings

namespace Listing

def marks (indentUnit : UInt32) (lines : List SourceLine) (readings : List LineReading) :
    List Mark :=
  (List.zipWith (fun padding reading => itemMarks padding reading.tokens)
    (Indentation.paddings indentUnit 0 (lines.map SourceLine.ends?)) readings).flatten

theorem flatten_items (settings : Settings) (lines : List SourceLine)
    (readings : List LineReading) :
    (items settings lines readings).flatten =
      Mark.writeAll settings.classPrefix.toList (marks settings.indentUnit lines readings) := by
  rw [marks, Mark.writeAll_flatten, List.map_zipWith, items]
  simp only [Markup.item_eq_writeAll]

theorem html_toList {settings other : Settings}
    (hFlags : settings.maxRegexFlags = other.maxRegexFlags)
    (hDepth : settings.maxMemberDepth = other.maxMemberDepth) (source : String) :
    (ofSource other source).html.toList =
      (items other (SourceLine.ofText (normalize source.toList))
        (LineReading.ofLines settings none
          (SourceLine.ofText (normalize source.toList)))).flatten := by
  rw [LineReading.ofLines_congr hFlags hDepth]
  exact String.toList_ofList

theorem html_withPrefix (settings : Settings) (source classPrefix : String) :
    (ofSource { settings with classPrefix } source).html.toList =
      Mark.writeAll classPrefix.toList
        (marks settings.indentUnit (SourceLine.ofText (normalize source.toList))
          (LineReading.ofLines settings none
            (SourceLine.ofText (normalize source.toList)))) := by
  have hFlags : settings.maxRegexFlags = { settings with classPrefix }.maxRegexFlags := rfl
  rw [html_toList hFlags rfl, flatten_items]

theorem sameButPaddings_items (unit unit' : UInt32) (content : LineReading → List Char)
    (level : Nat) (ends : List (Option (Char × Char))) (readings : List LineReading) :
    Markup.SameButPaddings
      (List.zipWith (fun padding reading => Markup.item (padding.map (·, content reading)))
        (Indentation.paddings unit level ends) readings).flatten
      (List.zipWith (fun padding reading => Markup.item (padding.map (·, content reading)))
        (Indentation.paddings unit' level ends) readings).flatten := by
  -- the unit has no part in the level, so both walks pass through the same levels
  induction ends generalizing level readings with
  | nil => exact .nil
  | cons line ends ih =>
      cases readings with
      | nil =>
          rw [List.zipWith_nil_right, List.zipWith_nil_right]
          exact .nil
      | cons reading readings =>
          cases line with
          | none => exact .append _ (ih level readings)
          | some line =>
              obtain ⟨first, last⟩ := line
              exact .item _ _ _ (ih _ readings)

/-- The class prefix stands behind every beginning of a span and nowhere else, and the
indent unit shows in the paddings of items and nowhere else. -/
theorem html_appearance (settings : Settings) (source : String) :
    (∀ classPrefix : String,
      (ofSource { settings with classPrefix } source).html.toList =
        Markup.insertBehind Markup.spanStart classPrefix.toList
          (ofSource { settings with classPrefix := "" } source).html.toList) ∧
    (∀ indentUnit indentUnit' : UInt32,
      Markup.erasePaddings (ofSource { settings with indentUnit } source).html.toList =
        Markup.erasePaddings
          (ofSource { settings with indentUnit := indentUnit' } source).html.toList) := by
  constructor
  · intro classPrefix
    rw [html_withPrefix, html_withPrefix, String.toList_empty, Markup.insertBehind_writeAll]
  · intro indentUnit indentUnit'
    have hFlags (unit : UInt32) :
        settings.maxRegexFlags = { settings with indentUnit := unit }.maxRegexFlags := rfl
    rw [html_toList (hFlags indentUnit) rfl, html_toList (hFlags indentUnit') rfl]
    exact (sameButPaddings_items ..).erasePaddingsFrom_eq .nil

end Listing

end CodeListing
