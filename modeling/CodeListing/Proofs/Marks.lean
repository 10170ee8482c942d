import CodeListing.Listing

/-! # Markup as a sequence of marks

The markup of a listing is written mark by mark: a mark is a tag or one
character of the text that is shown. What holds of the written text is proved
from the sequence of marks, where the tags can be told from text that merely
looks like tags.
-/

namespace CodeListing

/-- A tag, or a character of the text that a listing shows. -/
inductive Mark where
  /-- The beginning of an item, with its padding unless its line is blank. -/
  | openItem (padding : Option Nat)
  | closeItem
  | openSpan (tokenClass : TokenClass)
  | closeSpan
  | character (c : Char)

namespace Mark

def write (classPrefix : List Char) : Mark → List Char
  | .openItem none => "<li>".toList
  | .openItem (some padding) =>
    "<li style=\"padding-left:".toList ++ ((toString padding).toList ++ "px\">".toList)
  | .closeItem => "</li>".toList
  | .openSpan tokenClass =>
    "<span class=\"".toList ++ (classPrefix ++ (tokenClass.cssName.toList ++ "\">".toList))
  | .closeSpan => "</span>".toList
  | .character c => Markup.escapeChar c

@[simp] theorem write_character (classPrefix : List Char) (c : Char) :
    write classPrefix (.character c) = Markup.escapeChar c := rfl

def isInLine : Mark → Bool
  | .openItem _ => false
  | .closeItem => false
  | _ => true

def shown? : Mark → Option Char
  | .character c => some c
  | _ => none

def writeAll (classPrefix : List Char) (marks : List Mark) : List Char :=
  marks.flatMap (write classPrefix)

@[simp] theorem writeAll_nil (classPrefix : List Char) : writeAll classPrefix [] = [] := rfl

@[simp] theorem writeAll_cons (classPrefix : List Char) (mark : Mark) (marks : List Mark) :
    writeAll classPrefix (mark :: marks) = mark.write classPrefix ++ writeAll classPrefix marks :=
  rfl

@[simp] theorem writeAll_append (classPrefix : List Char) (a b : List Mark) :
    writeAll classPrefix (a ++ b) = writeAll classPrefix a ++ writeAll classPrefix b :=
  List.flatMap_append

theorem writeAll_characters (classPrefix text : List Char) :
    writeAll classPrefix (text.map .character) = Markup.escape text := by
  induction text with
  | nil => rfl
  | cons c text ih =>
      rw [List.map_cons, writeAll_cons, ih]
      rfl

theorem writeAll_flatten (classPrefix : List Char) (groups : List (List Mark)) :
    writeAll classPrefix groups.flatten = (groups.map (writeAll classPrefix)).flatten := by
  induction groups with
  | nil => rfl
  | cons marks groups ih => simp [ih]

end Mark

def spanMarks (tokenClass : TokenClass) (inner : List Mark) : List Mark :=
  .openSpan tokenClass :: (inner ++ [.closeSpan])

theorem Mark.writeAll_spanMarks (classPrefix : List Char) (tokenClass : TokenClass)
    (inner : List Mark) :
    writeAll classPrefix (spanMarks tokenClass inner) =
      Markup.span classPrefix tokenClass (writeAll classPrefix inner) := by
  rw [spanMarks, writeAll_cons, writeAll_append, writeAll_cons, writeAll_nil, List.append_nil]
  unfold write Markup.span
  simp only [List.append_assoc]

/-- The marks of a token. The span of a dotted name encloses its member. -/
def Token.marks : Token → List Mark
  | .leaf tokenClass text => spanMarks tokenClass (text.map .character)
  | .dotted tokenClass name member =>
    spanMarks tokenClass
      (name.map .character ++ spanMarks .period [.character '.'] ++ member.marks)

theorem Markup.ofToken_eq_writeAll (classPrefix : List Char) (token : Token) :
    ofToken classPrefix token = Mark.writeAll classPrefix token.marks := by
  induction token with
  | leaf tokenClass text =>
      rw [Token.marks, Mark.writeAll_spanMarks, Mark.writeAll_characters]
      rfl
  | dotted tokenClass name member ih =>
      simp only [Token.marks, Mark.writeAll_spanMarks, Mark.writeAll_append,
        Mark.writeAll_characters, ofToken, ih]
      rfl

theorem Markup.ofTokens_eq_writeAll (classPrefix : List Char) (tokens : List Token) :
    ofTokens classPrefix tokens = Mark.writeAll classPrefix (tokens.flatMap Token.marks) := by
  induction tokens with
  | nil => rfl
  | cons token tokens ih =>
      rw [List.flatMap_cons, Mark.writeAll_append, ← ih, ← ofToken_eq_writeAll]
      rfl

/-- The marks of the item of a line; a blank line has no padding and shows nothing. -/
def itemMarks (padding : Option Nat) (tokens : List Token) : List Mark :=
  match padding with
  | none => [.openItem none, .closeItem]
  | some _ => .openItem padding :: (tokens.flatMap Token.marks ++ [.closeItem])

theorem Markup.item_eq_writeAll (classPrefix : List Char) (padding : Option Nat)
    (tokens : List Token) :
    item (padding.map (·, ofTokens classPrefix tokens)) =
      Mark.writeAll classPrefix (itemMarks padding tokens) := by
  cases padding with
  | none => rfl
  | some padding =>
      rw [itemMarks, Mark.writeAll_cons, Mark.writeAll_append, Mark.writeAll_cons,
        Mark.writeAll_nil, List.append_nil, ← ofTokens_eq_writeAll, Option.map_some]
      unfold Mark.write item
      simp only [List.append_assoc]

theorem Token.isInLine_of_mem_marks {mark : Mark} (token : Token) (h : mark ∈ token.marks) :
    mark.isInLine = true := by
  induction token with
  | leaf tokenClass text =>
      simp only [marks, spanMarks, List.mem_cons, List.mem_append, List.mem_map,
        List.not_mem_nil, or_false] at h
      rcases h with rfl | ⟨c, -, rfl⟩ | rfl <;> rfl
  | dotted tokenClass name member ih =>
      simp only [marks, spanMarks, List.mem_cons, List.mem_append, List.mem_map,
        List.not_mem_nil, or_false] at h
      rcases h with rfl | ((⟨c, -, rfl⟩ | rfl | rfl | rfl) | h) | rfl
      · rfl
      · rfl
      · rfl
      · rfl
      · rfl
      · exact ih h
      · rfl

theorem Token.isInLine_of_mem_flatMap {mark : Mark} {tokens : List Token}
    (h : mark ∈ tokens.flatMap marks) : mark.isInLine = true := by
  obtain ⟨token, -, hMark⟩ := List.mem_flatMap.1 h
  exact token.isInLine_of_mem_marks hMark

/-- A character to which markup gives no meaning. -/
def isPlain (c : Char) : Bool :=
  c ≠ '<' && c ≠ '>' && c ≠ '&'

theorem isPlain_of_isPrefixCharacter {c : Char} (h : Settings.isPrefixCharacter c = true) :
    isPlain c = true := by
  have hNot (d : Char) (hd : Settings.isPrefixCharacter d = false) : c ≠ d := (ne_of_test hd h).symm
  simp [isPlain, hNot '<' (by decide), hNot '>' (by decide), hNot '&' (by decide)]

theorem isPlain_of_isDigit {c : Char} (h : c.isDigit = true) : isPlain c = true :=
  isPlain_of_isPrefixCharacter (by simp [Settings.isPrefixCharacter, Char.isAlphanum, h])

theorem toList_toString (n : Nat) : (toString n).toList = Nat.toDigits 10 n := by
  rw [Nat.toString_eq_repr, Nat.toList_repr]

theorem isDigit_of_mem_toString {n : Nat} {d : Char} (h : d ∈ (toString n).toList) :
    d.isDigit = true := by
  rw [toList_toString] at h
  exact Nat.isDigit_of_mem_toDigits (by decide) (by decide) h

/-- The entities that stand for characters of the source. -/
def Markup.entities : List (List Char) :=
  ["&lt;".toList, "&gt;".toList, "&amp;".toList]

theorem Markup.escapeChar_cases (c : Char) :
    (escapeChar c = [c] ∧ isPlain c = true) ∨ escapeChar c ∈ entities := by
  unfold escapeChar
  split
  · exact .inr (by decide)
  · rename_i hLess
    split
    · exact .inr (by decide)
    · rename_i hGreater
      split
      · exact .inr (by decide)
      · rename_i hAmpersand
        exact .inl ⟨rfl, by simp [isPlain, hLess, hGreater, hAmpersand]⟩

theorem Markup.notMem_escapeChar {c d : Char} (hd : d = '<' ∨ d = '>') : d ∉ escapeChar c := by
  intro hMem
  rcases escapeChar_cases c with ⟨hEscape, hPlain⟩ | hEntity
  · rw [hEscape, List.mem_singleton] at hMem
    subst hMem
    rcases hd with rfl | rfl <;> cases hPlain
  · have hNone : ∀ entity ∈ entities, '<' ∉ entity ∧ '>' ∉ entity := by decide
    rcases hd with rfl | rfl
    · exact (hNone _ hEntity).1 hMem
    · exact (hNone _ hEntity).2 hMem

theorem isPlain_cssName (tokenClass : TokenClass) :
    ∀ c ∈ tokenClass.cssName.toList, isPlain c = true := by
  refine List.all_eq_true.1 ?_
  cases tokenClass with
  | keyword category => cases category <;> decide
  | _ => decide

/-- A text from `<` to the first `>` after it. -/
def IsTag (text : List Char) : Prop :=
  ∃ inner, text = '<' :: (inner ++ ['>']) ∧ ∀ c ∈ inner, isPlain c = true

inductive Markup.Tag (classPrefix : List Char) : List Char → Prop where
  | openBlankItem : Tag classPrefix "<li>".toList
  | openItem {digits : List Char} (ne : digits ≠ []) (digit : ∀ d ∈ digits, d.isDigit = true) :
      Tag classPrefix ("<li style=\"padding-left:".toList ++ (digits ++ "px\">".toList))
  | closeItem : Tag classPrefix "</li>".toList
  | openSpan (tokenClass : TokenClass) :
      Tag classPrefix ("<span class=\"".toList ++
        (classPrefix ++ (tokenClass.cssName.toList ++ "\">".toList)))
  | closeSpan : Tag classPrefix "</span>".toList

theorem Markup.Tag.isTag {classPrefix tag : List Char}
    (hPrefix : ∀ c ∈ classPrefix, isPlain c = true) (h : Tag classPrefix tag) : IsTag tag := by
  cases h with
  | openBlankItem => exact ⟨"li".toList, rfl, List.all_eq_true.1 (by decide)⟩
  | @openItem digits hNe hDigit =>
      refine ⟨"li style=\"padding-left:".toList ++ (digits ++ "px\"".toList), ?_,
        List.forall_mem_append.2 ⟨List.all_eq_true.1 (by decide),
          List.forall_mem_append.2 ⟨fun c hc => isPlain_of_isDigit (hDigit c hc),
            List.all_eq_true.1 (by decide)⟩⟩⟩
      rw [List.append_assoc, List.append_assoc]
      rfl
  | closeItem => exact ⟨"/li".toList, rfl, List.all_eq_true.1 (by decide)⟩
  | openSpan tokenClass =>
      refine ⟨"span class=\"".toList ++ (classPrefix ++ (tokenClass.cssName.toList ++
        "\"".toList)), ?_, List.forall_mem_append.2 ⟨List.all_eq_true.1 (by decide),
        List.forall_mem_append.2 ⟨hPrefix,
          List.forall_mem_append.2 ⟨isPlain_cssName tokenClass, List.all_eq_true.1 (by decide)⟩⟩⟩⟩
      rw [List.append_assoc, List.append_assoc, List.append_assoc]
      rfl
  | closeSpan => exact ⟨"/span".toList, rfl, List.all_eq_true.1 (by decide)⟩

theorem Mark.tag_write (classPrefix : List Char) {mark : Mark} (h : mark.shown? = none) :
    Markup.Tag classPrefix (mark.write classPrefix) := by
  cases mark with
  | openItem padding =>
      cases padding with
      | none => exact .openBlankItem
      | some padding =>
          refine .openItem ?_ fun d => isDigit_of_mem_toString
          rw [toList_toString]
          exact Nat.toDigits_ne_nil
  | closeItem => exact .closeItem
  | openSpan tokenClass => exact .openSpan tokenClass
  | closeSpan => exact .closeSpan
  | character c => cases h

theorem Mark.isTag_write {classPrefix : List Char} (hPrefix : ∀ c ∈ classPrefix, isPlain c = true)
    {mark : Mark} (h : mark.shown? = none) : IsTag (mark.write classPrefix) :=
  (tag_write classPrefix h).isTag hPrefix

theorem Token.filterMap_shown?_marks (token : Token) :
    token.marks.filterMap Mark.shown? = token.text := by
  have hCharacters (text : List Char) :
      (text.map Mark.character).filterMap Mark.shown? = text := by
    induction text with
    | nil => rfl
    | cons c text ih => simp [Mark.shown?, ih]
  induction token with
  | leaf tokenClass text =>
      simp [marks, spanMarks, List.filterMap_cons, Mark.shown?, Token.text, hCharacters]
  | dotted tokenClass name member ih =>
      simp [marks, spanMarks, List.filterMap_cons, Mark.shown?, Token.text, hCharacters, ih]

namespace Mark

end Mark

namespace Token

end Token

end CodeListing
