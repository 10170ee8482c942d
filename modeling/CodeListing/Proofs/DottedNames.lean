import Mathlib.Data.List.Basic
import CodeListing.Listing
import CodeListing.Proofs.Line

/-! # Lines of dotted names

A line of names with a period between any two of them is read in groups. Within a
group every name holds the next one, which is looked up among the members of
the name before it. A group takes as many names as the depth of members allows;
the period behind it stands alone, and the next name begins anew.
-/

namespace CodeListing

/-- The name by which a stylesheet finds the words of the category. -/
def Category.style : Category → String
  | .defining => "defining-keyword"
  | .reserved => "reserved-keyword"
  | .native => "native-keyword"
  | .value => "value-keyword"
  | .client => "client-keyword"
  | .library => "library-keyword"

def Markup.styledSpan (classPrefix : List Char) (style : String) (content : List Char) :
    List Char :=
  "<span class=\"".toList ++ (classPrefix ++ (style.toList ++
    ("\">".toList ++ (content ++ "</span>".toList))))

theorem Markup.span_eq (classPrefix : List Char) (tokenClass : TokenClass) (content : List Char) :
    span classPrefix tokenClass content = styledSpan classPrefix tokenClass.cssName content := by
  unfold span styledSpan
  simp only [List.append_assoc]

theorem isDigit_of_isNameStart {c : Char} (h : isNameStart c = true) : c.isDigit = false := by
  rw [← Bool.not_eq_true]
  intro hDigit
  obtain ⟨hFirst, hLast⟩ := Text.isDigit_iff.1 hDigit
  have hDigits : ∀ code < 58, 48 ≤ code → isNameStart (Char.ofNat code) = false := by decide
  have hNot := hDigits c.toNat (by omega) hFirst
  rw [Char.ofNat_toNat] at hNot
  exact Bool.noConfusion (hNot.symm.trans h)

theorem lead_of_isNameStart {c : Char} (h : isNameStart c = true) : Lead.of c = .name := by
  have hOther {d : Char} (hd : isNameStart d = false) : c ≠ d := (ne_of_test hd h).symm
  have hSeparator : TokenClass.ofSeparator? c = none := by
    simp [TokenClass.ofSeparator?, hOther (d := ',') (by decide), hOther (d := ';') (by decide),
      hOther (d := ':') (by decide), hOther (d := '.') (by decide)]
  have hNone {chars : List Char} (hChars : chars.any isNameStart = false) :
      chars.contains c = false := by
    rw [List.contains_eq_mem, decide_eq_false_iff_not]
    intro hMem
    exact List.any_eq_false.1 hChars c hMem h
  have hBracket : isBracket c = false := hNone (by decide)
  have hOperator : isOperator c = false := hNone (by decide)
  simp [Lead.of, hSeparator, isQuote, hOther (d := '\'') (by decide), hOther (d := '"') (by decide),
    hOther (d := ' ') (by decide), hOther (d := '/') (by decide), hBracket, hOperator,
    isDigit_of_isNameStart h, h]

/-- A character that begins names and characters that continue them. -/
structure Name where
  first : Char
  more : List Char
  isStart : isNameStart first = true
  isPart : ∀ c ∈ more, isNamePart c = true

namespace Name

def text (name : Name) : List Char :=
  name.first :: name.more

def word? (name : Name) : Option Word :=
  Vocabulary.find? (String.ofList name.text)

/-- The word that gives the name its colour, where `owner` is the name before it in its group. -/
def colouring? (owner : Option Name) (name : Name) : Option Word :=
  ((owner.bind word?).filter (·.hasMember (String.ofList name.text))).or name.word?

def style (owner : Option Name) (name : Name) : String :=
  match name.colouring? owner with
  | some word => word.category.style
  | none => "identifier"

def tokenClass (owner : Option Name) (name : Name) : TokenClass :=
  match name.colouring? owner with
  | some word => .keyword word.category
  | none => .identifier

theorem cssName_tokenClass (owner : Option Name) (name : Name) :
    (name.tokenClass owner).cssName = name.style owner := by
  unfold tokenClass style
  cases name.colouring? owner with
  | none => rfl
  | some word => cases hCategory : word.category <;> simp only [hCategory] <;> rfl

theorem isNamePart_of_mem_text {name : Name} {c : Char} (h : c ∈ name.text) :
    isNamePart c = true := by
  rcases List.mem_cons.1 h with rfl | hMore
  · have hStart := name.isStart
    simp only [isNameStart, isNamePart, Unicode.isAlphanumeric, Bool.or_eq_true] at hStart ⊢
    rcases hStart with (hLetter | hUnderscore) | hDollar
    · exact .inl (.inl (.inl hLetter))
    · exact .inl (.inr hUnderscore)
    · exact .inr hDollar
  · exact name.isPart c hMore

theorem escape_text (name : Name) : Markup.escape name.text = name.text := by
  have hPlain : ∀ c ∈ name.text, Markup.escapeChar c = [c] := by
    intro c hc
    have hOther {d : Char} (hd : isNamePart d = false) : c ≠ d :=
      (ne_of_test hd (isNamePart_of_mem_text hc)).symm
    rw [Markup.escapeChar, if_neg (hOther (by decide)), if_neg (hOther (by decide)),
      if_neg (hOther (by decide))]
  rw [Markup.escape, List.flatMap_congr hPlain, List.flatMap_singleton']

def dotted (names : List Name) : List Char :=
  names.flatMap fun name => '.' :: name.text

def line (names : List Name) : List Char :=
  ['.'].intercalate (names.map text)

theorem line_cons (name : Name) (names : List Name) :
    line (name :: names) = name.text ++ dotted names := by
  induction names generalizing name with
  | nil => simp [line, dotted, List.intercalate]
  | cons next names ih =>
      have hNext : line (name :: next :: names) = name.text ++ ['.'] ++ line (next :: names) :=
        List.intercalate_cons_cons
      rw [hNext, ih]
      simp [dotted]

/-- The spans of a group of names, each around those after it, where `owner` is the name before
the first. -/
def groupMarkup (classPrefix : List Char) (owner : Option Name) : List Name → List Char
  | [] => []
  | [name] => Markup.styledSpan classPrefix (name.style owner) name.text
  | name :: next :: names =>
    Markup.styledSpan classPrefix (name.style owner)
      (name.text ++ Markup.styledSpan classPrefix "period" ['.'] ++
        groupMarkup classPrefix (some name) (next :: names))

/-- The names cut into groups of `depth + 1`, the last of which may be shorter. -/
def groups (depth : Nat) : List Name → List (List Name)
  | [] => []
  | name :: names => (name :: names.take depth) :: groups depth (names.drop depth)
termination_by names => names.length
decreasing_by
  rw [List.length_drop, List.length_cons]
  omega

/-- The spans of the groups, with a period between any two of them. -/
def lineMarkup (classPrefix : List Char) (depth : Nat) (names : List Name) : List Char :=
  (Markup.styledSpan classPrefix "period" ['.']).intercalate
    ((groups depth names).map (groupMarkup classPrefix none))

@[simp] theorem lineMarkup_nil (classPrefix : List Char) (depth : Nat) :
    lineMarkup classPrefix depth [] = [] := by
  rw [lineMarkup, groups, List.map_nil, List.intercalate_nil]

/-- Behind the first group the line ends, or it goes on with a period. -/
theorem lineMarkup_cons (classPrefix : List Char) (depth : Nat) (name : Name) (names : List Name) :
    lineMarkup classPrefix depth (name :: names) =
      groupMarkup classPrefix none (name :: names.take depth) ++
        if names.drop depth = [] then []
        else Markup.styledSpan classPrefix "period" ['.'] ++
          lineMarkup classPrefix depth (names.drop depth) := by
  rw [lineMarkup, groups]
  cases hRest : names.drop depth with
  | nil => simp [groups]
  | cons next later =>
      rw [lineMarkup, groups, List.map_cons, List.map_cons, List.intercalate_cons_cons,
        if_neg (List.cons_ne_nil _ _), List.append_assoc]

def groupToken (owner : Option Name) (name : Name) : List Name → Token
  | [] => .leaf (name.tokenClass owner) name.text
  | next :: names => .dotted (name.tokenClass owner) name.text (groupToken (some name) next names)

theorem ofToken_groupToken (classPrefix : List Char) (owner : Option Name) (name : Name)
    (names : List Name) :
    Markup.ofToken classPrefix (groupToken owner name names) =
      groupMarkup classPrefix owner (name :: names) := by
  induction names generalizing owner name with
  | nil =>
      rw [groupToken, Markup.ofToken, Markup.span_eq, cssName_tokenClass, escape_text]
      rfl
  | cons next names ih =>
      rw [groupToken, Markup.ofToken, ih, Markup.span_eq, Markup.span_eq, cssName_tokenClass,
        escape_text]
      rfl

theorem takeWhile_dotted (name : Name) (names : List Name) :
    (name.more ++ dotted names).takeWhile isNamePart = name.more := by
  rw [List.takeWhile_append_of_pos name.isPart]
  cases names with
  | nil => simp [dotted]
  | cons next names => simp [dotted, show isNamePart '.' = false by decide]

theorem dropWhile_dotted (name : Name) (names : List Name) :
    (name.more ++ dotted names).dropWhile isNamePart = dotted names := by
  rw [List.dropWhile_append_of_pos name.isPart]
  cases names with
  | nil => rfl
  | cons next names => simp [dotted, show isNamePart '.' = false by decide]

theorem classOfName_dotted (owner : Option Name) (name : Name) (names : List Name) :
    classOfName (owner.bind word?) (String.ofList name.text) (dotted names) =
      name.tokenClass owner := by
  have hCall : opensCall (dotted names) = false := by cases names <;> rfl
  unfold classOfName tokenClass colouring?
  rw [hCall, Bool.and_false]
  -- a member takes the class of its owner, and other names are looked up on their own
  cases (owner.bind word?).filter (·.hasMember (String.ofList name.text)) with
  | some word => rfl
  | none =>
      unfold word?
      cases Vocabulary.find? (String.ofList name.text) <;> rfl

/-- A name is read with as many members as the depth allows. -/
theorem readName_dotted (depth : Nat) (owner : Option Name) (name : Name) (names : List Name) :
    readName depth (owner.bind word?) name.first (name.more ++ dotted names) =
      (groupToken owner name (names.take depth), dotted (names.drop depth)) := by
  induction depth generalizing owner name names with
  | zero =>
      unfold readName
      simp only [takeWhile_dotted, dropWhile_dotted]
      rw [← text, classOfName_dotted]
      rfl
  | succ depth ih =>
      unfold readName
      simp only [takeWhile_dotted, dropWhile_dotted]
      rw [← text, classOfName_dotted]
      cases names with
      | nil => rfl
      | cons next names =>
          have hNext : readName depth name.word? next.first (next.more ++ dotted names) = _ :=
            ih (some name) next names
          show (if isNameStart next.first = true then
            (Token.dotted (name.tokenClass owner) name.text
              (readName depth name.word? next.first (next.more ++ dotted names)).1,
              (readName depth name.word? next.first (next.more ++ dotted names)).2) else _) = _
          rw [if_pos next.isStart, hNext]
          rfl

end Name

namespace LineReading

open Name

structure IsQuiet (classPrefix markup : List Char) (reading : LineReading) : Prop where
  markup : Markup.ofTokens classPrefix reading.tokens = markup
  warnings : reading.warnings = []
  openComment : reading.openComment = none

variable {settings : Settings} {classPrefix : List Char}

theorem IsQuiet.prepend {markup : List Char} {later : LineReading}
    (h : IsQuiet classPrefix markup later) (offset : Nat) (token : Token) :
    IsQuiet classPrefix (Markup.ofToken classPrefix token ++ markup)
      (later.prepend offset token none) :=
  ⟨congrArg _ h.markup, h.warnings, h.openComment⟩

theorem isQuiet_nil (offset : Nat) (before : Option Char) :
    IsQuiet classPrefix [] (ofText settings offset before []) := by
  constructor <;> simp [ofText, Markup.ofTokens]

theorem ofToken_period (classPrefix : List Char) :
    Markup.ofToken classPrefix (.leaf .period ['.']) =
      Markup.styledSpan classPrefix "period" ['.'] :=
  Markup.span_eq ..

theorem ofText_period (offset : Nat) (before : Option Char) (text : List Char) :
    ofText settings offset before ('.' :: text) =
      (ofText settings (offset + 1) (some '.') text).prepend offset (.leaf .period ['.']) none := by
  rw [ofText_cons]
  rfl

theorem ofText_names (offset : Nat) (before : Option Char) (name : Name) (names : List Name) :
    ∃ offset' before', ofText settings offset before (line (name :: names)) =
      (ofText settings offset' before' (dotted (names.drop settings.maxMemberDepth))).prepend offset
        (groupToken none name (names.take settings.maxMemberDepth)) none := by
  have hRead : Step.read settings before name.first (name.more ++ dotted names) =
      { token := groupToken none name (names.take settings.maxMemberDepth)
        rest := dotted (names.drop settings.maxMemberDepth) } := by
    unfold Step.read
    rw [lead_of_isNameStart name.isStart]
    show Step.mk (readName settings.maxMemberDepth (none.bind word?) _ _).1 none
      (readName settings.maxMemberDepth (none.bind word?) _ _).2 = _
    rw [readName_dotted]
  rw [line_cons, text, List.cons_append, ofText_cons, hRead]
  exact ⟨_, _, rfl⟩

theorem isQuiet_line (names : List Name) (offset : Nat) (before : Option Char) :
    IsQuiet classPrefix (lineMarkup classPrefix settings.maxMemberDepth names)
      (ofText settings offset before (line names)) := by
  -- behind a group the rest of the line is again a line of names
  induction names using groups.induct settings.maxMemberDepth generalizing offset before with
  | case1 =>
      rw [lineMarkup_nil]
      exact isQuiet_nil ..
  | case2 name names ih =>
      obtain ⟨offset', before', hGroup⟩ := ofText_names offset before name names
      rw [hGroup, lineMarkup_cons, ← ofToken_groupToken]
      refine IsQuiet.prepend ?_ offset _
      cases hRest : names.drop settings.maxMemberDepth with
      | nil => exact isQuiet_nil ..
      | cons next later =>
          rw [hRest] at ih
          have hPeriod : dotted (next :: later) = '.' :: line (next :: later) :=
            congrArg (List.cons '.') (line_cons next later).symm
          rw [hPeriod, ofText_period, if_neg (List.cons_ne_nil _ _)]
          rw [← ofToken_period]
          exact (ih ..).prepend offset' (.leaf .period ['.'])

theorem ofLine_none (line : Text.SourceLine) :
    ofLine settings none line = ofText settings line.offset none line.text := by
  unfold ofLine
  split
  · rename_i hBlank
    rw [List.isEmpty_iff.1 hBlank, ofText]
  · rfl

/-- A line of dotted names outside of comments is written in groups of nested names, with a
period between any two groups, and nothing is reported about it. -/
theorem ofLine_dotted (settings : Settings) (names : List Name) (offset : Nat) :
    let reading := ofLine settings none ⟨line names, offset⟩
    Markup.ofTokens settings.classPrefix.toList reading.tokens =
        lineMarkup settings.classPrefix.toList settings.maxMemberDepth names ∧
      reading.warnings = [] ∧ reading.openComment = none := by
  intro reading
  have hReading : reading = ofText settings offset none (line names) := ofLine_none ..
  rw [hReading]
  obtain ⟨hMarkup, hWarnings, hComment⟩ := isQuiet_line names offset none
  exact ⟨hMarkup, hWarnings, hComment⟩

/-- A name that is a member of the first and a keyword on its own: where a group begins anew there
is no owner. -/
theorem ofLine_dotted_pastDepth :
    let settings : Settings := { maxMemberDepth := 1, classPrefix := "js-" }
    let reading := ofLine settings none ⟨"Symbol.for.body.for".toList, 4⟩
    Markup.ofTokens "js-".toList reading.tokens =
        ("<span class=\"js-native-keyword\">Symbol<span class=\"js-period\">.</span>" ++
          "<span class=\"js-native-keyword\">for</span></span>" ++
          "<span class=\"js-period\">.</span>" ++
          "<span class=\"js-identifier\">body<span class=\"js-period\">.</span>" ++
          "<span class=\"js-reserved-keyword\">for</span></span>").toList ∧
      reading.warnings = [] ∧ reading.openComment = none := by
  intro settings reading
  let first : Name := ⟨'S', "ymbol".toList, by decide, List.all_eq_true.1 (by decide)⟩
  let member : Name := ⟨'f', "or".toList, by decide, List.all_eq_true.1 (by decide)⟩
  let other : Name := ⟨'b', "ody".toList, by decide, List.all_eq_true.1 (by decide)⟩
  have hLine : line [first, member, other, member] = "Symbol.for.body.for".toList := by decide
  have hRead := ofLine_dotted settings [first, member, other, member] 4
  rw [hLine] at hRead
  obtain ⟨hMarkup, hWarnings, hComment⟩ := hRead
  refine ⟨hMarkup.trans ?_, hWarnings, hComment⟩
  decide +kernel

end LineReading

end CodeListing
