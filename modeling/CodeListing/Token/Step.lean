import CodeListing.Pattern.WellFormed
import CodeListing.Settings.Basic
import CodeListing.Token.Delimited
import CodeListing.Token.Name
import CodeListing.Warning

/-! # Reading one token

A token is read from the front of a text that is not empty. Only a slash needs
to know what stands before it, since after a value it divides and elsewhere it
may open a regular expression. Every reader gives back the text that it did not
use, and token and rest together are the text that was read.
-/

namespace CodeListing

/-- What reading a token found besides the token. -/
inductive Finding where
  /-- A defect in the first `length` characters from the start of the token. -/
  | defect (defect : Defect) (length : Nat)
  /-- The token opens a block comment that the text does not close. -/
  | openComment
  deriving Repr, DecidableEq

/-- A token read from the front of a text. -/
structure Step where
  /-- The token. -/
  token : Token
  /-- What was found besides. -/
  finding : Option Finding := none
  /-- The text after the token. -/
  rest : List Char
  deriving Repr, DecidableEq

/-- Whether a slash may open a regular expression after `before`, the last character
on the line that is no space. The three letters end `return`, `case` and `typeof`. -/
def allowsRegex : Option Char → Bool
  | none => true
  | some c => "()[\x7b\x7d;*/%+-<>&^|=!:?nef".toList.contains c

def isRegexFlag (c : Char) : Bool :=
  c = 'g' || c = 'i' || c = 'm' || c = 'y'

/-- The characters that continue a number which begins with `c` and `rest`. After `0x`
these are hexadecimal digits; a number may hold any count of points. -/
def isNumberPart (c : Char) (rest : List Char) (d : Char) : Bool :=
  if c = '0' && (rest.head? = some 'x' || rest.head? = some 'X') then
    Text.isHexDigit d || d = 'x' || d = 'X' || d = '.'
  else d.isDigit || d = '.'

namespace Step

/-- The token that goes as far as `p` holds. -/
def run (tokenClass : TokenClass) (p : Char → Bool) (c : Char) (rest : List Char) : Step where
  token := .leaf tokenClass (c :: rest.takeWhile p)
  rest := rest.dropWhile p

/-- Reads the string that the quote `c` begins. Without an end it takes the whole line. -/
def string (c : Char) (rest : List Char) : Step :=
  match splitUnescaped c rest with
  | some (body, after) => { token := .leaf .string (c :: body ++ [c]), rest := after }
  | none =>
    { token := .leaf .string (c :: rest)
      finding := some (.defect .unterminatedString (rest.length + 1))
      rest := [] }

/-- Reads the block comment that `/*` begins, of which `rest` is the text after the star. -/
def blockComment (rest : List Char) : Step :=
  match splitCommentEnd rest with
  | some (comment, after) => { token := .leaf .comment ('/' :: '*' :: comment), rest := after }
  | none =>
    { token := .leaf .comment ('/' :: '*' :: rest), finding := some .openComment, rest := [] }

def division (finding : Option Finding) (rest : List Char) : Step where
  token := .leaf .operator ['/']
  finding := finding
  rest := rest

/-- Reads the slash before `rest` where a regular expression may stand. Without a second
slash, or around a text that is no pattern, it divides. -/
def regex (maxFlags : Nat) (rest : List Char) : Step :=
  match splitUnescaped '/' rest with
  | none => division none rest
  | some (body, after) =>
    if Pattern.isPattern body then
      let flags := min maxFlags (after.takeWhile isRegexFlag).length
      { token := .leaf .regex ('/' :: body ++ '/' :: after.take flags), rest := after.drop flags }
    else
      division (some (.defect (.rejectedRegex (String.ofList body)) (body.length + 2))) rest

/-- Reads the slash before `rest`, with `before` the last character that is no space. -/
def slash (maxFlags : Nat) (before : Option Char) (rest : List Char) : Step :=
  match rest with
  | '/' :: _ => { token := .leaf .comment ('/' :: rest), rest := [] }
  | '*' :: more => blockComment more
  | _ => if allowsRegex before then regex maxFlags rest else division none rest

/-- Reads the token that `c` begins, with `before` the last character that is no space. -/
def read (settings : Settings) (before : Option Char) (c : Char) (rest : List Char) : Step :=
  match Lead.of c with
  | .quote => string c rest
  | .space => run .whitespace (· = ' ') c rest
  | .digit => run .number (isNumberPart c rest) c rest
  | .slash => slash settings.maxRegexFlags before rest
  | .name =>
    let (token, after) := readName settings.maxMemberDepth none c rest
    { token := token, rest := after }
  | .single tokenClass => { token := .leaf tokenClass [c], rest := rest }

/-- All the text that the step was about. -/
def source (step : Step) : List Char :=
  step.token.text ++ step.rest

theorem source_run (tokenClass : TokenClass) (p : Char → Bool) (c : Char) (rest : List Char) :
    (run tokenClass p c rest).source = c :: rest := by
  simp [run, source, Token.text, List.takeWhile_append_dropWhile]

theorem source_string (c : Char) (rest : List Char) : (string c rest).source = c :: rest := by
  unfold string
  split
  · rename_i hSplit
    simp [source, Token.text, eq_of_splitUnescaped hSplit]
  · simp [source, Token.text]

theorem source_blockComment (rest : List Char) :
    (blockComment rest).source = '/' :: '*' :: rest := by
  unfold blockComment
  split
  · rename_i hSplit
    simp [source, Token.text, eq_of_splitCommentEnd hSplit]
  · simp [source, Token.text]

theorem source_regex (maxFlags : Nat) (rest : List Char) :
    (regex maxFlags rest).source = '/' :: rest := by
  unfold regex
  split
  · rfl
  · rename_i hSplit
    split
    · simp [source, Token.text, eq_of_splitUnescaped hSplit]
    · rfl

theorem source_slash (maxFlags : Nat) (before : Option Char) (rest : List Char) :
    (slash maxFlags before rest).source = '/' :: rest := by
  unfold slash
  split
  · simp [source, Token.text]
  · exact source_blockComment _
  · split
    · exact source_regex _ _
    · rfl

theorem eq_slash_of_lead {c : Char} (h : Lead.of c = .slash) : c = '/' := by
  grind [Lead.of]

/-- Nothing is lost in reading a token. -/
theorem source_read (settings : Settings) (before : Option Char) (c : Char) (rest : List Char) :
    (read settings before c rest).source = c :: rest := by
  unfold read
  split
  · exact source_string c rest
  · exact source_run _ _ c rest
  · exact source_run _ _ c rest
  · rename_i hLead
    rw [source_slash, eq_slash_of_lead hLead]
  · exact text_readName _ _ c rest
  · rfl

theorem head?_text_slash (maxFlags : Nat) (before : Option Char) (rest : List Char) :
    (slash maxFlags before rest).token.text.head? = some '/' := by
  unfold slash blockComment regex division
  repeat' split
  all_goals simp [Token.text]

theorem head?_text_read (settings : Settings) (before : Option Char) (c : Char)
    (rest : List Char) : (read settings before c rest).token.text.head? = some c := by
  unfold read
  split
  · unfold string
    split <;> simp [Token.text]
  · simp [run, Token.text]
  · simp [run, Token.text]
  · rename_i hLead
    rw [head?_text_slash, eq_slash_of_lead hLead]
  · exact head?_text_readName _ _ c rest
  · simp [Token.text]

theorem length_rest_read (settings : Settings) (before : Option Char) (c : Char)
    (rest : List Char) : (read settings before c rest).rest.length ≤ rest.length := by
  have hSource := congrArg List.length (source_read settings before c rest)
  have hHead := head?_text_read settings before c rest
  simp only [source, List.length_append, List.length_cons] at hSource
  cases hText : (read settings before c rest).token.text with
  | nil => simp [hText] at hHead
  | cons d tail =>
    simp only [hText, List.length_cons] at hSource
    omega

end Step

end CodeListing
