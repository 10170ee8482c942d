import CodeListing.Decimal.Shortest
import CodeListing.Text.Hexadecimal
import CodeListing.Unicode.Visible

/-! # Failures of reading JSON

A failure has a cause and a place. Its place is given by the text that had not
been read when it was noticed; in a text it is told as a line and a column,
which count bytes because a failure can lie within a character. A message quotes
text so that it stays on one line and every character can be told.
-/

namespace CodeListing

namespace Text

def quoteChar (c : Char) : List Char :=
  if c = '"' then ['\\', '"']
  else if c = '\\' then ['\\', '\\']
  else if c = '\t' then ['\\', 't']
  else if c = '\n' then ['\\', 'n']
  else if c = '\r' then ['\\', 'r']
  else if c = '\x00' then ['\\', '0']
  else if Unicode.isVisible c then [c]
  else ['\\', 'u', '{'] ++ hexDigits c.toNat ++ ['}']

def quote (text : List Char) : List Char :=
  '"' :: text.flatMap quoteChar ++ ['"']

end Text

namespace Json

/-- What was found where something else was expected. -/
inductive Found where
  | null
  | bool (value : Bool)
  | integer (value : Int)
  /-- A number with a fraction or exponent, or one too large for a whole number. -/
  | float (value : Float)
  | string (text : List Char)
  | sequence
  | map
  deriving Repr

/-- How numbers that are not whole are shown. -/
def floatFormat : Decimal.Format :=
  ⟨-5, 15⟩

/-- The text of a finite number that is not whole. -/
def floatText (value : Float) : List Char :=
  let bits := value.toBits
  let sign := if UInt64.size / 2 ≤ bits.toNat then ['-'] else []
  if value == 0 then sign ++ "0.0".toList
  else sign ++ floatFormat.write (Decimal.Interval.ofBits bits).shortest

namespace Found

def describe : Found → String
  | .null => "null"
  | .bool value => "boolean `" ++ toString value ++ "`"
  | .integer value => "integer `" ++ toString value ++ "`"
  | .float value => "floating point `" ++ String.ofList (floatText value) ++ "`"
  | .string text => "string " ++ String.ofList (Text.quote text)
  | .sequence => "sequence"
  | .map => "map"

end Found

inductive Cause where
  | endInValue
  | endInString
  | endInArray
  | endInObject
  | expectedValue
  /-- A word that is not `null`, `true` or `false`. -/
  | expectedWord
  | expectedColon
  | expectedCommaOrBracket
  | expectedCommaOrBrace
  | expectedKey
  | trailingComma
  | trailingCharacters
  | controlCharacter
  | invalidEscape
  /-- Half of a pair of escapes that does not fit the other half. -/
  | loneSurrogate
  /-- Half of a pair of escapes without the other half. -/
  | unpairedSurrogate
  | invalidNumber
  | numberTooLarge
  /-- A key that has no meaning here. -/
  | unknownField (name : List Char) (known : List String)
  | duplicateField (name : String)
  | invalidType (found : Found) (expected : String)
  | invalidValue (value : Int) (expected : String)
  deriving Repr

namespace Cause

/-- Names in backquotes, separated by commas. -/
def listNames (names : List String) : String :=
  ", ".intercalate (names.map fun name => "`" ++ name ++ "`")

def message : Cause → String
  | .endInValue => "EOF while parsing a value"
  | .endInString => "EOF while parsing a string"
  | .endInArray => "EOF while parsing a list"
  | .endInObject => "EOF while parsing an object"
  | .expectedValue => "expected value"
  | .expectedWord => "expected ident"
  | .expectedColon => "expected `:`"
  | .expectedCommaOrBracket => "expected `,` or `]`"
  | .expectedCommaOrBrace => "expected `,` or `\x7d`"
  | .expectedKey => "key must be a string"
  | .trailingComma => "trailing comma"
  | .trailingCharacters => "trailing characters"
  | .controlCharacter => "control character (\\u0000-\\u001F) found while parsing a string"
  | .invalidEscape => "invalid escape"
  | .loneSurrogate => "lone leading surrogate in hex escape"
  | .unpairedSurrogate => "unexpected end of hex escape"
  | .invalidNumber => "invalid number"
  | .numberTooLarge => "number out of range"
  | .unknownField name known =>
    "unknown field `" ++ String.ofList name ++ "`, expected one of " ++ listNames known
  | .duplicateField name => "duplicate field `" ++ name ++ "`"
  | .invalidType found expected =>
    "invalid type: " ++ found.describe ++ ", expected " ++ expected
  | .invalidValue value expected =>
    "invalid value: integer `" ++ toString value ++ "`, expected " ++ expected

end Cause

structure Failure where
  /-- Why the text is refused. -/
  cause : Cause
  /-- The text that had not been read. -/
  rest : List Char
  /-- How many bytes of it the failure is further on. -/
  past : Nat
  deriving Repr

/-- What a reader gives: a value and the text after it, or a failure. -/
abbrev Result (α : Type) := Except Failure (α × List Char)

namespace Failure

/-- A failure at the end of what has been read. -/
def here (cause : Cause) (rest : List Char) : Failure :=
  ⟨cause, rest, 0⟩

/-- A failure that the next byte shows, if there is one. -/
def next (cause : Cause) (rest : List Char) : Failure :=
  ⟨cause, rest, 1⟩

end Failure

structure Position where
  /-- The number of the line, from one. -/
  line : Nat
  /-- The bytes of the line before the place. -/
  column : Nat
  deriving Repr, DecidableEq

namespace Position

/-- The place `bytes` bytes into the text that begins at `position`, or its end. -/
def advance (position : Position) : List Char → Nat → Position
  | [], _ => position
  | c :: rest, bytes =>
    if bytes = 0 then position
    else if c = '\n' then advance ⟨position.line + 1, 0⟩ rest (bytes - 1)
    else
      advance ⟨position.line, position.column + min bytes c.utf8Size⟩ rest (bytes - c.utf8Size)

end Position

def byteLength (text : List Char) : Nat :=
  text.foldl (fun bytes c => bytes + c.utf8Size) 0

structure Error where
  /-- Why the text is refused. -/
  cause : Cause
  /-- Where. -/
  position : Position
  deriving Repr

namespace Error

/-- The failure in a text of which `failure.rest` is the end. -/
def ofFailure (text : List Char) (failure : Failure) : Error :=
  let bytes := byteLength text - byteLength failure.rest + failure.past
  ⟨failure.cause, Position.advance ⟨1, 0⟩ text bytes⟩

def message (error : Error) : String :=
  error.cause.message ++ " at line " ++ toString error.position.line ++ " column "
    ++ toString error.position.column

end Error

end Json

end CodeListing
