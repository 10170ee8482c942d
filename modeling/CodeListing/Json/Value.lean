import CodeListing.Json.Number
import CodeListing.Json.String

/-! # Values of an expected kind

A reader of settings knows what kind of value it wants. If another kind stands
in the text, the value is read as far as it takes to say what it is.
-/

namespace CodeListing.Json

/-- The text after the blanks that may stand between tokens. -/
def skipBlanks (text : List Char) : List Char :=
  text.dropWhile fun c => c = ' ' || c = '\t' || c = '\n' || c = '\r'

/-- Reads the rest of the word that means a value. -/
def readWord : List Char → List Char → Except Failure (List Char)
  | [], text => .ok text
  | _ :: _, [] => .error (.here .endInValue [])
  | c :: word, d :: rest =>
    if d = c then readWord word rest else .error (.next .expectedWord (d :: rest))

/-- The failure for the value at the start of `text`, which is not what was expected. -/
def mismatch (expected : String) (text : List Char) : Failure :=
  let word (found : Found) (letters : String) (rest : List Char) : Failure :=
    match readWord letters.toList rest with
    | .error failure => failure
    | .ok rest => .here (.invalidType found expected) rest
  match text with
  | [] => .next .endInValue []
  | c :: rest =>
    if c = 'n' then word .null "ull" rest
    else if c = 't' then word (.bool true) "rue" rest
    else if c = 'f' then word (.bool false) "alse" rest
    else if c = '-' || c.isDigit then
      match readNumber text with
      | .error failure => failure
      | .ok (number, rest) => .here (.invalidType number.found expected) rest
    else if c = '"' then
      match readString rest with
      | .error failure => failure
      | .ok (string, rest) => .here (.invalidType (.string string) expected) rest
    else if c = '[' then .here (.invalidType .sequence expected) text
    else if c = '{' then .here (.invalidType .map expected) text
    else .next .expectedValue text

def readBounded (expected : String) (most : Nat) (text : List Char) : Result Nat :=
  let text := skipBlanks text
  if text.head?.any fun c => c = '-' || c.isDigit then
    match readNumber text with
    | .error failure => .error failure
    | .ok (.float value, rest) => .error (.here (.invalidType (.float value) expected) rest)
    | .ok (.integer value, rest) =>
      if 0 ≤ value && value ≤ most then .ok (value.toNat, rest)
      else .error (.here (.invalidValue value expected) rest)
  else .error (mismatch expected text)

def readText (expected : String) (text : List Char) : Result (List Char) :=
  match skipBlanks text with
  | '"' :: rest => readString rest
  | text => .error (mismatch expected text)

end CodeListing.Json
