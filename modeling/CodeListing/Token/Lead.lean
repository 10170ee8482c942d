import CodeListing.Token.Basic
import CodeListing.Unicode.Numeric

/-! # How tokens begin

The first character of a token says how the token is to be read.
-/

namespace CodeListing

open Unicode

/-- The characters that begin a name. -/
def isNameStart (c : Char) : Bool :=
  isAlphabetic c || c = '_' || c = '$'

def isNamePart (c : Char) : Bool :=
  isAlphanumeric c || c = '_' || c = '$'

def isQuote (c : Char) : Bool :=
  c = '\'' || c = '"'

def isBracket (c : Char) : Bool :=
  "\x7b[()]\x7d".toList.contains c

/-- The characters of operators, apart from the slash. -/
def isOperator (c : Char) : Bool :=
  "*%+-<>&^|=!~?".toList.contains c

/-- How the token that a character begins is read. -/
inductive Lead where
  /-- The quote of a string. -/
  | quote
  /-- A space. -/
  | space
  /-- The first digit of a number. -/
  | digit
  /-- A slash: division, a comment or a regular expression. -/
  | slash
  /-- The first character of a name. -/
  | name
  /-- A token of one character. -/
  | single (tokenClass : TokenClass)
  deriving Repr, DecidableEq

/-- How the token that `c` begins is read. -/
def Lead.of (c : Char) : Lead :=
  match TokenClass.ofSeparator? c with
  | some tokenClass => .single tokenClass
  | none =>
    if isQuote c then .quote
    else if c = ' ' then .space
    else if isBracket c then .single .bracket
    else if isOperator c then .single .operator
    else if c.isDigit then .digit
    else if c = '/' then .slash
    else if isNameStart c then .name
    else .single .miscellaneous

end CodeListing
