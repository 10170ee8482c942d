import CodeListing.Vocabulary

/-! # Tokens

A line is read as a sequence of tokens. A token is either one piece of text
with its class, or a dotted name, which holds the token of its member. The
text of a token is the source text it was read from, without loss.
-/

namespace CodeListing

/-- What a piece of source text is. -/
inductive TokenClass where
  /-- A quoted string, or what a quote begins if the string never ends. -/
  | string
  /-- A run of spaces. -/
  | whitespace
  /-- A parenthesis, square bracket or brace. -/
  | bracket
  /-- A character of an operator. -/
  | operator
  | comma
  | semicolon
  | colon
  | period
  /-- A decimal or hexadecimal number. -/
  | number
  /-- A comment, or the part of one that stands on the line. -/
  | comment
  /-- A regular expression between slashes, with its flags. -/
  | regex
  /-- A word of the vocabulary, or a known member of one. -/
  | keyword (category : Category)
  /-- Any other name. -/
  | identifier
  /-- Any other character. -/
  | miscellaneous
  deriving Repr, DecidableEq

namespace TokenClass

/-- The class of a separator, which is a token by itself. -/
def ofSeparator? (c : Char) : Option TokenClass :=
  if c = ',' then some .comma
  else if c = ';' then some .semicolon
  else if c = ':' then some .colon
  else if c = '.' then some .period
  else none

end TokenClass

/-- A token of one line. -/
inductive Token where
  /-- A piece of text of one class. -/
  | leaf (tokenClass : TokenClass) (text : List Char)
  /-- A name, a period, and the token of the member that the period leads to. -/
  | dotted (tokenClass : TokenClass) (name : List Char) (member : Token)
  deriving Repr, DecidableEq

namespace Token

def text : Token → List Char
  | .leaf _ text => text
  | .dotted _ name member => name ++ '.' :: member.text

/-- The classes and texts of the token's pieces, in reading order. -/
def leaves : Token → List (TokenClass × List Char)
  | .leaf tokenClass text => [(tokenClass, text)]
  | .dotted tokenClass name member => (tokenClass, name) :: (.period, ['.']) :: member.leaves

/-- How many tokens are nested in each other, this one included. -/
def depth : Token → Nat
  | .leaf _ _ => 1
  | .dotted _ _ member => member.depth + 1

theorem flatMap_leaves (token : Token) : token.leaves.flatMap (·.2) = token.text := by
  induction token with
  | leaf => simp [leaves, text]
  | dotted _ _ _ ih => simp [leaves, text, ih]

end Token

end CodeListing
