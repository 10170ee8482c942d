import CodeListing.Token.Basic

/-! # HTML markup

Tokens are written as `span` elements and lines as `li` elements. Text is
escaped, so the only markup in the output is the markup written here.
-/

namespace CodeListing

namespace TokenClass

/-- The class name by which a stylesheet finds the tokens of this class. -/
def cssName : TokenClass → String
  | .string => "string"
  | .whitespace => "whitespace"
  | .bracket => "bracket"
  | .operator => "operator"
  | .comma => "comma"
  | .semicolon => "semicolon"
  | .colon => "colon"
  | .period => "period"
  | .number => "number"
  | .comment => "comment"
  | .regex => "regex"
  | .keyword .defining => "defining-keyword"
  | .keyword .reserved => "reserved-keyword"
  | .keyword .native => "native-keyword"
  | .keyword .value => "value-keyword"
  | .keyword .client => "client-keyword"
  | .keyword .library => "library-keyword"
  | .identifier => "identifier"
  | .miscellaneous => "miscellaneous"

end TokenClass

namespace Markup

/-- The text content that shows as `c`. -/
def escapeChar (c : Char) : List Char :=
  if c = '<' then "&lt;".toList
  else if c = '>' then "&gt;".toList
  else if c = '&' then "&amp;".toList
  else [c]

def escape (text : List Char) : List Char :=
  text.flatMap escapeChar

/-- A `span` element around `content`; the name of its class is `classPrefix`
followed by the name of `tokenClass`. -/
def span (classPrefix : List Char) (tokenClass : TokenClass) (content : List Char) : List Char :=
  "<span class=\"".toList ++ classPrefix ++ tokenClass.cssName.toList ++ "\">".toList
    ++ content ++ "</span>".toList

/-- The markup of a token. The span of a dotted name encloses its member. -/
def ofToken (classPrefix : List Char) : Token → List Char
  | .leaf tokenClass text => span classPrefix tokenClass (escape text)
  | .dotted tokenClass name member =>
    span classPrefix tokenClass
      (escape name ++ span classPrefix .period (escape ['.']) ++ ofToken classPrefix member)

def ofTokens (classPrefix : List Char) (tokens : List Token) : List Char :=
  tokens.flatMap (ofToken classPrefix)

/-- The item of a line, given its padding and content, or of a blank line. -/
def item : Option (Nat × List Char) → List Char
  | none => "<li></li>".toList
  | some (padding, content) =>
    "<li style=\"padding-left:".toList ++ (toString padding).toList ++ "px\">".toList
      ++ content ++ "</li>".toList

/-- A numbered list around `items`, which are `count` in number. -/
def orderedList (classPrefix : List Char) (count : Nat) (items : List Char) : List Char :=
  "<ol class=\"".toList ++ classPrefix ++ "prettyprint\" data-lines=\"".toList
    ++ (toString count).toList ++ "\">".toList ++ items ++ "</ol>".toList

end Markup

end CodeListing
