import CodeListing.Token.Lead

/-! # Names and dotted names

A name takes its class from the vocabulary. After a dot a name is first looked
up among the members of the word before the dot. Members are nested in each
other only so deep; where the limit ends a dotted name, its next period is a
token of its own.
-/

namespace CodeListing

/-- Whether a parenthesis follows, with at most one space before it. -/
def opensCall : List Char → Bool
  | '(' :: _ => true
  | ' ' :: '(' :: _ => true
  | _ => false

/-- The class of `name` when `owner` is the word before its dot and `after` is the
text after it. A function without a name defines nothing. -/
def classOfName (owner : Option Word) (name : String) (after : List Char) : TokenClass :=
  match owner.filter (·.hasMember name), Vocabulary.find? name with
  | some owner, _ => .keyword owner.category
  | none, some word =>
    if name = "function" && opensCall after then .keyword .reserved else .keyword word.category
  | none, none => .identifier

/-- Reads the name that `c` begins, with at most `depth` members nested in it, and
gives the text after them. -/
def readName (depth : Nat) (owner : Option Word) (c : Char) (rest : List Char) :
    Token × List Char :=
  let name := c :: rest.takeWhile isNamePart
  let after := rest.dropWhile isNamePart
  let tokenClass := classOfName owner (String.ofList name) after
  match depth, after with
  | depth + 1, '.' :: d :: more =>
    if isNameStart d then
      let (member, left) := readName depth (Vocabulary.find? (String.ofList name)) d more
      (.dotted tokenClass name member, left)
    else (.leaf tokenClass name, after)
  | _, _ => (.leaf tokenClass name, after)

theorem text_readName (depth : Nat) (owner : Option Word) (c : Char) (rest : List Char) :
    (readName depth owner c rest).1.text ++ (readName depth owner c rest).2 = c :: rest := by
  have hSplit (text : List Char) : text.takeWhile isNamePart ++ text.dropWhile isNamePart = text :=
    List.takeWhile_append_dropWhile
  induction depth generalizing owner c rest with
  | zero => simp [readName, Token.text, hSplit]
  | succ depth ih =>
    unfold readName
    simp only
    split
    · rename_i d more hDepth hAfter
      cases hDepth
      split
      · simp only [Token.text, List.append_assoc, List.cons_append]
        rw [ih]
        rw [← hAfter, hSplit]
      · simp [Token.text, hSplit]
    · simp [Token.text, hSplit]

theorem head?_text_readName (depth : Nat) (owner : Option Word) (c : Char) (rest : List Char) :
    (readName depth owner c rest).1.text.head? = some c := by
  cases depth with
  | zero => simp [readName, Token.text]
  | succ depth =>
    unfold readName
    simp only
    repeat' split
    all_goals simp [Token.text]

end CodeListing
