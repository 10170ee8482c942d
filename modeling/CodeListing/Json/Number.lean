import CodeListing.Json.Failure

/-! # Numbers of JSON

A number without fraction and exponent is whole as long as it fits into 64
bits. Every other number is a floating-point number, made from the leading
digits that fit into 64 bits and a power of ten.
-/

namespace CodeListing.Json

inductive Number where
  /-- A whole number. -/
  | integer (value : Int)
  /-- A floating-point number. -/
  | float (value : Float)
  deriving Repr

namespace Number

/-- The number as what was found where something else was expected. -/
def found : Number → Found
  | .integer value => .integer value
  | .float value => .float value

end Number

def maxWhole : Nat :=
  UInt64.size - 1

/-- The number that `value` and the digits after it make, as far as it stays a whole
number, and the digits that it leaves. -/
def takeDigits (value : Nat) : List Char → Nat × List Char
  | [] => (value, [])
  | c :: digits =>
    let longer := value * 10 + (c.toNat - '0'.toNat)
    if longer ≤ maxWhole then takeDigits longer digits else (value, c :: digits)

/-- The greatest power of ten that is a floating-point number has this exponent. -/
def maxPower : Nat :=
  308

def powerOfTen (exponent : Nat) : Float :=
  Float.ofScientific 1 false exponent

/-- A number divided by a power of ten, in steps that each are a floating-point number.
Zero stays zero. -/
def divideByPower (value : Float) (exponent : Nat) : Float :=
  if exponent ≤ maxPower then value / powerOfTen exponent
  else if value == 0 then value
  else divideByPower (value / powerOfTen maxPower) (exponent - maxPower)
termination_by exponent
decreasing_by
  simp only [maxPower] at *
  omega

/-- The floating-point number `significand` times a power of ten, unless it is too large. -/
def scale (significand : Nat) (exponent : Int) : Option Float :=
  let value := (UInt64.ofNat significand).toFloat
  if exponent < 0 then some (divideByPower value exponent.natAbs)
  else if exponent.toNat ≤ maxPower then
    let product := value * powerOfTen exponent.toNat
    if product.isInf then none else some product
  else if value == 0 then some value
  else none

/-- The floating-point number with a sign that ends before `rest`. -/
def signed (negative : Bool) (significand : Nat) (exponent : Int) (rest : List Char) :
    Result Number :=
  match scale significand exponent with
  | none => .error (.here .numberTooLarge rest)
  | some value => .ok (.float (if negative then -value else value), rest)

/-- The greatest exponent that is counted. -/
def maxExponent : Nat :=
  UInt32.size / 2 - 1

/-- Reads the digits of an exponent, of which `value` is the value so far. An exponent
that cannot be counted any more is `none`, with the text after the digit that makes
it so. -/
def readExponentDigits (value : Nat) : List Char → Option Nat × List Char
  | [] => (some value, [])
  | c :: rest =>
    if c.isDigit then
      let longer := value * 10 + (c.toNat - '0'.toNat)
      if longer ≤ maxExponent then readExponentDigits longer rest else (none, rest)
    else (some value, c :: rest)

def readExponentValue (negative : Bool) (significand : Nat) (exponent : Int) (below : Bool)
    (text : List Char) : Result Number :=
  match text with
  | [] => .error (.here .endInValue [])
  | c :: _ =>
    if c.isDigit then
      match readExponentDigits 0 text with
      | (some value, rest) =>
        signed negative significand (if below then exponent - value else exponent + value) rest
      | (none, rest) =>
        if significand ≠ 0 && !below then .error (.here .numberTooLarge rest)
        else signed negative 0 0 (rest.dropWhile Char.isDigit)
    else .error (.next .invalidNumber text)

def readExponent (negative : Bool) (significand : Nat) (exponent : Int) :
    List Char → Result Number
  | '+' :: rest => readExponentValue negative significand exponent false rest
  | '-' :: rest => readExponentValue negative significand exponent true rest
  | rest => readExponentValue negative significand exponent false rest

/-- Reads what may follow the digits of a number that is not whole. -/
def readScale (negative : Bool) (significand : Nat) (exponent : Int) :
    List Char → Result Number
  | 'e' :: rest => readExponent negative significand exponent rest
  | 'E' :: rest => readExponent negative significand exponent rest
  | rest => signed negative significand exponent rest

/-- Reads a fraction after its point. Digits beyond those that fit do not count. -/
def readFraction (negative : Bool) (significand : Nat) (exponent : Int) (text : List Char) :
    Result Number :=
  let digits := text.takeWhile Char.isDigit
  let rest := text.dropWhile Char.isDigit
  if digits.isEmpty then
    .error (.next (if text.isEmpty then .endInValue else .invalidNumber) text)
  else
    let (significand, left) := takeDigits significand digits
    readScale negative significand (exponent - (digits.length - left.length : Nat)) rest

/-- The whole number with a sign, which ends before `rest`. Zero with a sign and numbers
below those of 64 bits are floating-point numbers. -/
def whole (negative : Bool) (value : Nat) (rest : List Char) : Result Number :=
  if !negative then .ok (.integer value, rest)
  else if value = 0 || UInt64.size / 2 < value then signed true value 0 rest
  else .ok (.integer (-value), rest)

/-- Reads what may follow the whole part of a number, which has the digits of `value` and
`dropped` digits that do not fit. -/
def readAfterWhole (negative : Bool) (value dropped : Nat) (text : List Char) :
    Result Number :=
  match text with
  | '.' :: rest => readFraction negative value dropped rest
  | 'e' :: rest => readExponent negative value dropped rest
  | 'E' :: rest => readExponent negative value dropped rest
  | _ => if dropped = 0 then whole negative value text else signed negative value dropped text

def readUnsigned (negative : Bool) (text : List Char) : Result Number :=
  match text with
  | [] => .error (.here .endInValue [])
  | '0' :: rest =>
    if rest.head?.any Char.isDigit then .error (.next .invalidNumber rest)
    else readAfterWhole negative 0 0 rest
  | c :: _ =>
    if c.isDigit then
      let (value, left) := takeDigits 0 (text.takeWhile Char.isDigit)
      readAfterWhole negative value left.length (text.dropWhile Char.isDigit)
    else .error (.next .invalidNumber text)

def readNumber : List Char → Result Number
  | '-' :: rest => readUnsigned true rest
  | text => readUnsigned false text

end CodeListing.Json
