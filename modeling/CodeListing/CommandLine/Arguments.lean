/-! # Arguments of the command line

The arguments name at most one input, and options in any order before or after
it. An option with a value takes it from the same argument after `=` or from
the next argument; after `--` there are no options. Arguments are read from
left to right, and the first one that ends the reading decides how.
-/

namespace CodeListing.CommandLine

inductive Misuse where
  | unknownOption
  /-- An input after the first. -/
  | secondInput
  /-- An option that was given before and counts once. -/
  | repeatedOption
  | missingValue
  | unexpectedValue
  | invalidValue
  deriving Repr, DecidableEq

/-- What ends the reading of arguments without a listing to make. -/
inductive Halt where
  | version
  | help
  | misuse (misuse : Misuse)
  deriving Repr, DecidableEq

structure Invocation where
  /-- The name of the input, if one is given. -/
  input? : Option String := none
  /-- The name of the file with settings. -/
  config : Option String := none
  /-- The padding of one level, instead of that in the settings. -/
  indentUnit : Option UInt32 := none
  /-- Whether a list element goes around the items. -/
  wrap : Bool := false
  /-- Whether warnings are reported. -/
  warnings : Bool := false
  /-- How often more messages are asked for. -/
  verbosity : Nat := 0
  deriving Repr, DecidableEq

/-- The options without a value. -/
inductive Flag where
  | wrap
  | warnings
  | verbose
  | version
  | help
  deriving Repr, DecidableEq

namespace Flag

def ofName? (name : String) : Option Flag :=
  match name with
  | "wrap" => some .wrap
  | "warnings" => some .warnings
  | "verbose" => some .verbose
  | "version" => some .version
  | "help" => some .help
  | _ => none

def ofLetter? (letter : Char) : Option Flag :=
  match letter with
  | 'v' => some .verbose
  | 'V' => some .version
  | 'h' => some .help
  | _ => none

def apply (flag : Flag) (invocation : Invocation) : Except Halt Invocation :=
  match flag with
  | .wrap =>
    if invocation.wrap then .error (.misuse .repeatedOption)
    else .ok { invocation with wrap := true }
  | .warnings =>
    if invocation.warnings then .error (.misuse .repeatedOption)
    else .ok { invocation with warnings := true }
  | .verbose => .ok { invocation with verbosity := invocation.verbosity + 1 }
  | .version => .error .version
  | .help => .error .help

end Flag

/-- The options with a value. -/
inductive Parameter where
  /-- The option `--config`. -/
  | config
  /-- The option `--indent-unit`. -/
  | indentUnit
  deriving Repr, DecidableEq

/-- The value of a text of decimal digits, if it has at least one and no others. -/
def digitsValue? (text : List Char) : Option Nat :=
  if text.isEmpty || text.any (fun c => !c.isDigit) then none
  else some (text.foldl (fun value c => value * 10 + (c.toNat - '0'.toNat)) 0)

/-- The word of 32 bits that a text of digits means; a sign may stand before them. -/
def word? (text : List Char) : Option UInt32 :=
  let value :=
    match text with
    | '+' :: digits => digitsValue? digits
    | '-' :: digits => (digitsValue? digits).filter (· = 0)
    | digits => digitsValue? digits
  (value.filter (· < UInt32.size)).map UInt32.ofNat

namespace Parameter

def ofName? (name : String) : Option Parameter :=
  match name with
  | "config" => some .config
  | "indent-unit" => some .indentUnit
  | _ => none

def apply (parameter : Parameter) (value : String) (invocation : Invocation) :
    Except Halt Invocation :=
  match parameter with
  | .config =>
    if invocation.config.isSome then .error (.misuse .repeatedOption)
    else if value.isEmpty then .error (.misuse .invalidValue)
    else .ok { invocation with config := some value }
  | .indentUnit =>
    if invocation.indentUnit.isSome then .error (.misuse .repeatedOption)
    else
      match word? value.toList with
      | none => .error (.misuse .invalidValue)
      | some unit => .ok { invocation with indentUnit := some unit }

end Parameter

/-- Whether an argument looks like an option and so is not the value of one. -/
def isOption (argument : String) : Bool :=
  match argument.toList with
  | ['-'] => false
  | '-' :: _ => true
  | _ => false

/-- What an input asks for in addition. -/
def addInput (argument : String) (invocation : Invocation) : Except Halt Invocation :=
  if invocation.input?.isSome then .error (.misuse .secondInput)
  else .ok { invocation with input? := some argument }

/-- What flags written as letters after one dash ask for in addition. -/
def addLetters (invocation : Invocation) : List Char → Except Halt Invocation
  | [] => .ok invocation
  | letter :: letters =>
    match Flag.ofLetter? letter with
    | none => .error (.misuse .unknownOption)
    | some flag =>
      match flag.apply invocation with
      | .error halt => .error halt
      | .ok invocation => addLetters invocation letters

/-- An option without its dashes: its name, and its value if it is in the same argument. -/
def splitValue (text : List Char) : String × Option String :=
  match text.dropWhile (· ≠ '=') with
  | [] => (String.ofList text, none)
  | _ :: value => (String.ofList (text.takeWhile (· ≠ '=')), some (String.ofList value))

/-- How the next argument is understood. -/
inductive Mode where
  /-- As an option if it looks like one, and else as an input. -/
  | options
  /-- As the value of an option. -/
  | value (parameter : Parameter)
  /-- As an input, whatever it looks like. -/
  | inputs
  deriving Repr, DecidableEq

structure Reading where
  /-- What they ask for. -/
  invocation : Invocation := {}
  /-- How the next is understood. -/
  mode : Mode := .options
  deriving Repr, DecidableEq

namespace Reading

/-- Reads an option with two dashes, given without them. -/
def readLong (invocation : Invocation) (text : List Char) : Except Halt Reading :=
  let (name, value?) := splitValue text
  match Flag.ofName? name, Parameter.ofName? name, value? with
  | some flag, _, none => (flag.apply invocation).map ({ invocation := · })
  | some _, _, some _ => .error (.misuse .unexpectedValue)
  | none, some parameter, some value =>
    (parameter.apply value invocation).map ({ invocation := · })
  | none, some parameter, none => .ok { invocation := invocation, mode := .value parameter }
  | none, none, _ => .error (.misuse .unknownOption)

/-- Reads the next argument. -/
def next (reading : Reading) (argument : String) : Except Halt Reading :=
  match reading.mode with
  | .inputs => (addInput argument reading.invocation).map ({ invocation := ·, mode := .inputs })
  | .value parameter =>
    if isOption argument then .error (.misuse .missingValue)
    else (parameter.apply argument reading.invocation).map ({ invocation := · })
  | .options =>
    match argument.toList with
    | ['-', '-'] => .ok { reading with mode := .inputs }
    | '-' :: '-' :: text => readLong reading.invocation text
    | '-' :: letter :: letters =>
      (addLetters reading.invocation (letter :: letters)).map ({ invocation := · })
    | _ => (addInput argument reading.invocation).map ({ invocation := · })

/-- What the arguments ask for if there are no more. -/
def finish (reading : Reading) : Except Halt Invocation :=
  match reading.mode with
  | .value _ => .error (.misuse .missingValue)
  | _ => .ok reading.invocation

end Reading

def Invocation.ofArguments (arguments : List String) : Except Halt Invocation :=
  match arguments.foldlM Reading.next {} with
  | .error halt => .error halt
  | .ok reading => reading.finish

def Invocation.input (invocation : Invocation) : String :=
  invocation.input?.getD "-"

end CodeListing.CommandLine
