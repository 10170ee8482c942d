import CodeListing.Json.Value
import CodeListing.Settings.Basic

/-! # Settings in JSON

Settings are written as an object with a member for every choice that differs
from the default, or as an array of the choices in a fixed order, of which the
last may be left out. No key is unknown or stands twice, and the settings that
are read make sense.
-/

namespace CodeListing

open Json

/-- The choices that can be written. -/
inductive Field where
  | indentUnit
  | maxRegexFlags
  | maxMemberDepth
  | classPrefix
  deriving Repr, DecidableEq

namespace Field

/-- The choices in the order of an array. -/
def all : List Field :=
  [.indentUnit, .maxRegexFlags, .maxMemberDepth, .classPrefix]

def key : Field → String
  | .indentUnit => "indent_unit"
  | .maxRegexFlags => "max_regex_flags"
  | .maxMemberDepth => "max_member_depth"
  | .classPrefix => "class_prefix"

def ofKey? (key : List Char) : Option Field :=
  all.find? fun field => field.key.toList = key

def read (field : Field) (settings : Settings) (text : List Char) : Result Settings :=
  match field with
  | .indentUnit =>
    (readBounded "u32" (UInt32.size - 1) text).map fun (value, rest) =>
      ({ settings with indentUnit := value.toUInt32 }, rest)
  | .maxRegexFlags =>
    (readBounded "usize" maxWhole text).map fun (value, rest) =>
      ({ settings with maxRegexFlags := value }, rest)
  | .maxMemberDepth =>
    (readBounded "usize" maxWhole text).map fun (value, rest) =>
      ({ settings with maxMemberDepth := value }, rest)
  | .classPrefix =>
    (readText "a string" text).map fun (value, rest) =>
      ({ settings with classPrefix := String.ofList value }, rest)

end Field

inductive SettingsError where
  /-- The text is not JSON of the expected form. -/
  | malformed (error : Json.Error)
  /-- The settings make no sense. -/
  | invalid (violation : Violation)
  deriving Repr

namespace SettingsError

def message : SettingsError → String
  | .malformed error => "Malformed configuration: " ++ error.message
  | .invalid violation => "Invalid configuration: " ++ violation.message

end SettingsError

namespace Settings

def readColon (text : List Char) : Except Failure (List Char) :=
  match skipBlanks text with
  | [] => .error (.next .endInObject [])
  | ':' :: rest => .ok rest
  | text => .error (.next .expectedColon text)

/-- Where a failure about a key is placed: after the blanks that follow the key, and after
a closing brace if one comes next. -/
def afterKey (text : List Char) : List Char :=
  match skipBlanks text with
  | '}' :: rest => rest
  | text => text

/-- Reads a key after its first quote. It must be one of `fields`, which have not been
read yet. -/
def readKey (fields : List Field) (text : List Char) : Result Field :=
  match readString text with
  | .error failure => .error failure
  | .ok (key, rest) =>
    match Field.ofKey? key with
    | none => .error (.here (.unknownField key (Field.all.map Field.key)) (afterKey rest))
    | some field =>
      if fields.contains field then .ok (field, rest)
      else .error (.here (.duplicateField field.key) (afterKey rest))

/-- Reads a member of an object after the first quote of its key. -/
def readMember (fields : List Field) (settings : Settings) (text : List Char) :
    Result (Field × Settings) :=
  match readKey fields text with
  | .error failure => .error failure
  | .ok (field, rest) =>
    match readColon rest with
    | .error failure => .error failure
    | .ok rest =>
      match field.read settings rest with
      | .error failure => .error failure
      | .ok (settings, rest) => .ok ((field, settings), rest)

theorem mem_of_readKey {fields : List Field} {field : Field} {text rest : List Char}
    (h : readKey fields text = .ok (field, rest)) : field ∈ fields := by
  unfold readKey at h
  split at h
  · cases h
  · split at h
    · cases h
    · split at h
      · rename_i hContains
        cases h
        exact List.contains_iff_mem.1 hContains
      · cases h

theorem mem_of_readMember {fields : List Field} {settings result : Settings} {field : Field}
    {text rest : List Char} (h : readMember fields settings text = .ok ((field, result), rest)) :
    field ∈ fields := by
  unfold readMember at h
  split at h
  · cases h
  · rename_i hKey
    split at h
    · cases h
    · split at h
      · cases h
      · cases h
        exact mem_of_readKey hKey

/-- Reads the members of an object after its first quote or the one after a comma;
`fields` have not been read yet. -/
def readMembers (fields : List Field) (settings : Settings) (text : List Char) :
    Result Settings :=
  match _h : readMember fields settings text with
  | .error failure => .error failure
  | .ok ((field, settings), rest) =>
    match skipBlanks rest with
    | [] => .error (.next .endInObject [])
    | '}' :: rest => .ok (settings, rest)
    | ',' :: rest =>
      match skipBlanks rest with
      | [] => .error (.next .endInValue [])
      | '"' :: rest => readMembers (fields.erase field) settings rest
      | '}' :: rest => .error (.next .trailingComma ('}' :: rest))
      | rest => .error (.next .expectedKey rest)
    | rest => .error (.next .expectedCommaOrBrace rest)
termination_by fields.length
decreasing_by
  have hMem := mem_of_readMember _h
  have hPos := List.length_pos_of_mem hMem
  rw [List.length_erase_of_mem hMem]
  omega

def readObject (text : List Char) : Result Settings :=
  match skipBlanks text with
  | [] => .error (.next .endInObject [])
  | '}' :: rest => .ok ({}, rest)
  | '"' :: rest => readMembers Field.all {} rest
  | rest => .error (.next .expectedKey rest)

/-- Reads the end of an array that has all its elements. -/
def readArrayEnd (text : List Char) : Except Failure (List Char) :=
  match skipBlanks text with
  | [] => .error (.next .endInArray [])
  | ']' :: rest => .ok rest
  | ',' :: rest =>
    match skipBlanks rest with
    | ']' :: rest => .error (.next .trailingComma (']' :: rest))
    | rest => .error (.next .trailingCharacters rest)
  | rest => .error (.next .trailingCharacters rest)

/-- Reads the elements of an array after the first, for the given fields. -/
def readElements (settings : Settings) : List Field → List Char → Result Settings
  | [], text => (readArrayEnd text).map (settings, ·)
  | field :: fields, text =>
    match skipBlanks text with
    | [] => .error (.next .endInArray [])
    | ']' :: rest => .ok (settings, rest)
    | ',' :: rest =>
      match skipBlanks rest with
      | [] => .error (.next .endInValue [])
      | ']' :: rest => .error (.next .trailingComma (']' :: rest))
      | rest =>
        match field.read settings rest with
        | .error failure => .error failure
        | .ok (settings, rest) => readElements settings fields rest
    | rest => .error (.next .expectedCommaOrBracket rest)

def readArray (text : List Char) : Result Settings :=
  match skipBlanks text with
  | [] => .error (.next .endInArray [])
  | ']' :: rest => .ok ({}, rest)
  | rest =>
    match Field.indentUnit.read {} rest with
    | .error failure => .error failure
    | .ok (settings, rest) => readElements settings (Field.all.drop 1) rest

/-- Reads settings and the blanks after them, which must be all of the text. -/
def readDocument (text : List Char) : Except Failure Settings :=
  let read :=
    match skipBlanks text with
    | '[' :: rest => readArray rest
    | '{' :: rest => readObject rest
    | text => .error (mismatch "struct HighlightConfig" text)
  match read with
  | .error failure => .error failure
  | .ok (settings, rest) =>
    match skipBlanks rest with
    | [] => .ok settings
    | rest => .error (.next .trailingCharacters rest)

/-- The settings, if they make sense. -/
def validate (settings : Settings) : Except SettingsError Settings :=
  match settings.violation? with
  | none => .ok settings
  | some violation => .error (.invalid violation)

/-- The settings that a text describes. -/
def ofJson (text : String) : Except SettingsError Settings :=
  match readDocument text.toList with
  | .error failure => .error (.malformed (.ofFailure text.toList failure))
  | .ok settings => settings.validate

/-- Settings that were read make sense. -/
theorem violation?_of_ofJson {text : String} {settings : Settings}
    (h : ofJson text = .ok settings) : settings.violation? = none := by
  unfold ofJson at h
  split at h
  · cases h
  · unfold validate at h
    split at h
    · rename_i hNone
      cases h
      exact hNone
    · cases h

end Settings

end CodeListing
