import CodeListing.Json.Failure

/-! # Strings of JSON

A string runs to the next quote that no backslash precedes. Characters beyond
the first 65536 may be escaped as pairs of surrogates.
-/

namespace CodeListing.Json

open Text (hexValue?)

/-- The character for which a character other than `u` stands after a backslash. -/
def shortEscape? (c : Char) : Option Char :=
  if c = '"' || c = '\\' || c = '/' then some c
  else if c = 'b' then some '\x08'
  else if c = 'f' then some '\x0c'
  else if c = 'n' then some '\n'
  else if c = 'r' then some '\r'
  else if c = 't' then some '\t'
  else none

def hexValue4? (a b c d : Char) : Option Nat := do
  return (← hexValue? a) * 4096 + (← hexValue? b) * 256 + (← hexValue? c) * 16 + (← hexValue? d)

/-- Reads four hexadecimal digits. Four bytes are taken, whatever they are. -/
def readHex4 (text : List Char) : Result Nat :=
  if byteLength text < 4 then .error (.here .endInString [])
  else
    match text with
    | a :: b :: c :: d :: rest =>
      match hexValue4? a b c d with
      | some value => .ok (value, rest)
      | none => .error ⟨.invalidEscape, text, 4⟩
    | _ => .error ⟨.invalidEscape, text, 4⟩

/-- Whether a unit is the first half of a pair. -/
def isLeading (unit : Nat) : Bool :=
  0xD800 ≤ unit && unit ≤ 0xDBFF

def isTrailing (unit : Nat) : Bool :=
  0xDC00 ≤ unit && unit ≤ 0xDFFF

/-- Reads the second half of the pair that `leading` begins. -/
def readTrailing (leading : Nat) (text : List Char) : Result Char :=
  match text with
  | [] => .error (.here .endInString [])
  | '\\' :: [] => .error (.here .endInString [])
  | '\\' :: 'u' :: rest =>
    match readHex4 rest with
    | .error failure => .error failure
    | .ok (trailing, after) =>
      if isTrailing trailing then
        .ok (Char.ofNat (0x10000 + (leading - 0xD800) * 0x400 + (trailing - 0xDC00)), after)
      else .error (.here .loneSurrogate after)
  | '\\' :: rest => .error (.next .unpairedSurrogate rest)
  | _ => .error (.next .unpairedSurrogate text)

def readEscaped (text : List Char) : Result Char :=
  match text with
  | [] => .error (.here .endInString [])
  | 'u' :: rest =>
    match readHex4 rest with
    | .error failure => .error failure
    | .ok (unit, after) =>
      if isTrailing unit then .error (.here .loneSurrogate after)
      else if isLeading unit then readTrailing unit after
      else .ok (Char.ofNat unit, after)
  | c :: rest =>
    match shortEscape? c with
    | some escaped => .ok (escaped, rest)
    | none => .error (.next .invalidEscape text)

theorem length_readHex4 {text rest : List Char} {value : Nat}
    (h : readHex4 text = .ok (value, rest)) : rest.length < text.length := by
  unfold readHex4 at h
  split at h
  · cases h
  · split at h
    · split at h
      · cases h
        simp only [List.length_cons]
        omega
      · cases h
    · cases h

theorem length_readTrailing {leading : Nat} {text rest : List Char} {c : Char}
    (h : readTrailing leading text = .ok (c, rest)) : rest.length < text.length := by
  unfold readTrailing at h
  split at h
  · cases h
  · cases h
  · split at h
    · cases h
    · rename_i hHex
      have hTail := length_readHex4 hHex
      split at h
      · simp only [Except.ok.injEq, Prod.mk.injEq] at h
        simp only [← h.2, List.length_cons]
        omega
      · cases h
  · cases h
  · cases h

theorem length_readEscaped {text rest : List Char} {c : Char}
    (h : readEscaped text = .ok (c, rest)) : rest.length < text.length := by
  unfold readEscaped at h
  split at h
  · cases h
  · split at h
    · cases h
    · rename_i hHex
      have hTail := length_readHex4 hHex
      split at h
      · cases h
      · split at h
        · have hRest := length_readTrailing h
          simp only [List.length_cons]
          omega
        · cases h
          simp only [List.length_cons]
          omega
  · split at h
    · cases h
      simp
    · cases h

def readString (text : List Char) : Result (List Char) :=
  match text with
  | [] => .error (.here .endInString [])
  | c :: rest =>
    if c = '"' then .ok ([], rest)
    else if c = '\\' then
      match _h : readEscaped rest with
      | .error failure => .error failure
      | .ok (escaped, after) => (readString after).map fun (tail, left) => (escaped :: tail, left)
    else if c.toNat < 0x20 then .error (.next .controlCharacter text)
    else (readString rest).map fun (tail, left) => (c :: tail, left)
termination_by text.length
decreasing_by
  · have := length_readEscaped _h
    simp only [List.length_cons]
    omega
  · simp

end CodeListing.Json
