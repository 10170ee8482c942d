/-! # Hexadecimal digits

The digits of base sixteen, read in either letter case and written in lower
case.
-/

namespace CodeListing.Text

def hexValue? (c : Char) : Option Nat :=
  if c.isDigit then some (c.toNat - '0'.toNat)
  else if 'a' ≤ c && c ≤ 'f' then some (c.toNat - 'a'.toNat + 10)
  else if 'A' ≤ c && c ≤ 'F' then some (c.toNat - 'A'.toNat + 10)
  else none

def isHexDigit (c : Char) : Bool :=
  (hexValue? c).isSome

/-- The digits of a number, without zeros before them. -/
def hexDigits (number : Nat) : List Char :=
  Nat.toDigits 16 number

theorem isDigit_iff {c : Char} : c.isDigit = true ↔ 48 ≤ c.toNat ∧ c.toNat ≤ 57 := by
  simp only [Char.isDigit, Bool.and_eq_true, decide_eq_true_eq, UInt32.le_iff_toNat_le, ge_iff_le]
  exact Iff.rfl

theorem le_and_le_iff {first last c : Char} :
    (first ≤ c && c ≤ last) = true ↔ first.toNat ≤ c.toNat ∧ c.toNat ≤ last.toNat := by
  simp only [Bool.and_eq_true, decide_eq_true_eq, Char.le_def, UInt32.le_iff_toNat_le]
  exact Iff.rfl

theorem hexValue?_eq_some {c : Char} {value : Nat} (h : hexValue? c = some value) :
    48 ≤ c.toNat ∧ c.toNat ≤ 57 ∧ value = c.toNat - 48 ∨
      97 ≤ c.toNat ∧ c.toNat ≤ 102 ∧ value = c.toNat - 87 ∨
      65 ≤ c.toNat ∧ c.toNat ≤ 70 ∧ value = c.toNat - 55 := by
  unfold hexValue? at h
  split at h
  · rename_i hDigit
    obtain ⟨hFirst, hLast⟩ := isDigit_iff.1 hDigit
    exact .inl ⟨hFirst, hLast, (Option.some.inj h).symm⟩
  · split at h
    · rename_i hLower
      obtain ⟨hFirst, hLast⟩ : 97 ≤ c.toNat ∧ c.toNat ≤ 102 := le_and_le_iff.1 hLower
      have hValue : c.toNat - 97 + 10 = value := Option.some.inj h
      omega
    · split at h
      · rename_i hUpper
        obtain ⟨hFirst, hLast⟩ : 65 ≤ c.toNat ∧ c.toNat ≤ 70 := le_and_le_iff.1 hUpper
        have hValue : c.toNat - 65 + 10 = value := Option.some.inj h
        omega
      · cases h

end CodeListing.Text
