import CodeListing.Json.Value
import CodeListing.Proofs.Marks
import CodeListing.Proofs.ReportPlaces

/-! # How values are written in JSON

A text can be written between quotes in several ways, since a character may
stand for itself or be escaped; `Spells` lists them, and each is read as the text
that it spells. A bounded number has one way to be written. The reader of such a
number takes the whole run of digits and accepts no sign, fraction or exponent.
-/

namespace CodeListing.Json

open Report (append_inj_of_endsRun)

def Blank (text : List Char) : Prop :=
  ∀ c ∈ text, c = ' ' ∨ c = '\t' ∨ c = '\n' ∨ c = '\r'

instance (text : List Char) : Decidable (Blank text) :=
  List.decidableBAll (fun c => c = ' ' ∨ c = '\t' ∨ c = '\n' ∨ c = '\r') text

theorem skipBlanks_append {blanks : List Char} (hBlank : Blank blanks) (rest : List Char) :
    skipBlanks (blanks ++ rest) = skipBlanks rest := by
  refine List.dropWhile_append_of_pos fun c hc => ?_
  simpa [or_assoc] using hBlank c hc

/-! ## Strings -/

inductive Spells : List Char → List Char → Prop where
  | nil : Spells [] []
  /-- A character that stands for itself. -/
  | plain {c written text} (noQuote : c ≠ '"') (noBackslash : c ≠ '\\')
      (noControl : 0x20 ≤ c.toNat) (more : Spells written text) :
      Spells (c :: written) (c :: text)
  /-- An escape of one character. -/
  | short {e c written text} (escape : shortEscape? e = some c) (more : Spells written text) :
      Spells ('\\' :: e :: written) (c :: text)
  /-- A character by its number. -/
  | unit {a b c d unit written text} (digits : hexValue4? a b c d = some unit)
      (noLeading : isLeading unit = false) (noTrailing : isTrailing unit = false)
      (more : Spells written text) :
      Spells ('\\' :: 'u' :: a :: b :: c :: d :: written) (Char.ofNat unit :: text)
  /-- A character beyond the first 65536 by the two halves of a pair. -/
  | pair {a b c d a' b' c' d' leading trailing written text}
      (first : hexValue4? a b c d = some leading) (isLeading : isLeading leading = true)
      (second : hexValue4? a' b' c' d' = some trailing) (isTrailing : isTrailing trailing = true)
      (more : Spells written text) :
      Spells ('\\' :: 'u' :: a :: b :: c :: d :: '\\' :: 'u' :: a' :: b' :: c' :: d' :: written)
        (Char.ofNat (0x10000 + (leading - 0xD800) * 0x400 + (trailing - 0xDC00)) :: text)

theorem Spells.self {text : List Char}
    (h : ∀ c ∈ text, c ≠ '"' ∧ c ≠ '\\' ∧ 0x20 ≤ c.toNat) : Spells text text := by
  induction text with
  | nil => exact .nil
  | cons c text ih =>
      obtain ⟨⟨hQuote, hBackslash, hControl⟩, hText⟩ := List.forall_mem_cons.1 h
      exact .plain hQuote hBackslash hControl (ih hText)

theorem length_le_byteLength (text : List Char) : text.length ≤ byteLength text := by
  induction text using List.reverseRecOn with
  | nil => exact Nat.le_refl 0
  | append_singleton text c ih =>
      have hSize : byteLength (text ++ [c]) = byteLength text + c.utf8Size := by
        simp [byteLength]
      have hPos := c.utf8Size_pos
      rw [List.length_append, hSize]
      exact Nat.add_le_add ih hPos

theorem isTrailing_of_isLeading {unit : Nat} (h : isLeading unit = true) :
    isTrailing unit = false := by
  simp only [isLeading, isTrailing, Bool.and_eq_true, Bool.and_eq_false_iff, decide_eq_true_eq,
    decide_eq_false_iff_not] at *
  omega

theorem readHex4_cons {a b c d : Char} {value : Nat} (h : hexValue4? a b c d = some value)
    (rest : List Char) : readHex4 (a :: b :: c :: d :: rest) = .ok (value, rest) := by
  have hBytes : ¬ byteLength (a :: b :: c :: d :: rest) < 4 := by
    have hLength := length_le_byteLength (a :: b :: c :: d :: rest)
    simp only [List.length_cons] at hLength
    omega
  simp only [readHex4, if_neg hBytes, h]

theorem readString_escaped {text after tail left : List Char} {c : Char}
    (hEscaped : readEscaped text = .ok (c, after)) (hAfter : readString after = .ok (tail, left)) :
    readString ('\\' :: text) = .ok (c :: tail, left) := by
  rw [readString, if_neg (by decide), if_pos rfl]
  split
  · rename_i hError
    cases hError.symm.trans hEscaped
  · rename_i hOk
    cases hOk.symm.trans hEscaped
    rw [hAfter]
    rfl

theorem readString_append {written text : List Char} (h : Spells written text)
    (rest : List Char) : readString (written ++ '"' :: rest) = .ok (text, rest) := by
  induction h with
  | nil => simp [readString]
  | plain noQuote noBackslash noControl _ ih =>
      rw [List.cons_append, readString, if_neg noQuote, if_neg noBackslash,
        if_neg (by omega), ih]
      rfl
  | @short e c written text escape _ ih =>
      refine readString_escaped ?_ ih
      unfold readEscaped
      split
      · rename_i hNil
        cases hNil
      · rename_i hUnit
        cases hUnit
        cases escape
      · rename_i hCons
        cases hCons
        rw [escape]
        rfl
  | unit digits noLeading noTrailing _ ih =>
      refine readString_escaped ?_ ih
      simp [readEscaped, readHex4_cons digits, noLeading, noTrailing]
  | pair first isLeading second isTrailing _ ih =>
      refine readString_escaped ?_ ih
      have hNoTrailing := isTrailing_of_isLeading isLeading
      simp [readEscaped, readTrailing, readHex4_cons first, readHex4_cons second, isLeading,
        isTrailing, hNoTrailing]

/-! ## Numbers -/

/-- What the reader of a number takes for a part of it. -/
def continuesNumber (c : Char) : Bool :=
  c.isDigit || c = '.' || c = 'e' || c = 'E'

theorem endsRun_isDigit {rest : List Char} (h : EndsRun continuesNumber rest) :
    EndsRun Char.isDigit rest := by
  intro c hHead
  have hc := h c hHead
  simp only [continuesNumber, Bool.or_eq_false_iff] at hc
  exact hc.1.1.1

theorem le_ofDigitChars (digits : List Char) (value : Nat) :
    value ≤ Nat.ofDigitChars 10 digits value := by
  induction digits generalizing value with
  | nil => exact Nat.le_refl value
  | cons c digits ih =>
      rw [Nat.ofDigitChars_cons]
      have hLonger := ih (10 * value + (c.toNat - '0'.toNat))
      omega

theorem takeDigits_of_le {digits : List Char} {value : Nat}
    (h : Nat.ofDigitChars 10 digits value ≤ maxWhole) :
    takeDigits value digits = (Nat.ofDigitChars 10 digits value, []) := by
  induction digits generalizing value with
  | nil => rfl
  | cons c digits ih =>
      rw [Nat.ofDigitChars_cons, Nat.mul_comm] at h ⊢
      have hLonger := (le_ofDigitChars digits _).trans h
      rw [takeDigits, if_pos hLonger, ih h]

theorem fst_takeDigits {digits : List Char} {value : Nat}
    (h : (takeDigits value digits).2 = []) :
    (takeDigits value digits).1 = Nat.ofDigitChars 10 digits value := by
  fun_induction takeDigits value digits with
  | case1 value => rfl
  | case2 value c digits longer hFits ih =>
      rw [ih h, Nat.ofDigitChars_cons, Nat.mul_comm]
  | case3 value c digits longer hLarge => cases h

theorem readAfterWhole_of_endsRun {rest : List Char} (h : EndsRun continuesNumber rest)
    (value : Nat) : readAfterWhole false value 0 rest = .ok (.integer value, rest) := by
  unfold readAfterWhole
  split
  · cases h '.' rfl
  · cases h 'e' rfl
  · cases h 'E' rfl
  · rfl

theorem any_head?_eq_false_iff {p : Char → Bool} {rest : List Char} :
    rest.head?.any p = false ↔ EndsRun p rest := by
  cases rest with
  | nil => simp [endsRun_nil]
  | cons c rest => simp [EndsRun]

theorem takeWhile_dropWhile_of_endsRun {p : Char → Bool} {run rest : List Char}
    (hRun : ∀ c ∈ run, p c = true) (hEnds : EndsRun p rest) :
    (run ++ rest).takeWhile p = run ∧ (run ++ rest).dropWhile p = rest :=
  append_inj_of_endsRun List.takeWhile_append_dropWhile
    (List.all_eq_true.1 List.all_takeWhile) hRun (endsRun_dropWhile p _) hEnds

theorem toDigits_ne_zero_cons {n : Nat} (hPos : 0 < n) (rest : List Char) :
    Nat.toDigits 10 n ≠ '0' :: rest := by
  induction n using Nat.strongRecOn generalizing rest with
  | ind n ih =>
      intro hDigits
      by_cases hSmall : n < 10
      · rw [Nat.toDigits_of_lt_base hSmall] at hDigits
        have hNot : ∀ m < 10, 0 < m → m.digitChar ≠ '0' := by decide
        exact hNot n hSmall hPos (List.cons.inj hDigits).1
      · rw [Nat.toDigits_of_base_le (by decide) (by omega)] at hDigits
        obtain ⟨c, more, hMore⟩ := List.exists_cons_of_ne_nil
          (Nat.toDigits_ne_nil (n := n / 10) (b := 10))
        rw [hMore, List.cons_append] at hDigits
        obtain ⟨rfl, -⟩ := List.cons.inj hDigits
        exact ih (n / 10) (by omega) (by omega) more hMore

theorem readUnsigned_digits {c : Char} {digits rest : List Char} (hZero : c ≠ '0')
    (hc : c.isDigit = true) (hDigits : ∀ d ∈ digits, d.isDigit = true)
    (hMost : Nat.ofDigitChars 10 (c :: digits) 0 ≤ maxWhole)
    (hEnds : EndsRun continuesNumber rest) :
    readUnsigned false (c :: digits ++ rest) =
      .ok (.integer (Nat.ofDigitChars 10 (c :: digits) 0 : Nat), rest) := by
  obtain ⟨hTake, hDrop⟩ := takeWhile_dropWhile_of_endsRun (p := Char.isDigit)
    (List.forall_mem_cons.2 ⟨hc, hDigits⟩) (endsRun_isDigit hEnds)
  rw [readUnsigned.eq_def]
  split
  · rename_i hNil
    cases hNil
  · rename_i hCons
    cases hZero (List.cons.inj hCons).1
  · rename_i hCons
    rw [← (List.cons.inj hCons).1, if_pos hc, hTake, hDrop, takeDigits_of_le hMost]
    exact readAfterWhole_of_endsRun hEnds _

theorem readNumber_toString {n : Nat} (hMost : n ≤ maxWhole) {rest : List Char}
    (hEnds : EndsRun continuesNumber rest) :
    readNumber ((toString n).toList ++ rest) = .ok (.integer n, rest) := by
  have hAll : ∀ d ∈ (toString n).toList, d.isDigit = true := fun _ => isDigit_of_mem_toString
  rw [toList_toString] at hAll ⊢
  obtain ⟨c, digits, hDigits⟩ := List.exists_cons_of_ne_nil (Nat.toDigits_ne_nil (n := n) (b := 10))
  have hUnsigned : readUnsigned false (Nat.toDigits 10 n ++ rest) = .ok (.integer n, rest) := by
    rcases Nat.eq_zero_or_pos n with rfl | hPos
    · have hNoDigit := any_head?_eq_false_iff.2 (endsRun_isDigit hEnds)
      simp [readUnsigned, hNoDigit, readAfterWhole_of_endsRun hEnds]
    · have hNotZero : c ≠ '0' := by
        rintro rfl
        exact toDigits_ne_zero_cons hPos digits hDigits
      have hValue : Nat.ofDigitChars 10 (c :: digits) 0 = n := by
        rw [← hDigits, Nat.ofDigitChars_ten_toDigits]
      rw [hDigits] at hAll ⊢
      have hRead := readUnsigned_digits hNotZero (hAll c List.mem_cons_self)
        (fun d hd => hAll d (List.mem_cons_of_mem c hd)) (hValue ▸ hMost) hEnds
      rwa [hValue] at hRead
  have hNoSign : c ≠ '-' := by
    rintro rfl
    rw [hDigits] at hAll
    cases hAll '-' List.mem_cons_self
  rw [hDigits] at hUnsigned ⊢
  rw [readNumber.eq_def]
  split
  · rename_i hCons
    cases hNoSign (List.cons.inj hCons).1
  · exact hUnsigned

def NoInteger (result : Result Number) : Prop :=
  ∀ value rest, result ≠ .ok (.integer value, rest)

section

variable {negative : Bool} {significand : Nat} {exponent : Int} {text : List Char}

theorem noInteger_error {failure : Failure} : NoInteger (.error failure) := by
  intro value rest h
  cases h

theorem noInteger_signed : NoInteger (signed negative significand exponent text) := by
  intro value rest h
  unfold signed at h
  split at h <;> cases h

theorem noInteger_readExponentValue {below : Bool} :
    NoInteger (readExponentValue negative significand exponent below text) := by
  unfold readExponentValue
  split
  · exact noInteger_error
  · split
    · split
      · exact noInteger_signed
      · split
        · exact noInteger_error
        · exact noInteger_signed
    · exact noInteger_error

theorem noInteger_readExponent : NoInteger (readExponent negative significand exponent text) := by
  unfold readExponent
  split <;> exact noInteger_readExponentValue

theorem noInteger_readFraction : NoInteger (readFraction negative significand exponent text) := by
  unfold readFraction
  dsimp only
  split
  · exact noInteger_error
  · unfold readScale
    split
    · exact noInteger_readExponent
    · exact noInteger_readExponent
    · exact noInteger_signed

end

theorem of_readAfterWhole {negative : Bool} {n dropped : Nat} {text rest : List Char} {value : Int}
    (hDigit : EndsRun Char.isDigit text)
    (h : readAfterWhole negative n dropped text = .ok (.integer value, rest)) :
    rest = text ∧ dropped = 0 ∧ EndsRun continuesNumber text ∧
      (value < 0 ∨ negative = false ∧ value = n) := by
  unfold readAfterWhole at h
  split at h
  · cases noInteger_readFraction _ _ h
  · cases noInteger_readExponent _ _ h
  · cases noInteger_readExponent _ _ h
  · rename_i hPoint hSmall hLarge
    have hEnds : EndsRun continuesNumber text := by
      intro c hHead
      obtain ⟨more, rfl⟩ := List.head?_eq_some_iff.1 hHead
      have hNoPoint : c ≠ '.' := fun hc => hPoint more (hc ▸ rfl)
      have hNoSmall : c ≠ 'e' := fun hc => hSmall more (hc ▸ rfl)
      have hNoLarge : c ≠ 'E' := fun hc => hLarge more (hc ▸ rfl)
      simp [continuesNumber, hDigit c hHead, hNoPoint, hNoSmall, hNoLarge]
    split at h
    · rename_i hDropped
      unfold whole at h
      split at h
      · rename_i hPlain
        cases h
        exact ⟨rfl, hDropped, hEnds, .inr ⟨by simpa using hPlain, rfl⟩⟩
      · split at h
        · cases noInteger_signed _ _ h
        · rename_i hNotZero
          cases h
          simp only [Bool.or_eq_true, decide_eq_true_eq, not_or] at hNotZero
          exact ⟨rfl, hDropped, hEnds, .inl (by omega)⟩
    · cases noInteger_signed _ _ h

/-- Without a sign, a whole number is the value of the digits before what is left. -/
theorem of_readUnsigned {negative : Bool} {text rest : List Char} {value : Int}
    (h : readUnsigned negative text = .ok (.integer value, rest)) :
    ∃ digits, text = digits ++ rest ∧ digits ≠ [] ∧ (∀ c ∈ digits, c.isDigit = true) ∧
      EndsRun continuesNumber rest ∧
      (value < 0 ∨ negative = false ∧ value = Nat.ofDigitChars 10 digits 0) := by
  unfold readUnsigned at h
  split at h
  · cases h
  · rename_i more
    split at h
    · cases h
    · rename_i hNoDigit
      obtain ⟨rfl, -, hEnds, hValue⟩ := of_readAfterWhole
        (any_head?_eq_false_iff.1 (Bool.eq_false_iff.2 hNoDigit)) h
      exact ⟨['0'], rfl, by simp, by simp, hEnds, hValue⟩
  · rename_i c more _
    split at h
    · rename_i hc
      obtain ⟨rfl, hDropped, hEnds, hValue⟩ := of_readAfterWhole (endsRun_dropWhile _ _) h
      rw [fst_takeDigits (List.length_eq_zero_iff.1 hDropped)] at hValue
      refine ⟨(c :: more).takeWhile Char.isDigit, List.takeWhile_append_dropWhile.symm, ?_,
        List.all_eq_true.1 List.all_takeWhile, hEnds, hValue⟩
      simp [hc]
    · cases h

theorem of_readBounded {expected : String} {most n : Nat} {text rest : List Char}
    (h : readBounded expected most text = .ok (n, rest)) :
    ∃ digits, skipBlanks text = digits ++ rest ∧ digits ≠ [] ∧
      (∀ c ∈ digits, c.isDigit = true) ∧ EndsRun continuesNumber rest ∧
      n = Nat.ofDigitChars 10 digits 0 ∧ n ≤ most := by
  unfold readBounded at h
  dsimp only at h
  split at h
  · split at h
    · cases h
    · cases h
    · rename_i value left hRead
      split at h
      · rename_i hFits
        cases h
        simp only [Bool.and_eq_true, decide_eq_true_eq] at hFits
        unfold readNumber at hRead
        split at hRead
        · obtain ⟨_, -, -, -, -, hNegative | ⟨hSign, -⟩⟩ := of_readUnsigned hRead
          · omega
          · cases hSign
        · obtain ⟨digits, hText, hNotNil, hDigits, hEnds, hValue⟩ := of_readUnsigned hRead
          exact ⟨digits, hText, hNotNil, hDigits, hEnds, by omega, by omega⟩
      · cases h
  · cases h

theorem skipBlanks_cons {c : Char} (hc : c = '-' ∨ c.isDigit = true) (rest : List Char) :
    skipBlanks (c :: rest) = c :: rest := by
  refine List.dropWhile_cons_of_neg ?_
  rcases hc with rfl | hc
  · decide
  · simp only [Bool.or_eq_true, decide_eq_true_eq]
    rintro (((rfl | rfl) | rfl) | rfl) <;> cases hc

theorem toString_eq_cons (n : Nat) :
    ∃ c digits, (toString n).toList = c :: digits ∧ c.isDigit = true := by
  obtain ⟨c, digits, hDigits⟩ := List.exists_cons_of_ne_nil (Nat.toDigits_ne_nil (n := n) (b := 10))
  rw [← toList_toString] at hDigits
  exact ⟨c, digits, hDigits, isDigit_of_mem_toString (hDigits ▸ List.mem_cons_self)⟩

theorem readBounded_toString {expected : String} {most n : Nat} (hMost : n ≤ most)
    (hWhole : n ≤ maxWhole) {blanks rest : List Char} (hBlank : Blank blanks)
    (hEnds : EndsRun continuesNumber rest) :
    readBounded expected most (blanks ++ ((toString n).toList ++ rest)) = .ok (n, rest) := by
  have hRead := readNumber_toString hWhole hEnds
  obtain ⟨c, digits, hDigits, hc⟩ := toString_eq_cons n
  rw [hDigits, List.cons_append] at hRead ⊢
  rw [readBounded, skipBlanks_append hBlank, skipBlanks_cons (.inr hc)]
  simp [hc, hRead, hMost]

/-- The beginnings of texts that are no whole number from zero up to a bound. -/
inductive Unfit (most : Nat) : List Char → Prop where
  | negative {rest} : Unfit most ('-' :: rest)
  /-- A fraction or an exponent. -/
  | scaled {digits rest : List Char} {c} (notNil : digits ≠ [])
      (digit : ∀ d ∈ digits, d.isDigit = true) (mark : c = '.' ∨ c = 'e' ∨ c = 'E') :
      Unfit most (digits ++ c :: rest)
  | large {n rest} (exceeds : most < n) (ends : EndsRun Char.isDigit rest) :
      Unfit most ((toString n).toList ++ rest)

theorem Unfit.eq_cons {most : Nat} {text : List Char} (h : Unfit most text) :
    ∃ c rest, text = c :: rest ∧ (c = '-' ∨ c.isDigit = true) := by
  cases h with
  | negative => exact ⟨_, _, rfl, .inl rfl⟩
  | scaled notNil digit mark =>
      obtain ⟨c, more, rfl⟩ := List.exists_cons_of_ne_nil notNil
      exact ⟨c, _, rfl, .inr (digit c List.mem_cons_self)⟩
  | @large n =>
      obtain ⟨c, digits, hDigits, hc⟩ := toString_eq_cons n
      exact ⟨c, digits ++ _, by rw [hDigits, List.cons_append], .inr hc⟩

/-- No number is read but a whole number from zero up to the bound. -/
theorem readBounded_unfit {expected : String} {most : Nat} {blanks text : List Char}
    (hBlank : Blank blanks) (hUnfit : Unfit most text) :
    ∃ failure, readBounded expected most (blanks ++ text) = .error failure := by
  refine match hRead : readBounded expected most (blanks ++ text) with
    | .error failure => ⟨failure, rfl⟩
    | .ok (n, rest) => ?_
  exfalso
  obtain ⟨digits, hText, hNotNil, hDigits, hEnds, rfl, hMost⟩ := of_readBounded hRead
  obtain ⟨c, more, hCons, hc⟩ := hUnfit.eq_cons
  have hEndsDigits := endsRun_isDigit hEnds
  rw [skipBlanks_append hBlank, hCons, skipBlanks_cons hc, ← hCons] at hText
  cases hUnfit with
  | negative =>
      obtain ⟨d, digits, rfl⟩ := List.exists_cons_of_ne_nil hNotNil
      obtain ⟨rfl, -⟩ := List.cons.inj hText
      cases hDigits '-' List.mem_cons_self
  | @scaled _ after d _ digit mark =>
      have hMark : EndsRun Char.isDigit (d :: after) := by
        rintro _ ⟨⟩
        rcases mark with rfl | rfl | rfl <;> rfl
      obtain ⟨-, rfl⟩ := append_inj_of_endsRun hText digit hDigits hMark hEndsDigits
      have hContinues : continuesNumber d = true := by
        rcases mark with rfl | rfl | rfl <;> rfl
      cases hContinues.symm.trans (hEnds d rfl)
  | @large m _ exceeds ends =>
      obtain ⟨rfl, -⟩ := append_inj_of_endsRun hText (fun _ => isDigit_of_mem_toString) hDigits
        ends hEndsDigits
      rw [toList_toString, Nat.ofDigitChars_ten_toDigits] at hMost
      omega

end CodeListing.Json
