import CodeListing.Proofs.Line
import CodeListing.Proofs.Marks
import CodeListing.Proofs.Step

/-! # How deep spans are nested

Only a dotted name puts spans into a span, and each of its members is read with
one level less to go. So at every place of a line as many spans are open as
there are members around, and the settings bound that number.
-/

namespace CodeListing

def Mark.change : Mark → Int
  | .openSpan _ => 1
  | .closeSpan => -1
  | _ => 0

/-- How many more spans the marks open than they close. -/
def openSpans : List Mark → Int
  | [] => 0
  | mark :: marks => mark.change + openSpans marks

@[simp] theorem openSpans_nil : openSpans [] = 0 := rfl

@[simp] theorem openSpans_cons (mark : Mark) (marks : List Mark) :
    openSpans (mark :: marks) = mark.change + openSpans marks := rfl

@[simp] theorem openSpans_append (a b : List Mark) :
    openSpans (a ++ b) = openSpans a + openSpans b := by
  induction a with
  | nil => simp
  | cons mark a ih => rw [List.cons_append, openSpans_cons, ih, openSpans_cons, Int.add_assoc]

/-- Every span that the marks open they close as well, none before it is opened, and no
more than `limit` are open at once. -/
structure Nested (limit : Nat) (marks : List Mark) : Prop where
  inside : ∀ left, left <+: marks → 0 ≤ openSpans left ∧ openSpans left ≤ limit
  settled : openSpans marks = 0

theorem prefix_append_cases {α : Type} {p a b : List α} (h : p <+: a ++ b) :
    p <+: a ∨ ∃ q, q <+: b ∧ p = a ++ q := by
  rcases List.prefix_or_prefix_of_prefix h (List.prefix_append a b) with hp | ⟨q, rfl⟩
  · exact .inl hp
  · exact .inr ⟨q, (List.prefix_append_right_inj a).1 h, rfl⟩

namespace Nested

theorem nil (limit : Nat) : Nested limit [] where
  inside left h := by
    rw [List.prefix_nil.1 h]
    simp
  settled := rfl

theorem append {limit : Nat} {a b : List Mark} (ha : Nested limit a) (hb : Nested limit b) :
    Nested limit (a ++ b) where
  inside left h := by
    rcases prefix_append_cases h with hLeft | ⟨more, hMore, rfl⟩
    · exact ha.inside left hLeft
    · rw [openSpans_append, ha.settled, Int.zero_add]
      exact hb.inside more hMore
  settled := by rw [openSpans_append, ha.settled, hb.settled, Int.zero_add]

theorem mono {limit more : Nat} {marks : List Mark} (h : Nested limit marks)
    (hLimit : limit ≤ more) : Nested more marks where
  inside left hLeft := by
    have := h.inside left hLeft
    omega
  settled := h.settled

theorem cons {limit : Nat} {mark : Mark} {marks : List Mark} (hMark : mark.change = 0)
    (h : Nested limit marks) : Nested limit (mark :: marks) where
  inside left hLeft := by
    rcases List.prefix_cons_iff.1 hLeft with rfl | ⟨more, rfl, hMore⟩
    · simp
    · rw [openSpans_cons, hMark, Int.zero_add]
      exact h.inside more hMore
  settled := by rw [openSpans_cons, hMark, h.settled, Int.zero_add]

theorem characters (limit : Nat) (text : List Char) : Nested limit (text.map .character) := by
  induction text with
  | nil => exact nil limit
  | cons c text ih => exact cons rfl ih

theorem span {limit : Nat} {inner : List Mark} (tokenClass : TokenClass)
    (h : Nested limit inner) : Nested (limit + 1) (spanMarks tokenClass inner) where
  inside left hLeft := by
    rcases List.prefix_cons_iff.1 hLeft with rfl | ⟨more, rfl, hMore⟩
    · rw [openSpans_nil]
      omega
    rw [openSpans_cons, Mark.change]
    rcases prefix_append_cases hMore with hInner | ⟨last, hLast, rfl⟩
    · have := h.inside more hInner
      omega
    rw [openSpans_append, h.settled]
    rcases List.prefix_cons_iff.1 hLast with rfl | ⟨none, rfl, hNone⟩
    · rw [openSpans_nil]
      omega
    · rw [List.prefix_nil.1 hNone]
      simp [Mark.change]
      omega
  settled := by
    rw [spanMarks, openSpans_cons, openSpans_append, h.settled]
    rfl

theorem flatten {limit : Nat} {groups : List (List Mark)}
    (h : ∀ group ∈ groups, Nested limit group) : Nested limit groups.flatten := by
  induction groups with
  | nil => exact nil limit
  | cons group groups ih =>
      rw [List.flatten_cons]
      exact (h group List.mem_cons_self).append
        (ih fun g hg => h g (List.mem_cons_of_mem _ hg))

theorem marks (token : Token) : Nested token.depth token.marks := by
  induction token with
  | leaf tokenClass text => exact (characters 0 text).span tokenClass
  | dotted tokenClass name member ih =>
      have hDepth : 1 ≤ member.depth := by cases member <;> simp [Token.depth]
      have hPeriod : Nested 1 (spanMarks .period [.character '.']) := (characters 0 ['.']).span _
      exact (((characters _ name).append (hPeriod.mono hDepth)).append ih).span tokenClass

end Nested

theorem depth_readName (depth : Nat) (owner : Option Word) (c : Char) (rest : List Char) :
    (readName depth owner c rest).1.depth ≤ depth + 1 := by
  induction depth generalizing owner c rest with
  | zero => simp [readName, Token.depth]
  | succ depth ih =>
      unfold readName
      simp only
      split
      · rename_i hDepth _
        cases hDepth
        split
        · exact Nat.succ_le_succ (ih ..)
        · exact Nat.succ_le_succ (Nat.zero_le _)
      · exact Nat.succ_le_succ (Nat.zero_le _)

theorem Step.Reads.depth_le {settings : Settings} {before : Option Char} {text : List Char}
    {step : Step} (h : Reads settings before text step) :
    step.token.depth ≤ settings.maxMemberDepth + 1 := by
  cases h with
  | name => exact depth_readName ..
  | _ => exact Nat.succ_le_succ (Nat.zero_le _)

namespace LineReading

variable {settings : Settings}

theorem depth_le_of_mem_ofText {offset : Nat} {before : Option Char} {text : List Char}
    {token : Token} (h : token ∈ (ofText settings offset before text).tokens) :
    token.depth ≤ settings.maxMemberDepth + 1 := by
  induction offset, before, text using ofText.induct settings with
  | case1 => simp [ofText] at h
  | case2 offset before c rest step ih =>
      rw [ofText_cons, tokens_prepend] at h
      rcases List.mem_cons.1 h with rfl | h
      · exact (Step.reads_read settings before c rest).depth_le
      · exact ih h

theorem depth_le_of_mem_ofLine {openComment : Option Nat} {line : Text.SourceLine}
    {token : Token} (h : token ∈ (ofLine settings openComment line).tokens) :
    token.depth ≤ settings.maxMemberDepth + 1 := by
  unfold ofLine at h
  split at h
  · cases h
  · split at h
    · exact depth_le_of_mem_ofText h
    · split at h
      · rw [List.mem_singleton.1 h]
        exact Nat.succ_le_succ (Nat.zero_le _)
      · rw [tokens_prepend] at h
        rcases List.mem_cons.1 h with rfl | h
        · exact Nat.succ_le_succ (Nat.zero_le _)
        · exact depth_le_of_mem_ofText h

end LineReading

theorem Nested.flatMap_marks {limit : Nat} {tokens : List Token}
    (h : ∀ token ∈ tokens, token.depth ≤ limit) : Nested limit (tokens.flatMap Token.marks) := by
  rw [List.flatMap_def]
  apply flatten
  intro group hGroup
  obtain ⟨token, hToken, rfl⟩ := List.mem_map.1 hGroup
  exact (marks token).mono (h token hToken)

/-- The spans of an item are nested no deeper than its tokens. -/
theorem Nested.itemMarks {limit : Nat} {tokens : List Token}
    (h : ∀ token ∈ tokens, token.depth ≤ limit) (padding : Option Nat) :
    Nested limit (itemMarks padding tokens) := by
  cases padding with
  | none => exact cons rfl (cons rfl (nil limit))
  | some padding => exact cons rfl ((flatMap_marks h).append (cons rfl (nil limit)))

end CodeListing
