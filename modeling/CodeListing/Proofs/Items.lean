import Mathlib.Data.List.Forall2
import CodeListing.Listing

/-! # The items of a listing

Paddings and tokens are found independently of each other, each by a walk over
the lines. Together the two walks give every line its item, and a line is
without a padding exactly if it has no text.
-/

namespace CodeListing

open Text

theorem Text.SourceLine.ends?_eq_none_iff {line : SourceLine} :
    line.ends? = none ↔ line.text = [] := by
  unfold ends?
  split
  · rename_i hText
    simp [hText]
  · rename_i hText
    simp [hText]

namespace Listing

/-- The items of lines when the lines before them left `level`. -/
def itemsFrom (settings : Settings) (level : Nat) (lines : List SourceLine)
    (readings : List LineReading) : List (List Char) :=
  List.zipWith
    (fun padding reading =>
      Markup.item (padding.map (·, Markup.ofTokens settings.classPrefix.toList reading.tokens)))
    (Indentation.paddings settings.indentUnit level (lines.map SourceLine.ends?)) readings

/-- What relates every line to its own item relates the lines to their items. -/
theorem forall₂_items (settings : Settings) {related : List Char → List Char → Prop}
    (h : ∀ (raw : List Char) (start : Nat) (openComment padding : Option Nat),
      (padding = none ↔ (SourceLine.ofRaw raw start).text = []) →
      related raw (Markup.item (padding.map (·, Markup.ofTokens settings.classPrefix.toList
        (LineReading.ofLine settings openComment (.ofRaw raw start)).tokens))))
    (raws : List (List Char)) (level start : Nat) (openComment : Option Nat) :
    List.Forall₂ related raws
      (itemsFrom settings level (SourceLine.layOut start raws)
        (LineReading.ofLines settings openComment (SourceLine.layOut start raws))) := by
  induction raws generalizing level start openComment with
  | nil => exact .nil
  | cons raw raws ih =>
      rw [itemsFrom, SourceLine.layOut, LineReading.ofLines, List.map_cons]
      cases hEnds : (SourceLine.ofRaw raw start).ends? with
      | none =>
          exact .cons (h raw start openComment none
            ⟨fun _ => SourceLine.ends?_eq_none_iff.1 hEnds, fun _ => rfl⟩) (ih ..)
      | some ends =>
          refine .cons (h raw start openComment (some _) ⟨?_, ?_⟩) (ih ..)
          · intro hPadding
            cases hPadding
          · intro hText
            rw [SourceLine.ends?_eq_none_iff.2 hText] at hEnds
            cases hEnds

end Listing

end CodeListing
