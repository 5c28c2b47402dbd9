import Mathlib.Data.List.Basic
import SelectorCheck.Text.Basic

/-!
# Stretches of a text

What is found in a text is a row of stretches, and what lies between them is
meant to be of no account. A row is laid out from the front: some characters of
no account, a stretch, and the rest of the row in the text behind it. That the
stretches do not overlap, and that nothing of account is left out, is read off.

## Main definitions

* `Text.Stretches` — a row of stretches in a text.

## Main results

* `Text.Stretches.ordered` — no stretch reaches into one behind it.
* `Text.Stretches.outside` — what stands in no stretch is of no account.
-/

namespace SelectorCheck.Text

/-- The stretches are laid out in the text `ahead`, which begins at `offset`. A stretch is given by
its place and the place behind it, and the characters in no stretch have the property `p`. -/
inductive Stretches (p : Char → Bool) :
    (offset : Nat) → (ahead : Text) → List (Nat × Nat) → Prop where
  | done {offset : Nat} {gap : Text} (hgap : ∀ c ∈ gap, p c = true) : Stretches p offset gap []
  | cons {offset : Nat} {gap text after : Text} {row : List (Nat × Nat)}
      (hgap : ∀ c ∈ gap, p c = true)
      (hrest : Stretches p (offset + gap.length + text.length) after row) :
      Stretches p offset (gap ++ (text ++ after))
        ((offset + gap.length, offset + gap.length + text.length) :: row)

namespace Stretches

variable {p : Char → Bool} {offset : Nat} {ahead : Text} {row : List (Nat × Nat)}

/-- No stretch begins in front of the text. -/
theorem le_start (h : Stretches p offset ahead row) : ∀ s ∈ row, offset ≤ s.1 := by
  induction h with
  | done _ => simp
  | cons _ _ ih =>
    intro s hs
    rcases List.mem_cons.mp hs with rfl | hrest
    · exact Nat.le_add_right _ _
    · have hle := ih s hrest
      omega

theorem ordered (h : Stretches p offset ahead row) : row.Pairwise fun a b => a.2 ≤ b.1 := by
  induction h with
  | done _ => exact .nil
  | cons _ hrest ih => exact .cons (fun b hb => hrest.le_start b hb) ih

/-- What stands in no stretch is of no account. -/
theorem outside (h : Stretches p offset ahead row) {i : Nat} {c : Char} (hc : ahead[i]? = some c)
    (houtside : ∀ s ∈ row, offset + i < s.1 ∨ s.2 ≤ offset + i) : p c = true := by
  induction h generalizing i with
  | done hgap => exact hgap c (List.mem_of_getElem? hc)
  | @cons offset gap text after row hgap _ ih =>
    obtain ⟨hfirst, hothers⟩ := List.forall_mem_cons.mp houtside
    dsimp only at hfirst
    rcases hfirst with hbefore | hbehind
    · rw [List.getElem?_append_left (by omega)] at hc
      exact hgap c (List.mem_of_getElem? hc)
    · obtain ⟨j, rfl⟩ : ∃ j, i = gap.length + (text.length + j) :=
        ⟨i - (gap.length + text.length), by omega⟩
      rw [List.getElem?_append_right (Nat.le_add_right _ _), Nat.add_sub_cancel_left,
        List.getElem?_append_right (Nat.le_add_right _ _), Nat.add_sub_cancel_left] at hc
      have hplace : offset + (gap.length + (text.length + j)) =
          offset + gap.length + text.length + j := by omega
      rw [hplace] at hothers
      exact ih hc hothers

end Stretches

end SelectorCheck.Text
