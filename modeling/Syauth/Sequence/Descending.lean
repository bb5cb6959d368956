import Mathlib.Data.List.Basic
import Mathlib.Order.Lattice

/-! # Lists in descending order

Sorting by a key, the largest first.  The sort is stable: items of one key stay in the order in
which they were.
-/

namespace Sequence

universe u v

variable {α : Type u} {κ : Type v} [LinearOrder κ]

def sortedByDescending (key : α → κ) (items : List α) : List α :=
  items.mergeSort fun a b => decide (key b ≤ key a)

/-- The items in descending order, and in their own order where keys are equal. -/
structure Descending (key : α → κ) (items sorted : List α) : Prop where
  perm : sorted.Perm items
  ordered : sorted.Pairwise fun a b => key b ≤ key a
  ties : ∀ k, (sorted.filter fun item => key item = k) = items.filter fun item => key item = k

theorem descending_sortedByDescending (key : α → κ) (items : List α) :
    Descending key items (sortedByDescending key items) := by
  have htrans : ∀ a b c : α, decide (key b ≤ key a) = true → decide (key c ≤ key b) = true →
      decide (key c ≤ key a) = true := by
    intro a b c hab hbc
    exact decide_eq_true (le_trans (of_decide_eq_true hbc) (of_decide_eq_true hab))
  have htotal : ∀ a b : α, (decide (key b ≤ key a) || decide (key a ≤ key b)) = true := by
    intro a b
    rw [Bool.or_eq_true, decide_eq_true_eq, decide_eq_true_eq]
    exact le_total (key b) (key a)
  refine ⟨List.mergeSort_perm items _, ?_, ?_⟩
  · refine (List.pairwise_mergeSort htrans htotal items).imp ?_
    intro a b hab
    exact of_decide_eq_true hab
  · intro k
    -- The items of one key are a sorted sublist, which a stable sort keeps.
    have hsame : (items.filter fun item => key item = k).Pairwise
        fun a b => decide (key b ≤ key a) = true := by
      rw [List.pairwise_filter]
      apply List.pairwise_of_forall
      intro a b ha hb
      rw [of_decide_eq_true ha, of_decide_eq_true hb]
      exact decide_eq_true le_rfl
    have hsub := (List.sublist_mergeSort htrans htotal hsame List.filter_sublist).filter
      fun item => key item = k
    rw [List.filter_filter] at hsub
    simp only [Bool.and_self] at hsub
    refine (hsub.eq_of_length ?_).symm
    exact ((List.mergeSort_perm items _).filter _).length_eq.symm

end Sequence
