import Mathlib.Data.List.DropRight
import Mathlib.Data.List.Basic

/-! # The most recent entries of a log

A log that grows at its end, and the bounded queue that keeps its last entries by
dropping from the front.  A queue that takes in only what it does not hold keeps equal
entries of the log apart.
-/

namespace Sequence

universe u

variable {α : Type u} {n : Nat} {log front back : List α} {x : α}

theorem length_rtake (n : Nat) (log : List α) : (log.rtake n).length = min n log.length := by
  rw [List.rtake, List.length_drop]
  omega

theorem rtake_of_length_le (hlen : log.length ≤ n) : log.rtake n = log := by
  rw [List.rtake, Nat.sub_eq_zero_of_le hlen, List.drop_zero]

theorem rtake_suffix (n : Nat) (log : List α) : log.rtake n <:+ log := List.drop_suffix _ _

/-- What is behind fills the window first. -/
theorem rtake_append (front back : List α) :
    (front ++ back).rtake n = front.rtake (n - back.length) ++ back.rtake n := by
  have hback : front.length + back.length - n - front.length = back.length - n := by omega
  rw [List.rtake, List.rtake, List.rtake, List.drop_append, List.length_append, hback]
  congr 1
  by_cases hlen : back.length ≤ n
  · congr 1
    omega
  · rw [List.drop_eq_nil_of_le (by omega), List.drop_eq_nil_of_le (by omega)]

/-- The window moves on with the log and does not need what has left it. -/
theorem rtake_rtake_append (log back : List α) :
    (log.rtake n ++ back).rtake n = (log ++ back).rtake n := by
  rw [rtake_append, rtake_append log back]
  congr 1
  simp only [List.rtake, List.drop_drop, List.length_drop]
  congr 1
  omega

/-- An entry is in the window while fewer than `n` have come after it. -/
theorem mem_rtake_iff :
    x ∈ log.rtake n ↔ ∃ front back, log = front ++ x :: back ∧ back.length < n := by
  constructor
  · intro hmem
    obtain ⟨older, newer, hwindow⟩ := List.append_of_mem hmem
    refine ⟨log.take (log.length - n) ++ older, newer, ?_, ?_⟩
    · rw [List.append_assoc, ← hwindow, List.rtake, List.take_append_drop]
    · have hlen := congrArg List.length hwindow
      rw [length_rtake, List.length_append, List.length_cons] at hlen
      omega
  · rintro ⟨front, back, rfl, hlen⟩
    have hkept : (x :: back).rtake n = x :: back := rtake_of_length_le hlen
    rw [rtake_append, hkept]
    exact List.mem_append_right _ List.mem_cons_self

/-- Take from the front until at most `n` are left. -/
def popExcess (n : Nat) : List α → List α
  | [] => []
  | x :: rest => if (x :: rest).length > n then popExcess n rest else x :: rest

theorem popExcess_eq_rtake (n : Nat) (queue : List α) : popExcess n queue = queue.rtake n := by
  induction queue with
  | nil => rw [popExcess, List.rtake_nil]
  | cons x rest ih =>
      rw [popExcess]
      split
      · next hlong =>
          have hlen : n ≤ rest.length := Nat.le_of_lt_succ hlong
          have hfront : [x].rtake (n - rest.length) = [] := by
            rw [Nat.sub_eq_zero_of_le hlen, List.rtake_zero]
          rw [ih, ← List.singleton_append, rtake_append, hfront, List.nil_append]
      · next hshort =>
          rw [rtake_of_length_le]
          simpa using hshort

/-! ## Entries that are kept apart -/

/-- Between two equal entries of the log there are `n` others at least. -/
def Spaced (n : Nat) (log : List α) : Prop :=
  ∀ front x between y back, log = front ++ x :: (between ++ y :: back) →
    between.length < n → x ≠ y

theorem spaced_nil (n : Nat) : Spaced n ([] : List α) := by
  intro front x between y back hlog
  simp at hlog

/-- A log stays spaced when it takes in what is not in the window. -/
theorem Spaced.concat (hspaced : Spaced n log) (hnew : x ∉ log.rtake n) :
    Spaced n (log ++ [x]) := by
  intro front y between z back hlog hlen
  rcases List.eq_nil_or_concat back with rfl | ⟨init, last, rfl⟩
  · have hends : log ++ [x] = (front ++ y :: between) ++ [z] := by
      rw [hlog]
      simp
    obtain ⟨rfl, hlast⟩ := List.append_inj' hends rfl
    obtain rfl := List.singleton_inj.mp hlast
    rintro rfl
    exact hnew (mem_rtake_iff.mpr ⟨front, between, rfl, hlen⟩)
  · have hends : log ++ [x] = (front ++ y :: (between ++ z :: init)) ++ [last] := by
      rw [hlog]
      simp
    obtain ⟨rfl, -⟩ := List.append_inj' hends rfl
    exact hspaced front y between z init rfl hlen

theorem Spaced.nodup_of_append {window : List α} (hspaced : Spaced n log)
    (hlog : log = front ++ window) (hlen : window.length ≤ n) : window.Nodup := by
  induction window generalizing front with
  | nil => exact List.nodup_nil
  | cons x rest ih =>
      refine List.nodup_cons.mpr ⟨fun hmem => ?_, ?_⟩
      · obtain ⟨between, back, rfl⟩ := List.append_of_mem hmem
        refine hspaced front x between x back hlog ?_ rfl
        simp only [List.length_cons, List.length_append] at hlen
        omega
      · exact ih (hlog.trans (List.append_cons front x rest)) (Nat.le_of_succ_le hlen)

/-- No entry is in the window twice. -/
theorem Spaced.nodup_rtake (hspaced : Spaced n log) : (log.rtake n).Nodup := by
  refine hspaced.nodup_of_append (List.take_append_drop (log.length - n) log).symm ?_
  exact (length_rtake n log).trans_le (Nat.min_le_left _ _)

end Sequence
