import Mathlib.Data.List.Nodup
import Mathlib.Logic.Function.Basic

/-! # Locks that are granted in the order of the requests

A lock is the queue of the tasks that asked for it: the first one holds it, the
others wait.  A task has a list of locks, of which it holds all but possibly the
last.  It moves once it holds them all, and a move either asks for one more lock
or gives up some of them.
-/

namespace Transition.FifoLock

universe u v

variable {ι : Type u} {τ : Type v}

/-- The tasks that get the lock before a given one. -/
def before [DecidableEq τ] (queue : List τ) (t : τ) : List τ :=
  queue.takeWhile fun other => decide (other ≠ t)

/-- Both tasks are in the queue, or the first holds the lock, and the second comes later. -/
def Precedes [DecidableEq τ] (queue : List τ) (first second : τ) : Prop :=
  second ∈ queue ∧ first ∈ before queue second

section Before

variable [DecidableEq τ] {queue : List τ} {t other : τ}

@[simp]
theorem before_cons_self (rest : List τ) : before (t :: rest) t = [] := by
  simp [before]

theorem before_cons_of_ne (hne : other ≠ t) (rest : List τ) :
    before (other :: rest) t = other :: before rest t := by
  simp [before, hne]

theorem before_append_of_mem (hmem : t ∈ queue) (later : List τ) :
    before (queue ++ later) t = before queue t := by
  induction queue with
  | nil => cases hmem
  | cons first rest ih =>
      rw [List.cons_append]
      by_cases hfirst : first = t
      · rw [hfirst, before_cons_self, before_cons_self]
      · have hrest : t ∈ rest := List.mem_of_ne_of_mem (fun heq => hfirst heq.symm) hmem
        rw [before_cons_of_ne hfirst, before_cons_of_ne hfirst, ih hrest]

/-- A task that does not hold the lock has the holder before it. -/
theorem holder_mem_before (hholder : queue.head? = some other) (hne : other ≠ t) :
    other ∈ before queue t := by
  cases queue with
  | nil => cases hholder
  | cons first rest =>
      cases hholder
      rw [before_cons_of_ne hne]
      exact List.mem_cons_self

theorem holder_of_before_eq_nil (hmem : t ∈ queue) (hnil : before queue t = []) :
    queue.head? = some t := by
  cases queue with
  | nil => cases hmem
  | cons first rest =>
      by_cases hfirst : first = t
      · rw [hfirst]
        rfl
      · rw [before_cons_of_ne hfirst] at hnil
        cases hnil

theorem exists_holder_of_before_ne_nil (hne : before queue t ≠ []) :
    ∃ holder, queue.head? = some holder ∧ holder ≠ t := by
  cases queue with
  | nil => exact absurd rfl hne
  | cons first rest =>
      refine ⟨first, rfl, ?_⟩
      rintro rfl
      exact hne (before_cons_self rest)

theorem not_holder_of_mem_before (hbefore : other ∈ before queue t) : queue.head? ≠ some t := by
  intro hholder
  cases queue with
  | nil => cases hholder
  | cons first rest =>
      cases hholder
      rw [before_cons_self] at hbefore
      cases hbefore

/-- When the holder leaves, one task less is before each of the others. -/
theorem before_eq_cons_tail (hholder : queue.head? = some other) (hne : other ≠ t) :
    before queue t = other :: before queue.tail t := by
  cases queue with
  | nil => cases hholder
  | cons first rest =>
      cases hholder
      exact before_cons_of_ne hne rest

end Before

/-- The locks of a family, each with its queue. -/
abbrev Queues (ι : Type u) (τ : Type v) := ι → List τ

/-- A task goes from one list of locks to another: it leaves the queues of the locks that
are gone and joins those of the new ones. -/
def move [DecidableEq ι] (queues : Queues ι τ) (t : τ) (old new : List ι) : Queues ι τ :=
  fun l =>
    if l ∈ old then if l ∈ new then queues l else (queues l).tail
    else if l ∈ new then queues l ++ [t]
    else queues l

/-- The task holds every lock of its list. -/
def Holds (queues : Queues ι τ) (t : τ) (locks : List ι) : Prop :=
  ∀ l ∈ locks, (queues l).head? = some t

instance [DecidableEq τ] (queues : Queues ι τ) (t : τ) (locks : List ι) :
    Decidable (Holds queues t locks) :=
  inferInstanceAs (Decidable (∀ l ∈ locks, (queues l).head? = some t))

/-- The queues are those of tasks with the given locks. -/
structure Consistent (queues : Queues ι τ) (locks : τ → List ι) : Prop where
  nodup : ∀ l, (queues l).Nodup
  mem_iff : ∀ l t, t ∈ queues l ↔ l ∈ locks t
  held : ∀ t, Holds queues t (locks t).dropLast

/-- A task that got the last of its locks holds them all. -/
theorem Consistent.holds {queues : Queues ι τ} {locks : τ → List ι}
    (hcons : Consistent queues locks) {t : τ} {held : List ι} {l : ι}
    (hlocks : locks t = held ++ [l]) (hholder : (queues l).head? = some t) :
    Holds queues t (locks t) := by
  intro other hother
  rw [hlocks, List.mem_append, List.mem_singleton] at hother
  rcases hother with hheld | rfl
  · refine hcons.held t other ?_
    rw [hlocks, List.dropLast_concat]
    exact hheld
  · exact hholder

theorem Consistent.mem_locks_of_holder {queues : Queues ι τ} {locks : τ → List ι}
    (hcons : Consistent queues locks) {holder : τ} {l : ι}
    (hholder : (queues l).head? = some holder) : l ∈ locks holder :=
  (hcons.mem_iff l holder).mp (List.mem_of_mem_head? hholder)

/-- What a move may do to the locks of a task. -/
def Allowed (old new : List ι) : Prop :=
  new <+: old ∨ ∃ l, l ∉ old ∧ new = old ++ [l]

theorem Allowed.dropLast_subset {old new : List ι} (hallowed : Allowed old new) :
    new.dropLast ⊆ old := by
  rcases hallowed with hprefix | ⟨l, -, rfl⟩
  · exact fun x hx => hprefix.subset (List.dropLast_subset new hx)
  · rw [List.dropLast_concat]
    exact List.Subset.refl old

section Move

variable [DecidableEq ι] {queues : Queues ι τ} {t other : τ} {old new : List ι} {l : ι}

theorem move_kept (hold : l ∈ old) (hnew : l ∈ new) : move queues t old new l = queues l := by
  simp only [move, if_pos hold, if_pos hnew]

theorem move_released (hold : l ∈ old) (hnew : l ∉ new) :
    move queues t old new l = (queues l).tail := by
  simp only [move, if_pos hold, if_neg hnew]

theorem move_joined (hold : l ∉ old) (hnew : l ∈ new) :
    move queues t old new l = queues l ++ [t] := by
  simp only [move, if_neg hold, if_pos hnew]

theorem move_apart (hold : l ∉ old) (hnew : l ∉ new) : move queues t old new l = queues l := by
  simp only [move, if_neg hold, if_neg hnew]

theorem move_of_mem_iff (hiff : l ∈ new ↔ l ∈ old) : move queues t old new l = queues l := by
  by_cases hold : l ∈ old
  · exact move_kept hold (hiff.mpr hold)
  · exact move_apart hold (fun hnew => hold (hiff.mp hnew))

variable (queues t new) in
/-- A queue the mover is not in can only get longer. -/
theorem move_of_notMem (hold : l ∉ old) : ∃ later, move queues t old new l = queues l ++ later := by
  by_cases hnew : l ∈ new
  · exact ⟨[t], move_joined hold hnew⟩
  · exact ⟨[], by rw [move_apart hold hnew, List.append_nil]⟩

theorem head?_move_of_ne (hholder : (queues l).head? = some other) (hne : other ≠ t)
    (hholds : Holds queues t old) : (move queues t old new l).head? = some other := by
  have hold : l ∉ old := by
    intro hmem
    have hself := hholds l hmem
    rw [hholder] at hself
    exact hne (Option.some.inj hself)
  obtain ⟨later, hmove⟩ := move_of_notMem queues t new hold
  rw [hmove, List.head?_append, hholder]
  rfl

theorem nodup_move {locks : τ → List ι} (hcons : Consistent queues locks) (l : ι) :
    (move queues t (locks t) new l).Nodup := by
  by_cases hold : l ∈ locks t <;> by_cases hnew : l ∈ new
  · rw [move_kept hold hnew]
    exact hcons.nodup l
  · rw [move_released hold hnew]
    exact (hcons.nodup l).tail
  · rw [move_joined hold hnew, List.nodup_append_comm]
    have hfresh : t ∉ queues l := fun hmem => hold ((hcons.mem_iff l t).mp hmem)
    exact List.nodup_cons.mpr ⟨hfresh, hcons.nodup l⟩
  · rw [move_apart hold hnew]
    exact hcons.nodup l

theorem mem_move_of_ne (hholds : Holds queues t old) (hne : other ≠ t) :
    other ∈ move queues t old new l ↔ other ∈ queues l := by
  by_cases hold : l ∈ old <;> by_cases hnew : l ∈ new
  · rw [move_kept hold hnew]
  · rw [move_released hold hnew]
    have hholder := hholds l hold
    cases hqueue : queues l with
    | nil => rfl
    | cons first rest =>
        rw [hqueue] at hholder
        cases hholder
        rw [List.tail_cons, List.mem_cons, or_iff_right hne]
  · rw [move_joined hold hnew, List.mem_append, List.mem_singleton, or_iff_left hne]
  · rw [move_apart hold hnew]

theorem mem_move_self {locks : τ → List ι} (hcons : Consistent queues locks)
    (hholds : Holds queues t (locks t)) : t ∈ move queues t (locks t) new l ↔ l ∈ new := by
  by_cases hold : l ∈ locks t <;> by_cases hnew : l ∈ new
  · rw [move_kept hold hnew, hcons.mem_iff]
    exact iff_of_true hold hnew
  · rw [move_released hold hnew]
    refine iff_of_false ?_ hnew
    have hholder := hholds l hold
    have hnodup := hcons.nodup l
    cases hqueue : queues l with
    | nil => exact List.not_mem_nil
    | cons first rest =>
        rw [hqueue] at hholder hnodup
        cases hholder
        exact (List.nodup_cons.mp hnodup).1
  · rw [move_joined hold hnew]
    exact iff_of_true (List.mem_append_right _ (List.mem_singleton_self t)) hnew
  · rw [move_apart hold hnew, hcons.mem_iff]
    exact iff_of_false hold hnew

variable [DecidableEq τ]

/-- The moves of tasks that hold their locks keep the queues consistent. -/
theorem Consistent.move {locks : τ → List ι} (hcons : Consistent queues locks)
    (hholds : Holds queues t (locks t)) (hallowed : Allowed (locks t) new) :
    Consistent (move queues t (locks t) new) (Function.update locks t new) where
  nodup := nodup_move hcons
  mem_iff l other := by
    by_cases hother : other = t
    · rw [hother, Function.update_self]
      exact mem_move_self hcons hholds
    · rw [Function.update_of_ne hother, mem_move_of_ne hholds hother]
      exact hcons.mem_iff l other
  held other := by
    by_cases hother : other = t
    · rw [hother, Function.update_self]
      intro l hl
      have hold : l ∈ locks t := hallowed.dropLast_subset hl
      have hnew : l ∈ new := List.dropLast_subset new hl
      rw [move_kept hold hnew]
      exact hholds l hold
    · rw [Function.update_of_ne hother]
      intro l hl
      exact head?_move_of_ne (hcons.held other l hl) hother hholds

/-- A move of another task leaves the order of the tasks that do not move. -/
theorem mem_before_move (hbefore : other ∈ before (queues l) t) {mover : τ}
    (hholds : Holds queues mover old) (hother : mover ≠ other) (ht : mover ≠ t)
    (hmem : t ∈ queues l) : other ∈ before (move queues mover old new l) t := by
  by_cases hold : l ∈ old
  · by_cases hnew : l ∈ new
    · rw [move_kept hold hnew]
      exact hbefore
    · rw [before_eq_cons_tail (hholds l hold) ht] at hbefore
      rw [move_released hold hnew]
      exact List.mem_of_ne_of_mem (fun heq => hother heq.symm) hbefore
  · obtain ⟨later, hmove⟩ := move_of_notMem queues mover new hold
    rw [hmove, before_append_of_mem hmem]
    exact hbefore

/-- A lock that the mover gives up gets closer to the tasks behind it. -/
theorem before_move_of_released {mover : τ} (hholds : Holds queues mover old) (ht : mover ≠ t)
    (hold : l ∈ old) (hnew : l ∉ new) :
    before (queues l) t = mover :: before (move queues mover old new l) t := by
  rw [move_released hold hnew]
  exact before_eq_cons_tail (hholds l hold) ht

end Move

end Transition.FifoLock
