import Syauth.Transition.System
import Mathlib.Data.List.Nodup
import Mathlib.Logic.Function.Basic

/-! # Clients that read, change and write one shared value

Every client loads the value, computes from it whether to write and what, and
writes later without looking again.  The system runs the loads and the writes of
any number of clients in any order.  When every write finds the value its client
had loaded, the outcome is that of running the clients one after another.
-/

namespace Transition.ReadModifyWrite

universe u v w

variable {φ : Type u} {ι : Type v} {ρ : Type w}

/-- What a client makes of the value it loaded: fail, finish, or write a new value. -/
abbrev Update (φ : Type u) (ρ : Type w) := φ → Except ρ (Option φ)

inductive ClientPhase (φ : Type u) where
  | idle
  /-- The client keeps what it loaded and what it is going to write. -/
  | loaded (base new : φ)
  /-- The client has made its change, if it had one, and reported success or not. -/
  | applied (reported : Bool)
  | failed
  deriving DecidableEq

structure State (φ : Type u) (ι : Type v) where
  value : φ
  clients : ι → ClientPhase φ

/-- A fault keeps the step from taking effect; the report can still fail after it did. -/
inductive Event (ι : Type v) where
  | load (i : ι) (fault reported : Bool)
  | write (i : ι) (fault reported : Bool)

def State.set [DecidableEq ι] (s : State φ ι) (i : ι) (phase : ClientPhase φ) : State φ ι :=
  { s with clients := Function.update s.clients i phase }

variable (update : ι → Update φ ρ)

def step [DecidableEq ι] (s : State φ ι) : Event ι → Option (State φ ι)
  | .load i fault reported =>
      match s.clients i with
      | .idle =>
          if fault then some (s.set i .failed)
          else
            match update i s.value with
            | .error _ => some (s.set i .failed)
            | .ok none => some (s.set i (.applied reported))
            | .ok (some new) => some (s.set i (.loaded s.value new))
      | _ => none
  | .write i fault reported =>
      match s.clients i with
      | .loaded _ new =>
          if fault then some (s.set i .failed)
          else some { (s.set i (.applied reported)) with value := new }
      | _ => none

/-- The system from one value with every client idle. -/
def system [DecidableEq ι] (value : φ) : System (State φ ι) (Event ι) where
  start s := s = ⟨value, fun _ => .idle⟩
  step := step update

/-- Run one client after another; `none` when one of them fails. -/
def serial : List ι → φ → Option φ
  | [], value => some value
  | i :: order, value =>
      match update i value with
      | .error _ => none
      | .ok none => serial order value
      | .ok (some new) => serial order new

theorem serial_append (first second : List ι) (value : φ) :
    serial update (first ++ second) value =
      (serial update first value).bind (serial update second) := by
  induction first generalizing value with
  | nil => rfl
  | cons i first ih =>
      simp only [List.cons_append, serial]
      split
      · rfl
      · exact ih value
      · next new _ => exact ih new

/-- The client whose change a step applies. -/
def completes (s : State φ ι) : Event ι → List ι
  | .load i false _ =>
      match update i s.value with
      | .ok none => [i]
      | _ => []
  | .write i false _ => [i]
  | _ => []

/-- A write that takes effect finds the value its client loaded. -/
def WritesLoaded (s : State φ ι) : Event ι → Prop
  | .write i false _ => ∀ base new, s.clients i = .loaded base new → s.value = base
  | _ => True

instance [DecidableEq φ] (s : State φ ι) (event : Event ι) : Decidable (WritesLoaded s event) :=
  match event with
  | .load _ _ _ => .isTrue trivial
  | .write _ true _ => .isTrue trivial
  | .write i false _ =>
      match hphase : s.clients i with
      | .loaded base _ => decidable_of_iff (s.value = base) (by simp [WritesLoaded, hphase])
      | .idle => .isTrue (by simp [WritesLoaded, hphase])
      | .applied _ => .isTrue (by simp [WritesLoaded, hphase])
      | .failed => .isTrue (by simp [WritesLoaded, hphase])

def ClientPhase.Applied (phase : ClientPhase φ) : Prop := ∃ reported, phase = .applied reported

/-- The clients whose changes are applied, in order, and what they made of the first value. -/
structure Serialized (value : φ) (order : List ι) (s : State φ ι) : Prop where
  nodup : order.Nodup
  mem_iff : ∀ i, i ∈ order ↔ (s.clients i).Applied
  loaded : ∀ i base new, s.clients i = .loaded base new → update i base = .ok (some new)
  serial_eq : serial update order value = some s.value

variable [DecidableEq ι] {update} {value : φ} {order : List ι} {s t : State φ ι} {i : ι}

/-- A client whose change is not applied moves on without applying it. -/
theorem Serialized.set {phase : ClientPhase φ} (hser : Serialized update value order s)
    (hbefore : ¬ (s.clients i).Applied) (hafter : ¬ phase.Applied)
    (hloads : ∀ base new, phase = .loaded base new → update i base = .ok (some new)) :
    Serialized update value order (s.set i phase) := by
  refine ⟨hser.nodup, fun j => ?_, fun j base new hloaded => ?_, hser.serial_eq⟩
  · rw [hser.mem_iff j]
    simp only [State.set, Function.update_apply]
    by_cases hsame : j = i
    · subst hsame
      simp [hbefore, hafter]
    · simp [hsame]
  · simp only [State.set, Function.update_apply] at hloaded
    split at hloaded
    · next hsame =>
        rw [hsame]
        exact hloads base new hloaded
    · exact hser.loaded j base new hloaded

theorem Serialized.set_failed (hser : Serialized update value order s)
    (hphase : ¬ (s.clients i).Applied) : Serialized update value order (s.set i .failed) := by
  apply hser.set hphase
  · simp [ClientPhase.Applied]
  · intro base new hloaded
    cases hloaded

theorem Serialized.set_loaded (hser : Serialized update value order s)
    (hphase : ¬ (s.clients i).Applied) {new : φ} (hnew : update i s.value = .ok (some new)) :
    Serialized update value order (s.set i (.loaded s.value new)) := by
  apply hser.set hphase
  · simp [ClientPhase.Applied]
  · intro base new' hloaded
    cases hloaded
    exact hnew

theorem Serialized.complete (hser : Serialized update value order s)
    (hphase : ¬ (s.clients i).Applied) {final : φ} {reported : Bool}
    (hfinal : serial update [i] s.value = some final) :
    Serialized update value (order ++ [i])
      { (s.set i (.applied reported)) with value := final } := by
  have hnew : i ∉ order := fun hmem => hphase ((hser.mem_iff i).mp hmem)
  refine ⟨?_, fun j => ?_, fun j base new hloaded => ?_, ?_⟩
  · exact List.nodup_append.mpr ⟨hser.nodup, List.nodup_singleton i, fun a ha b hb => by
      rw [List.mem_singleton.mp hb]
      exact fun heq => hnew (heq ▸ ha)⟩
  · rw [List.mem_append, List.mem_singleton, hser.mem_iff j]
    simp only [State.set, Function.update_apply]
    by_cases hsame : j = i
    · simp [hsame, ClientPhase.Applied]
    · simp [hsame]
  · simp only [State.set, Function.update_apply] at hloaded
    split at hloaded
    · cases hloaded
    · exact hser.loaded j base new hloaded
  · rw [serial_append, hser.serial_eq]
    exact hfinal

theorem Serialized.load (hser : Serialized update value order s) {fault reported : Bool}
    (hstep : ReadModifyWrite.step update s (.load i fault reported) = some t) :
    Serialized update value (order ++ completes update s (.load i fault reported)) t := by
  simp only [ReadModifyWrite.step] at hstep
  split at hstep
  · next hidle =>
      have hphase : ¬ (s.clients i).Applied := by simp [hidle, ClientPhase.Applied]
      cases fault with
      | true =>
          cases hstep
          simp only [completes, List.append_nil]
          exact hser.set_failed hphase
      | false =>
          simp only [Bool.false_eq_true, if_false] at hstep
          split at hstep
          · next err herr =>
              cases hstep
              simp only [completes, herr, List.append_nil]
              exact hser.set_failed hphase
          · next hdone =>
              cases hstep
              simp only [completes, hdone]
              exact hser.complete hphase (by simp only [serial, hdone])
          · next new hnew =>
              cases hstep
              simp only [completes, hnew, List.append_nil]
              exact hser.set_loaded hphase hnew
  · cases hstep

theorem Serialized.write (hser : Serialized update value order s) {fault reported : Bool}
    (hguard : WritesLoaded s (.write i fault reported))
    (hstep : ReadModifyWrite.step update s (.write i fault reported) = some t) :
    Serialized update value (order ++ completes update s (.write i fault reported)) t := by
  simp only [ReadModifyWrite.step] at hstep
  split at hstep
  · next base new hloaded =>
      have hphase : ¬ (s.clients i).Applied := by simp [hloaded, ClientPhase.Applied]
      cases fault with
      | true =>
          cases hstep
          simp only [completes, List.append_nil]
          exact hser.set_failed hphase
      | false =>
          cases hstep
          -- what the client changed is what the store holds now
          have hbase : s.value = base := hguard base new hloaded
          have hupdate : update i s.value = .ok (some new) := by
            rw [hbase]
            exact hser.loaded i base new hloaded
          exact hser.complete hphase (by simp only [serial, hupdate])
  · cases hstep

/-- A run whose writes all find what their clients loaded is a serial run of the
clients whose changes were applied, in the order in which they were. -/
theorem serialized_run {initial final : State φ ι} {events : List (Event ι)}
    (hstart : (system update value).start initial)
    (hguard : (system update value).AllSteps WritesLoaded initial events)
    (hrun : (system update value).run initial events = some final) :
    Serialized update value ((system update value).trace (completes update) initial events)
      final := by
  have hinitial : Serialized update value [] initial := by
    subst hstart
    refine ⟨List.nodup_nil, fun j => ?_, fun j base new hloaded => ?_, rfl⟩
    · simp [ClientPhase.Applied]
    · cases hloaded
  refine (system update value).run_trace_invariant_of_allSteps WritesLoaded (completes update)
    (Serialized update value) ?_ hinitial hguard hrun
  intro seen state event next hser hloaded hstep
  cases event with
  | load i fault reported => exact hser.load hstep
  | write i fault reported => exact hser.write hloaded hstep

end Transition.ReadModifyWrite
