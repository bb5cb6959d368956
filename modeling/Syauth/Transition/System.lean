import Mathlib.Data.List.Basic
import Mathlib.Data.Option.Basic

/-! # Deterministic labelled transition systems

A system is a predicate on start states together with a partial step function
on labels.  Every source of nondeterminism of the modelled program (scheduling,
results of foreign calls, clocks) is carried by the label, so that a run is
determined by its list of labels and every order of labels is a run to consider.
-/

namespace Transition

universe u v

/-- A transition system whose step is a partial function of state and label. -/
structure System (σ : Type u) (ε : Type v) where
  start : σ → Prop
  step : σ → ε → Option σ

namespace System

variable {σ : Type u} {ε : Type v} (sys : System σ ε)

/-- Execute labels from left to right; `none` when one of them is not enabled. -/
def run : σ → List ε → Option σ
  | state, [] => some state
  | state, event :: events => (sys.step state event).bind fun next => run next events

/-- Every step taken along the labels satisfies a guard on its source state. -/
def AllSteps (guard : σ → ε → Prop) : σ → List ε → Prop
  | _, [] => True
  | state, event :: events =>
      guard state event ∧ ∀ next, sys.step state event = some next → AllSteps guard next events

theorem allSteps_of_forall {guard : σ → ε → Prop} {events : List ε}
    (hall : ∀ event ∈ events, ∀ state, guard state event) (state : σ) :
    sys.AllSteps guard state events := by
  induction events generalizing state with
  | nil => trivial
  | cons event events ih =>
      refine ⟨hall event List.mem_cons_self state, fun next _ => ?_⟩
      exact ih (fun other hother => hall other (List.mem_cons_of_mem event hother)) next

/-- A guard that looks at the label alone holds of every label of a run. -/
theorem forall_mem_of_allSteps {guard : ε → Prop} {state final : σ} {events : List ε}
    (hall : sys.AllSteps (fun _ event => guard event) state events)
    (hrun : sys.run state events = some final) : ∀ event ∈ events, guard event := by
  induction events generalizing state with
  | nil => exact fun _ hmem => (nomatch hmem)
  | cons event events ih =>
      obtain ⟨next, hstep, hrest⟩ := Option.bind_eq_some_iff.mp hrun
      intro other hmem
      rcases List.mem_cons.mp hmem with rfl | htail
      · exact hall.1
      · exact ih (hall.2 next hstep) hrest other htail

theorem allSteps_cons_of_step {guard : σ → ε → Prop} {state next : σ} {event : ε}
    (hstep : sys.step state event = some next) (events : List ε) :
    sys.AllSteps guard state (event :: events) ↔
      guard state event ∧ sys.AllSteps guard next events := by
  refine and_congr_right fun _ => ⟨fun hall => hall next hstep, fun hall other hother => ?_⟩
  rw [hstep] at hother
  obtain rfl := Option.some.inj hother
  exact hall

theorem allSteps_imp {guard guard' : σ → ε → Prop}
    (himp : ∀ state event, guard state event → guard' state event) {state : σ} {events : List ε}
    (hall : sys.AllSteps guard state events) : sys.AllSteps guard' state events := by
  induction events generalizing state with
  | nil => trivial
  | cons event events ih =>
      exact ⟨himp state event hall.1, fun next hstep => ih (hall.2 next hstep)⟩

/-- Guards that agree on the steps of a run agree on the run. -/
theorem allSteps_congr {guard guard' : σ → ε → Prop}
    (hiff : ∀ state event next, sys.step state event = some next →
      (guard state event ↔ guard' state event))
    {state final : σ} {events : List ε} (hrun : sys.run state events = some final) :
    sys.AllSteps guard state events ↔ sys.AllSteps guard' state events := by
  induction events generalizing state with
  | nil => rfl
  | cons event events ih =>
      obtain ⟨next, hstep, hrest⟩ := Option.bind_eq_some_iff.mp hrun
      refine and_congr (hiff state event next hstep) ?_
      constructor
      · intro htail other hother
        rw [hstep] at hother
        cases hother
        exact (ih hrest).mp (htail next hstep)
      · intro htail other hother
        rw [hstep] at hother
        cases hother
        exact (ih hrest).mpr (htail next hstep)

instance decidableAllSteps {guard : σ → ε → Prop} [∀ state event, Decidable (guard state event)] :
    ∀ state events, Decidable (sys.AllSteps guard state events)
  | _, [] => .isTrue trivial
  | state, event :: events =>
      match hstep : sys.step state event with
      | none => decidable_of_iff (guard state event) (by simp [AllSteps, hstep])
      | some next =>
          have : Decidable (sys.AllSteps guard next events) := decidableAllSteps next events
          decidable_of_iff (guard state event ∧ sys.AllSteps guard next events)
            (by simp [AllSteps, hstep])

theorem run_cons (state : σ) (event : ε) (events : List ε) :
    sys.run state (event :: events) =
      (sys.step state event).bind fun next => sys.run next events := rfl

theorem run_cons_eq_some {state final : σ} {event : ε} {events : List ε} :
    sys.run state (event :: events) = some final ↔
      ∃ next, sys.step state event = some next ∧ sys.run next events = some final := by
  rw [run_cons, Option.bind_eq_some_iff]

theorem run_append (state : σ) (first second : List ε) :
    sys.run state (first ++ second) =
      (sys.run state first).bind fun middle => sys.run middle second := by
  induction first generalizing state with
  | nil => rfl
  | cons event events ih =>
      simp only [List.cons_append, run_cons, Option.bind_assoc]
      congr 1
      funext next
      exact ih next

theorem run_append_eq_some {state final : σ} {first second : List ε} :
    sys.run state (first ++ second) = some final ↔
      ∃ middle, sys.run state first = some middle ∧ sys.run middle second = some final := by
  rw [run_append, Option.bind_eq_some_iff]

theorem allSteps_append {guard : σ → ε → Prop} {state middle : σ} {first second : List ε}
    (hreached : sys.run state first = some middle) :
    sys.AllSteps guard state (first ++ second) ↔
      sys.AllSteps guard state first ∧ sys.AllSteps guard middle second := by
  induction first generalizing state with
  | nil =>
      cases hreached
      rw [List.nil_append, AllSteps, true_and]
  | cons event events ih =>
      obtain ⟨next, hstep, hrest⟩ := sys.run_cons_eq_some.mp hreached
      rw [List.cons_append, sys.allSteps_cons_of_step hstep, sys.allSteps_cons_of_step hstep,
        ih hrest, and_assoc]

/-- The invariant rule for runs whose steps all satisfy a guard. -/
theorem run_invariant_of_allSteps (guard : σ → ε → Prop) (invariant : σ → Prop)
    (hstep : ∀ state event next, invariant state → guard state event →
      sys.step state event = some next → invariant next)
    {state final : σ} {events : List ε} (hinv : invariant state)
    (hguard : sys.AllSteps guard state events)
    (hrun : sys.run state events = some final) : invariant final := by
  induction events generalizing state with
  | nil =>
      cases hrun
      exact hinv
  | cons event events ih =>
      obtain ⟨next, hnext, hrest⟩ := sys.run_cons_eq_some.mp hrun
      obtain ⟨hhead, htail⟩ := hguard
      exact ih (hstep state event next hinv hhead hnext) (htail next hnext) hrest

/-- The invariant rule for all runs. -/
theorem run_invariant (invariant : σ → Prop)
    (hstep : ∀ state event next, invariant state → sys.step state event = some next →
      invariant next)
    {state final : σ} {events : List ε} (hinv : invariant state)
    (hrun : sys.run state events = some final) : invariant final :=
  sys.run_invariant_of_allSteps (fun _ _ => True) invariant
    (fun state event next hinv _ => hstep state event next hinv) hinv
    (sys.allSteps_of_forall (fun _ _ _ => trivial) state) hrun

/-- The invariant rule for predicates that also speak about the labels so far. -/
theorem run_events_invariant (invariant : List ε → σ → Prop)
    (hstep : ∀ past state event next, invariant past state →
      sys.step state event = some next → invariant (past ++ [event]) next)
    {past : List ε} {state final : σ} {events : List ε} (hinv : invariant past state)
    (hrun : sys.run state events = some final) : invariant (past ++ events) final := by
  induction events generalizing past state with
  | nil =>
      cases hrun
      rw [List.append_nil]
      exact hinv
  | cons event events ih =>
      obtain ⟨next, hnext, hrest⟩ := sys.run_cons_eq_some.mp hrun
      rw [List.append_cons]
      exact ih (hstep past state event next hinv hnext) hrest

/-! ## Observed runs -/

/-- What an observer of each step sees along the labels, oldest first. -/
def trace {ω : Type*} (observe : σ → ε → List ω) : σ → List ε → List ω
  | _, [] => []
  | state, event :: events =>
      observe state event ++
        ((sys.step state event).map fun next => trace observe next events).getD []

theorem trace_cons_of_step {ω : Type*} {observe : σ → ε → List ω} {state next : σ} {event : ε}
    (hstep : sys.step state event = some next) (events : List ε) :
    sys.trace observe state (event :: events) =
      observe state event ++ sys.trace observe next events := by
  rw [trace, hstep]
  rfl

theorem trace_append {ω : Type*} {observe : σ → ε → List ω} {state middle : σ}
    {first second : List ε} (hrun : sys.run state first = some middle) :
    sys.trace observe state (first ++ second) =
      sys.trace observe state first ++ sys.trace observe middle second := by
  induction first generalizing state with
  | nil =>
      cases hrun
      rfl
  | cons event first ih =>
      obtain ⟨next, hnext, hrest⟩ := sys.run_cons_eq_some.mp hrun
      rw [List.cons_append, sys.trace_cons_of_step hnext, sys.trace_cons_of_step hnext, ih hrest,
        List.append_assoc]

/-- The invariant rule for guarded runs and predicates that also speak about what was
observed so far. -/
theorem run_trace_invariant_of_allSteps {ω : Type*} (guard : σ → ε → Prop)
    (observe : σ → ε → List ω) (invariant : List ω → σ → Prop)
    (hstep : ∀ seen state event next, invariant seen state → guard state event →
      sys.step state event = some next → invariant (seen ++ observe state event) next)
    {seen : List ω} {state final : σ} {events : List ε} (hinv : invariant seen state)
    (hguard : sys.AllSteps guard state events)
    (hrun : sys.run state events = some final) :
    invariant (seen ++ sys.trace observe state events) final := by
  induction events generalizing seen state with
  | nil =>
      cases hrun
      rw [trace, List.append_nil]
      exact hinv
  | cons event events ih =>
      obtain ⟨next, hnext, hrest⟩ := sys.run_cons_eq_some.mp hrun
      obtain ⟨hhead, htail⟩ := hguard
      rw [sys.trace_cons_of_step hnext, ← List.append_assoc]
      exact ih (hstep seen state event next hinv hhead hnext) (htail next hnext) hrest

theorem run_trace_invariant {ω : Type*} (observe : σ → ε → List ω) (invariant : List ω → σ → Prop)
    (hstep : ∀ seen state event next, invariant seen state →
      sys.step state event = some next → invariant (seen ++ observe state event) next)
    {seen : List ω} {state final : σ} {events : List ε} (hinv : invariant seen state)
    (hrun : sys.run state events = some final) :
    invariant (seen ++ sys.trace observe state events) final :=
  sys.run_trace_invariant_of_allSteps (fun _ _ => True) observe invariant
    (fun seen state event next hinv _ => hstep seen state event next hinv) hinv
    (sys.allSteps_of_forall (fun _ _ _ => trivial) state) hrun

/-- An observation belongs to one step, and what was seen before it to that step and the ones
before. -/
theorem step_of_trace_eq {ω : Type*} {observe : σ → ε → List ω} {state final : σ}
    {events : List ε} {before after : List ω} {o : ω}
    (hrun : sys.run state events = some final)
    (htrace : sys.trace observe state events = before ++ o :: after) :
    ∃ past event future middle shown rest, events = past ++ event :: future ∧
      sys.run state past = some middle ∧ observe middle event = shown ++ o :: rest ∧
      before = sys.trace observe state past ++ shown := by
  induction events generalizing state before with
  | nil => simp [trace] at htrace
  | cons event events ih =>
      obtain ⟨next, hnext, hrest⟩ := sys.run_cons_eq_some.mp hrun
      rw [sys.trace_cons_of_step hnext] at htrace
      have hlater : ∀ before', before = observe state event ++ before' →
          sys.trace observe next events = before' ++ o :: after →
          ∃ past event' future middle shown rest, event :: events = past ++ event' :: future ∧
            sys.run state past = some middle ∧ observe middle event' = shown ++ o :: rest ∧
            before = sys.trace observe state past ++ shown := by
        rintro before' rfl hlater
        obtain ⟨past, event', future, middle, shown, rest, rfl, hpast, hshown, rfl⟩ :=
          ih hrest hlater
        refine ⟨event :: past, event', future, middle, shown, rest, rfl, ?_, hshown, ?_⟩
        · exact sys.run_cons_eq_some.mpr ⟨next, hnext, hpast⟩
        · rw [sys.trace_cons_of_step hnext, List.append_assoc]
      rcases List.append_eq_append_iff.mp htrace with ⟨before', hbefore, hafter⟩ |
        ⟨shown, hshown, hafter⟩
      · exact hlater before' hbefore hafter
      · cases shown with
        | nil => exact hlater [] (by simpa using hshown.symm) hafter.symm
        | cons other rest =>
            obtain ⟨rfl, -⟩ := List.cons.inj hafter
            exact ⟨[], event, events, state, before, rest, rfl, rfl, hshown, rfl⟩

/-- What is seen of the labels alone does not depend on the states of a run. -/
theorem map_trace {ω : Type*} {β : Type*} {observe : σ → ε → List ω} {f : ω → β}
    {g : ε → List β} (hobserve : ∀ state event, (observe state event).map f = g event)
    {state final : σ} {events : List ε} (hrun : sys.run state events = some final) :
    (sys.trace observe state events).map f = events.flatMap g := by
  induction events generalizing state with
  | nil => rfl
  | cons event events ih =>
      obtain ⟨next, hnext, hrest⟩ := sys.run_cons_eq_some.mp hrun
      rw [sys.trace_cons_of_step hnext, List.map_append, hobserve, ih hrest, List.flatMap_cons]

/-- What every step shows holds of everything a run shows. -/
theorem forall_mem_trace {ω : Type*} (observe : σ → ε → List ω) (shown : ω → Prop)
    (hstep : ∀ state event next, sys.step state event = some next →
      ∀ o ∈ observe state event, shown o)
    {state final : σ} {events : List ε} (hrun : sys.run state events = some final) :
    ∀ o ∈ sys.trace observe state events, shown o := by
  have hstart : ∀ o ∈ ([] : List ω), shown o := fun _ hmem => (nomatch hmem)
  refine sys.run_trace_invariant observe (fun seen _ => ∀ o ∈ seen, shown o) ?_ hstart hrun
  intro seen state event next hseen hnext o hmem
  rcases List.mem_append.mp hmem with hold | hnew
  · exact hseen o hold
  · exact hstep state event next hnext o hnew

end System

end Transition
