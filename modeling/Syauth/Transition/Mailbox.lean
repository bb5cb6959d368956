import Syauth.Transition.System
import Mathlib.Data.List.Induction

/-! # Mailboxes with one slot

A slot that some labels fill, replacing what it holds, and some empty.  After a run it
holds what was put last, unless it was taken since.
-/

namespace Transition.System

universe u v w

variable {σ : Type u} {ε : Type v} {α : Type w}

/-- How the labels of a system act on a slot. -/
structure Mailbox (sys : System σ ε) (α : Type w) where
  slot : σ → Option α
  puts : σ → ε → Option α
  takes : σ → ε → Prop
  slot_of_puts : ∀ {state event next value}, sys.step state event = some next →
    puts state event = some value → slot next = some value
  slot_of_takes : ∀ {state event next}, sys.step state event = some next →
    takes state event → slot next = none
  slot_of_keeps : ∀ {state event next}, sys.step state event = some next →
    puts state event = none → ¬ takes state event → slot next = slot state

namespace Mailbox

variable {sys : System σ ε} (mailbox : Mailbox sys α)

/-- A step that leaves the slot alone. -/
def Keeps (state : σ) (event : ε) : Prop :=
  mailbox.puts state event = none ∧ ¬ mailbox.takes state event

theorem slot_of_keeping {state final : σ} {events : List ε}
    (hkeeps : sys.AllSteps mailbox.Keeps state events) (hrun : sys.run state events = some final) :
    mailbox.slot final = mailbox.slot state :=
  sys.run_invariant_of_allSteps mailbox.Keeps (fun other => mailbox.slot other = mailbox.slot state)
    (fun _ _ _ hslot hkeep hstep => (mailbox.slot_of_keeps hstep hkeep.1 hkeep.2).trans hslot)
    rfl hkeeps hrun

/-- A label put the value, and nothing has put or taken one since. -/
def LastPut (state : σ) (events : List ε) (value : α) : Prop :=
  ∃ before event after middle next, events = before ++ event :: after ∧
    sys.run state before = some middle ∧ sys.step middle event = some next ∧
    mailbox.puts middle event = some value ∧ sys.AllSteps mailbox.Keeps next after

theorem slot_eq_of_lastPut {state final : σ} {events : List ε} {value : α}
    (hlast : mailbox.LastPut state events value) (hrun : sys.run state events = some final) :
    mailbox.slot final = some value := by
  obtain ⟨before, event, after, middle, next, rfl, hreached, hstep, hput, hkept⟩ := hlast
  rw [sys.run_append, hreached, Option.bind_some, sys.run_cons, hstep, Option.bind_some] at hrun
  rw [mailbox.slot_of_keeping hkept hrun, mailbox.slot_of_puts hstep hput]

theorem LastPut.snoc {state middle : σ} {events : List ε} {event : ε} {value : α}
    (hlast : mailbox.LastPut state events value) (hrun : sys.run state events = some middle)
    (hkeep : mailbox.Keeps middle event) : mailbox.LastPut state (events ++ [event]) value := by
  obtain ⟨before, other, after, start, begun, rfl, hbefore, hother, hput, hkept⟩ := hlast
  refine ⟨before, other, after ++ [event], start, begun, ?_, hbefore, hother, hput, ?_⟩
  · rw [List.append_assoc, List.cons_append]
  · rw [sys.run_append, hbefore, Option.bind_some, sys.run_cons, hother, Option.bind_some] at hrun
    exact (sys.allSteps_append hrun).mpr ⟨hkept, hkeep, fun _ _ => trivial⟩

/-- What a slot that was empty holds after a run was put last and not taken since. -/
theorem slot_eq_some_iff {state final : σ} {events : List ε} {value : α}
    (hempty : mailbox.slot state = none) (hrun : sys.run state events = some final) :
    mailbox.slot final = some value ↔ mailbox.LastPut state events value := by
  refine ⟨?_, fun hlast => mailbox.slot_eq_of_lastPut hlast hrun⟩
  induction events using List.reverseRecOn generalizing final with
  | nil =>
      cases hrun
      intro hslot
      rw [hempty] at hslot
      cases hslot
  | append_singleton events event ih =>
      intro hslot
      obtain ⟨middle, hreached, hlast⟩ := sys.run_append_eq_some.mp hrun
      obtain ⟨next, hstep, hnil⟩ := sys.run_cons_eq_some.mp hlast
      cases hnil
      cases hput : mailbox.puts middle event with
      | some other =>
          have hvalue : some other = some value :=
            (mailbox.slot_of_puts hstep hput).symm.trans hslot
          exact ⟨events, event, [], middle, final, rfl, hreached, hstep, hput.trans hvalue, trivial⟩
      | none =>
          by_cases htakes : mailbox.takes middle event
          · rw [mailbox.slot_of_takes hstep htakes] at hslot
            cases hslot
          · have hkeep := mailbox.slot_of_keeps hstep hput htakes
            exact (ih hreached (hkeep.symm.trans hslot)).snoc mailbox hreached ⟨hput, htakes⟩

/-- A slot that nobody empties after something was put there is not empty. -/
theorem isSome_slot_of_put {state next final : σ} {event : ε} {value : α} {after : List ε}
    (hstep : sys.step state event = some next) (hput : mailbox.puts state event = some value)
    (htakes : sys.AllSteps (fun state event => ¬ mailbox.takes state event) next after)
    (hrun : sys.run next after = some final) : (mailbox.slot final).isSome := by
  have hslot : (mailbox.slot next).isSome := by rw [mailbox.slot_of_puts hstep hput]; rfl
  refine sys.run_invariant_of_allSteps _ (fun other => (mailbox.slot other).isSome) ?_ hslot
    htakes hrun
  intro other label later hsome htakes hstep
  cases hput : mailbox.puts other label with
  | some value => rw [mailbox.slot_of_puts hstep hput]; rfl
  | none => rwa [mailbox.slot_of_keeps hstep hput htakes]

end Mailbox

end Transition.System
