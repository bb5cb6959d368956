import Syauth.Transition.System
import Mathlib.Data.Prod.Lex
import Mathlib.Order.WellFounded

/-! # Registers with notices, and systems that settle

A reader learns of the changes of a register from notices that travel to it through
queues.  Notices may be merged on the way, but the last one is not lost: as long as a
notice is underway a read is still to come, and that read sees the latest content.

The second part is about the steps a system takes on its own.  When each of them lowers
a measure and one is possible wherever work is left, the system settles on every schedule.
-/

namespace Transition.System

universe u v w

variable {σ : Type u} {ε : Type v} {ρ : Type w}

/-! ## A register and its notices -/

/-- How the labels of a system act on a register.  A read shows what was read. -/
structure Noticed (sys : System σ ε) (ρ : Type w) where
  content : σ → ρ
  underway : σ → Prop
  notices : σ → ε → Prop
  reads : σ → ε → List ρ
  read_eq : ∀ {state event next}, sys.step state event = some next →
    ∀ value ∈ reads state event, value = content state ∧ content next = content state
  underway_of_notices : ∀ {state event next}, sys.step state event = some next →
    notices state event → underway next
  underway_of_step : ∀ {state event next}, sys.step state event = some next →
    underway state → reads state event = [] → underway next

namespace Noticed

variable {sys : System σ ε} (register : Noticed sys ρ)

/-- A step that changes the content raises a notice. -/
def Reported (state : σ) (event : ε) : Prop :=
  ∀ next, sys.step state event = some next →
    register.content next ≠ register.content state → register.notices state event

/-- The values read along a run, oldest first. -/
def readings (state : σ) (events : List ε) : List ρ := sys.trace register.reads state events

/-- A notice is underway, or the last reading is what the register holds. -/
def Current (seen : List ρ) (state : σ) : Prop :=
  register.underway state ∨ seen.getLast? = some (register.content state)

theorem Current.step {seen : List ρ} {state next : σ} {event : ε}
    (hcurrent : register.Current seen state) (hreported : register.Reported state event)
    (hstep : sys.step state event = some next) :
    register.Current (seen ++ register.reads state event) next := by
  cases hreads : register.reads state event with
  | nil =>
      rw [List.append_nil]
      by_cases hnotices : register.notices state event
      · exact .inl (register.underway_of_notices hstep hnotices)
      · have hsame : register.content next = register.content state := by
          by_contra hchanged
          exact hnotices (hreported next hstep hchanged)
        rcases hcurrent with hunderway | hlast
        · exact .inl (register.underway_of_step hstep hunderway hreads)
        · exact .inr (hlast.trans (congrArg some hsame.symm))
  | cons first rest =>
      -- every value that a step shows is the content, the last one included
      obtain ⟨value, hvalue⟩ := Option.isSome_iff_exists.mp
        (List.getLast?_isSome.mpr (List.cons_ne_nil first rest))
      have hmem : value ∈ register.reads state event := by
        rw [hreads]
        exact List.mem_of_getLast? hvalue
      obtain ⟨hread, hsame⟩ := register.read_eq hstep value hmem
      refine .inr ?_
      rw [List.getLast?_append, hvalue, hread, hsame]
      rfl

/-- After a notice, and as long as all changes are noticed, the register is current. -/
theorem current_of_notice {state next final : σ} {event : ε} {after : List ε}
    (hstep : sys.step state event = some next) (hnotices : register.notices state event)
    (hreported : sys.AllSteps register.Reported next after)
    (hrun : sys.run next after = some final) :
    register.Current (register.readings next after) final := by
  have hstart : register.Current [] next := .inl (register.underway_of_notices hstep hnotices)
  have hcurrent := sys.run_trace_invariant_of_allSteps register.Reported register.reads
    register.Current (fun _ _ _ _ hcurrent => hcurrent.step register) hstart hreported hrun
  rwa [List.nil_append] at hcurrent

/-- Where no notice is underway, the last reading since the notice is the content. -/
theorem last_reading_of_notice {state next final : σ} {event : ε} {after : List ε}
    (hstep : sys.step state event = some next) (hnotices : register.notices state event)
    (hreported : sys.AllSteps register.Reported next after)
    (hrun : sys.run next after = some final) (hquiet : ¬ register.underway final) :
    (register.readings next after).getLast? = some (register.content final) :=
  (register.current_of_notice hstep hnotices hreported hrun).resolve_left hquiet

end Noticed

/-! ## Systems that settle -/

/-- One of the system's own steps leads from one state to another. -/
def Moves (sys : System σ ε) (own : ε → Prop) (next state : σ) : Prop :=
  ∃ event, own event ∧ sys.step state event = some next

/-- Own steps that lower a measure in a well-founded order do not go on forever. -/
theorem wellFounded_moves {α : Type*} [LT α] [WellFoundedLT α] (sys : System σ ε) {own : ε → Prop}
    (measure : σ → α)
    (hlower : ∀ state event next, own event → sys.step state event = some next →
      measure next < measure state) : WellFounded (sys.Moves own) := by
  refine Subrelation.wf ?_ (InvImage.wf measure wellFounded_lt)
  rintro next state ⟨event, hown, hstep⟩
  exact hlower state event next hown hstep

/-- Where own steps do not go on forever and every state that has not settled allows one,
own steps lead from each state to a settled one. -/
theorem exists_settled_run (sys : System σ ε) {own : ε → Prop} {settled : σ → Prop}
    {invariant : σ → Prop} (hwf : WellFounded (sys.Moves own))
    (hkeep : ∀ state event next, invariant state → own event →
      sys.step state event = some next → invariant next)
    (hmoves : ∀ state, invariant state → ¬ settled state → ∃ next, sys.Moves own next state)
    (state : σ) (hinv : invariant state) :
    ∃ events final, (∀ event ∈ events, own event) ∧ sys.run state events = some final ∧
      settled final := by
  induction state using hwf.induction with
  | h state ih =>
      by_cases hsettled : settled state
      · exact ⟨[], state, fun _ hmem => (nomatch hmem), rfl, hsettled⟩
      · obtain ⟨next, event, hown, hstep⟩ := hmoves state hinv hsettled
        obtain ⟨events, final, hevents, hrun, hfinal⟩ :=
          ih next ⟨event, hown, hstep⟩ (hkeep state event next hinv hown hstep)
        refine ⟨event :: events, final, ?_, ?_, hfinal⟩
        · intro other hother
          rcases List.mem_cons.mp hother with rfl | hrest
          · exact hown
          · exact hevents other hrest
        · exact sys.run_cons_eq_some.mpr ⟨next, hstep, hrun⟩

end Transition.System
