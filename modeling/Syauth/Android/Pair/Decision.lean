import Syauth.Android.Pair.ViewModel

/-! # The decision of the user

A Yes tap persists the bond and leaves the question on the screen until the
association is answered, and the answer overwrites whatever state it finds.  As
long as nothing is tapped in between, the first tap decides.
-/

namespace Syauth.Android.Pair

open Transition

def ViewModelCall.isPersist : ViewModelCall → Bool
  | .persist _ _ => true
  | _ => false

def persists (seen : List ViewModelCall) : Nat := seen.countP ViewModelCall.isPersist

def PairingState.Terminal : PairingState → Prop
  | .bonded _ | .failed _ => True
  | _ => False

/-- The decision law in one state of a run, after the calls seen so far.  A view model
that has reached `Bonded` or `Failed` starts no further attempt, so that its calls are
those of one. -/
structure DecisionLaw (oobCode : Bytes → List String) (seen : List ViewModelCall) (vm : ViewModel) :
    Prop where
  persist_once : persists seen ≤ 1
  refused_not_bonded : .refuse ∈ seen → ∀ name, vm.state ≠ .bonded name
  refused_not_persisted : .refuse ∈ seen → persists seen = 0
  terminal_kept : ∀ i result next, vm.step oobCode (.associated i result) = some next →
    vm.state.Terminal → next.state = vm.state

/-- No tap on the question while an association is awaited. -/
def TapsBeforeAssociation (vm : ViewModel) : ViewModelEvent → Prop
  | .oobYesTapped _ | .oobNoTapped => vm.associating = []
  | _ => True

instance (vm : ViewModel) (event : ViewModelEvent) : Decidable (TapsBeforeAssociation vm event) :=
  match event with
  | .oobYesTapped _ | .oobNoTapped => inferInstanceAs (Decidable (vm.associating = []))
  | .startScanTapped | .cancelTapped | .peerPicked _ _ | .lescResult _ | .associated _ _ =>
      .isTrue trivial

/-- How many records were persisted and what is awaited in each state. -/
def Tally (seen : List ViewModelCall) (vm : ViewModel) : Prop :=
  match vm.state with
  | .idle | .scanning | .lescNegotiating _ =>
      vm.associating = [] ∧ persists seen = 0 ∧ .refuse ∉ seen
  | .oobConfirming _ =>
      vm.associating.length = persists seen ∧ persists seen ≤ 1 ∧ .refuse ∉ seen
  | .bonded _ => vm.associating = [] ∧ persists seen ≤ 1 ∧ .refuse ∉ seen
  | .failed _ => vm.associating = [] ∧ persists seen ≤ 1 ∧ (.refuse ∈ seen → persists seen = 0)

variable {oobCode : Bytes → List String} {seen : List ViewModelCall} {vm next : ViewModel}

@[simp]
theorem persists_append (first second : List ViewModelCall) :
    persists (first ++ second) = persists first + persists second :=
  List.countP_append

@[simp]
theorem persists_nil : persists [] = 0 := rfl

@[simp]
theorem persists_cons_persist (record : BondRecord) (shown : PairingState)
    (rest : List ViewModelCall) :
    persists (.persist record shown :: rest) = persists rest + 1 :=
  List.countP_cons_of_pos rfl

@[simp]
theorem persists_cons_refuse (rest : List ViewModelCall) :
    persists (.refuse :: rest) = persists rest :=
  List.countP_cons_of_neg (by simp [ViewModelCall.isPersist])

@[simp]
theorem persists_removeBond (vm : ViewModel) : persists vm.removeBond = 0 := by
  unfold ViewModel.removeBond
  cases vm.pickedPeer with
  | none => rfl
  | some peer => rfl

@[simp]
theorem refuse_notMem_removeBond (vm : ViewModel) : .refuse ∉ vm.removeBond := by
  simp [ViewModel.removeBond]

theorem Tally.confirming_of_awaited (htally : Tally seen vm) (hawaited : vm.associating ≠ []) :
    ∃ emoji, vm.state = .oobConfirming emoji := by
  unfold Tally at htally
  split at htally
  case h_4 emoji hstate => exact ⟨emoji, hstate⟩
  all_goals exact absurd htally.1 hawaited

theorem Tally.law (htally : Tally seen vm) : DecisionLaw oobCode seen vm := by
  refine ⟨?_, ?_, ?_, ?_⟩
  · unfold Tally at htally
    split at htally <;> omega
  · intro hrefused name hbonded
    rw [Tally, hbonded] at htally
    exact htally.2.2 hrefused
  · intro hrefused
    unfold Tally at htally
    split at htally
    case h_6 => exact htally.2.2 hrefused
    all_goals exact absurd hrefused htally.2.2
  · -- nothing is awaited in a terminal state, so that no answer can arrive
    intro i result next hstep hterminal
    by_cases hnone : vm.associating = []
    · simp [ViewModel.step, ViewModel.onAssociated, hnone] at hstep
    · obtain ⟨emoji, hstate⟩ := htally.confirming_of_awaited hnone
      rw [hstate] at hterminal
      exact hterminal.elim

theorem Tally.step {event : ViewModelEvent} (htally : Tally seen vm)
    (hguard : TapsBeforeAssociation vm event) (hstep : ViewModelStep oobCode vm event next) :
    Tally (seen ++ vm.calls event) next := by
  cases hstep with
  | ignored hcalls =>
      rw [hcalls, List.append_nil]
      exact htally
  | scan hstate =>
      simp only [Tally, hstate] at htally
      simpa [Tally, ViewModel.calls] using htally
  | cancel hstate =>
      obtain hstate | ⟨code, hstate⟩ := hstate
      · simp only [Tally, hstate] at htally
        simpa [Tally, ViewModel.calls] using htally
      · simp only [Tally, hstate] at htally
        simpa [Tally, ViewModel.calls] using htally
  | @pick peer result hstate =>
      simp only [Tally, hstate] at htally
      obtain ⟨hnone, hpersists, hrefuse⟩ := htally
      cases result with
      | lescStarted code => exact ⟨hnone, by simpa [ViewModel.calls] using hpersists,
          by simpa [ViewModel.calls] using hrefuse⟩
      | lescUnsupported adapterName =>
          simp [Tally, ViewModel.calls, ViewModel.pickedState, hnone, hpersists]
      | failed reason => simp [Tally, ViewModel.calls, ViewModel.pickedState, hnone, hpersists]
  | exchange hstate =>
      simp only [Tally, hstate] at htally
      simp [Tally, ViewModel.calls, htally]
  | exchangeFailed hstate =>
      simp only [Tally, hstate] at htally
      simp [Tally, ViewModel.calls, hstate, htally]
  | persist hcall =>
      obtain ⟨emoji, hstate⟩ := ViewModel.confirming_of_persistCall hcall
      have hnone : vm.associating = [] := hguard
      simp only [Tally, hstate, hnone, List.length_nil] at htally
      obtain ⟨hpersists, -, hrefuse⟩ := htally
      simp [Tally, ViewModel.calls, hcall, hstate, hnone, ← hpersists, hrefuse]
  | persistFailed hcall =>
      obtain ⟨emoji, hstate⟩ := ViewModel.confirming_of_persistCall hcall
      have hnone : vm.associating = [] := hguard
      simp only [Tally, hstate, hnone, List.length_nil] at htally
      obtain ⟨hpersists, -, hrefuse⟩ := htally
      simp [Tally, ViewModel.calls, hcall, hstate, hnone, ← hpersists, hrefuse]
  | refuse hstate =>
      have hnone : vm.associating = [] := hguard
      simp only [Tally, hstate, hnone, List.length_nil] at htally
      obtain ⟨hpersists, -, -⟩ := htally
      simp [Tally, ViewModel.calls, hstate, hnone, ← hpersists]
  | @associated i result peer hawaited =>
      have hsome : vm.associating ≠ [] := List.ne_nil_of_mem (List.mem_of_getElem? hawaited)
      obtain ⟨emoji, hstate⟩ := htally.confirming_of_awaited hsome
      simp only [Tally, hstate] at htally
      obtain ⟨hawaits, honce, hrefuse⟩ := htally
      -- at most one association is awaited, and this is its answer
      have hempty : vm.associating.eraseIdx i = [] := by
        have hindex : i < vm.associating.length := (List.getElem?_eq_some_iff.mp hawaited).1
        apply List.length_eq_zero_iff.mp
        rw [List.length_eraseIdx_of_lt hindex]
        omega
      cases result with
      | ok done => simp [Tally, ViewModel.calls, hempty, honce, hrefuse]
      | error reason => simp [Tally, ViewModel.calls, hawaited, hempty, honce, hrefuse]

variable (oobCode) in
/-- The law holds in the state a new view model reaches by the events. -/
def LawfulAfter (events : List ViewModelEvent) : Prop :=
  ∀ final, (viewModel oobCode).run .new events = some final →
    DecisionLaw oobCode ((viewModel oobCode).trace ViewModel.calls .new events) final

/-- When no answer is tapped while an association is awaited, the decision law holds
in every state of every run. -/
theorem decision_law {events : List ViewModelEvent}
    (hguard : (viewModel oobCode).AllSteps TapsBeforeAssociation .new events) :
    LawfulAfter oobCode events := by
  intro final hrun
  have hinitial : Tally [] .new := ⟨rfl, rfl, List.not_mem_nil⟩
  have htally := (viewModel oobCode).run_trace_invariant_of_allSteps TapsBeforeAssociation
    ViewModel.calls Tally (fun seen state event next htally htaps hstep =>
      htally.step htaps (ViewModel.step_sound hstep)) hinitial hguard hrun
  exact htally.law

/-- The events of an attempt up to the question. -/
def questionAsked : List ViewModelEvent :=
  [.startScanTapped, .peerPicked ⟨"AA:BB:CC:DD:EE:FF", "laptop"⟩ (.lescStarted "123456"),
    .lescResult (.bonded [1] "laptop" "syauth.ed25519.AABBCCDDEEFF" [2])]

theorem decision_law_single_yes :
    LawfulAfter sampleWords (questionAsked ++ [.oobYesTapped (.ok ()), .associated 0 (.ok ())]) :=
  decision_law (by decide)

/-- A second Yes persists again, a No after Yes leaves the record, and the late answer
turns the refusal into a bond. -/
theorem taps_during_association :
    ¬ LawfulAfter sampleWords (questionAsked ++ [.oobYesTapped (.ok ()), .oobYesTapped (.ok ())]) ∧
      ¬ LawfulAfter sampleWords (questionAsked ++ [.oobYesTapped (.ok ()), .oobNoTapped]) ∧
      ¬ LawfulAfter sampleWords
        (questionAsked ++ [.oobYesTapped (.ok ()), .oobNoTapped, .associated 0 (.ok ())]) := by
  refine ⟨fun hlaw => ?_, fun hlaw => ?_, fun hlaw => ?_⟩
  · exact absurd (hlaw _ rfl).persist_once (by decide)
  · have hkept := (hlaw _ rfl).terminal_kept 0 (.ok ()) _ rfl trivial
    cases hkept
  · exact (hlaw _ rfl).refused_not_bonded (by decide) "laptop" rfl

end Syauth.Android.Pair
