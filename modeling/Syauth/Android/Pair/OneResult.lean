import Syauth.Android.Pair.Threads

/-! # One result in a visit

The first worker to run claims the exchange for good, so that a visit of the pairing screen has
one result at most, and none is on its way any more when the question is asked.
-/

namespace Syauth.Android.Pair

/-! ## The backend -/

/-- Once the exchange was claimed, none is claimed again. -/
structure Backend.ClaimsOnce (backend next : Backend) : Prop where
  started : backend.exchangeStarted = true → next.exchangeStarted = true
  exchange : next.exchange ≠ none →
    backend.exchange ≠ none ∨ (backend.exchangeStarted = false ∧ next.exchangeStarted = true)

section Backend

variable {backend next : Backend}

theorem Backend.ClaimsOnce.of_eq (hexchange : next.exchange = backend.exchange)
    (hstarted : next.exchangeStarted = backend.exchangeStarted) : backend.ClaimsOnce next :=
  ⟨fun h => hstarted.trans h, fun h => .inl (hexchange ▸ h)⟩

theorem Backend.ClaimsOnce.runPostBondExchange {keystoreKey : String → Pubkey} (i : Nat)
    (address : String) (outcome : BeginOutcome) :
    backend.ClaimsOnce ({ backend with threads := backend.threads.eraseIdx i }.runPostBondExchange
      keystoreKey address outcome) := by
  unfold Backend.runPostBondExchange
  split
  next => exact .of_eq rfl rfl
  next hstarted =>
    have hfree : backend.exchangeStarted = false := by simpa using hstarted
    cases outcome <;> exact ⟨fun _ => rfl, fun _ => .inr ⟨hfree, rfl⟩⟩

theorem Backend.ClaimsOnce.onBondedFromReceiver (address : String) :
    backend.ClaimsOnce (backend.onBondedFromReceiver address) := by
  unfold Backend.onBondedFromReceiver
  split
  next => exact .of_eq rfl rfl
  next => exact .of_eq rfl rfl

theorem Backend.ClaimsOnce.pickPeer (peer : PeerHandle) (outcome : PickOutcome) :
    backend.ClaimsOnce (backend.pickPeer peer outcome).2 := by
  cases outcome <;> exact .of_eq rfl rfl

end Backend

/-! ## The view model -/

/-- Neither a negotiation nor a question. -/
def PairingState.Elsewhere : PairingState → Prop
  | .lescNegotiating _ | .oobConfirming _ => False
  | _ => True

/-- The view model keeps its pick and its stash, and stays where it is or leaves for
elsewhere. -/
structure ViewModel.Keeps (vm next : ViewModel) : Prop where
  pickedPeer : next.pickedPeer = vm.pickedPeer
  stashedBondKey : next.stashedBondKey = vm.stashedBondKey
  stashedKeystoreAlias : next.stashedKeystoreAlias = vm.stashedKeystoreAlias
  stashedPhonePubkey : next.stashedPhonePubkey = vm.stashedPhonePubkey
  state : next.state = vm.state ∨ next.state.Elsewhere

section Screen

variable {vm next : ViewModel}

theorem ViewModel.Keeps.refl (vm : ViewModel) : vm.Keeps vm := ⟨rfl, rfl, rfl, rfl, .inl rfl⟩

theorem ViewModel.Keeps.negotiating {code : String} (hkeeps : vm.Keeps next)
    (hstate : next.state = .lescNegotiating code) : vm.state = .lescNegotiating code := by
  obtain hsame | helsewhere := hkeeps.state
  · exact hsame ▸ hstate
  · rw [hstate] at helsewhere
    exact helsewhere.elim

theorem ViewModel.Keeps.confirming {emoji : List String} (hkeeps : vm.Keeps next)
    (hstate : next.state = .oobConfirming emoji) : vm.state = .oobConfirming emoji := by
  obtain hsame | helsewhere := hkeeps.state
  · exact hsame ▸ hstate
  · rw [hstate] at helsewhere
    exact helsewhere.elim

theorem ViewModel.keeps_of_screen {oobCode : Bytes → List String} {event : SessionEvent}
    {vmEvent : ViewModelEvent} (hwhole : event.runs ≠ .inSteps)
    (hevent : event.onScreen = some vmEvent) (hvm : ViewModelStep oobCode vm vmEvent next) :
    vm.Keeps next := by
  cases hvm with
  | ignored hcalls => exact .refl vm
  | scan hstate | cancel hstate =>
      cases event <;> cases hevent
      exact absurd rfl hwhole
  | pick hstate | exchange hstate | exchangeFailed hstate => cases event <;> cases hevent
  | persist hcall => exact ⟨rfl, rfl, rfl, rfl, .inl rfl⟩
  | persistFailed hcall | refuse hstate => exact ⟨rfl, rfl, rfl, rfl, .inr trivial⟩
  | @associated i result peer hawaited =>
      refine ⟨rfl, rfl, rfl, rfl, .inr ?_⟩
      cases result <;> trivial

end Screen

/-! ## The two threads -/

variable {prim : Primitives} {oobCode : Bytes → List String} {keystoreKey : String → Pubkey}
variable {s t : Threaded}

/-- There is one exchange, then its result on the way, then the question. -/
structure OneResult (s : Threaded) : Prop where
  started : s.session.backend.exchange ≠ none ∨ s.callback ≠ none ∨
    (∃ emoji, s.session.vm.state = .oobConfirming emoji) →
      s.session.backend.exchangeStarted = true
  result : s.callback ≠ none → s.session.backend.exchange = none
  question : ∀ emoji, s.session.vm.state = .oobConfirming emoji →
    s.session.backend.exchange = none ∧ s.callback = none

theorem OneResult.backend {backend : Backend} (hone : OneResult s)
    (hclaims : s.session.backend.ClaimsOnce backend) :
    OneResult { s with session := { s.session with backend } } := by
  -- a device that is claimed anew finds nothing else under way
  have hfree : (s.callback ≠ none ∨ ∃ emoji, s.session.vm.state = .oobConfirming emoji) →
      s.session.backend.exchange = none → backend.exchange = none := by
    intro hlater hnone
    by_contra hsome
    obtain hold | ⟨hunclaimed, -⟩ := hclaims.exchange hsome
    · exact hold hnone
    · rw [hone.started (.inr hlater)] at hunclaimed
      cases hunclaimed
  refine ⟨fun hbusy => ?_, fun hcallback => hfree (.inl hcallback) (hone.result hcallback),
    fun emoji hstate => ?_⟩
  · rcases hbusy with hexchange | hlater
    · obtain hold | ⟨-, hstarted⟩ := hclaims.exchange hexchange
      · exact hclaims.started (hone.started (.inl hold))
      · exact hstarted
    · exact hclaims.started (hone.started (.inr hlater))
  · obtain ⟨hnone, hcallback⟩ := hone.question emoji hstate
    exact ⟨hfree (.inr ⟨emoji, hstate⟩) hnone, hcallback⟩

/-- A step that starts no exchange, no result and no question. -/
theorem OneResult.quiet (hone : OneResult s)
    (hexchange : t.session.backend.exchange = s.session.backend.exchange)
    (hstarted : t.session.backend.exchangeStarted = s.session.backend.exchangeStarted)
    (hcallback : t.callback ≠ none → s.callback ≠ none)
    (hstate : ∀ emoji, t.session.vm.state = .oobConfirming emoji →
      s.session.vm.state = .oobConfirming emoji) : OneResult t := by
  refine ⟨fun hbusy => ?_, fun hsome => hexchange.trans (hone.result (hcallback hsome)),
    fun emoji hquestion => ?_⟩
  · rw [hstarted]
    apply hone.started
    rw [← hexchange]
    exact hbusy.imp_right
      (Or.imp hcallback fun ⟨emoji, hquestion⟩ => ⟨emoji, hstate emoji hquestion⟩)
  · obtain ⟨hnone, hcalled⟩ := hone.question emoji (hstate emoji hquestion)
    refine ⟨hexchange.trans hnone, ?_⟩
    by_contra hsome
    exact hcallback hsome hcalled

theorem OneResult.vm {vm : ViewModel} (hone : OneResult s)
    (hstate : ∀ emoji, vm.state = .oobConfirming emoji →
      s.session.vm.state = .oobConfirming emoji) :
    OneResult (s.setVm vm) :=
  hone.quiet rfl rfl id hstate

theorem OneResult.main (hone : OneResult s) (main : MainPoint) : OneResult (s.setMain main) :=
  hone.quiet rfl rfl id fun _ h => h

theorem OneResult.advance {callback : Callback} (hone : OneResult s)
    (hcallback : s.callback = some callback) (vm : ViewModel) (point : ResultPoint)
    (hstate : vm.state = s.session.vm.state) :
    OneResult ((s.setVm vm).advance callback point) :=
  hone.quiet rfl rfl (fun _ => by simp [hcallback]) fun emoji hquestion => by
    rwa [← hstate]

theorem OneResult.returns {exchange : Exchange} {hostPubkey : Bytes} (hone : OneResult s)
    (hexchange : s.session.backend.exchange = some exchange) :
    OneResult (s.result prim exchange hostPubkey) := by
  have hstarted : s.session.backend.exchangeStarted = true :=
    hone.started (.inl (by simp [hexchange]))
  refine ⟨fun _ => hstarted, fun _ => rfl, fun emoji hquestion => ?_⟩
  obtain ⟨hnone, -⟩ := hone.question emoji hquestion
  rw [hexchange] at hnone
  cases hnone

theorem pickedState_ne_confirming (result : PickPeerResult) (emoji : List String) :
    ViewModel.pickedState result ≠ .oobConfirming emoji := by
  cases result <;> simp [ViewModel.pickedState]

theorem OneResult.step {event : ThreadEvent} (hone : OneResult s)
    (hstep : ThreadStep prim oobCode keystoreKey s event t) : OneResult t := by
  cases hstep with
  | whole hwhole hmain hstep =>
      cases hstep with
      | screen hevent hvm =>
          exact hone.vm fun emoji h => (ViewModel.keeps_of_screen hwhole hevent hvm).confirming h
      | pick | pickIgnored | deliver => exact absurd rfl hwhole
      | report hsame => exact hone.backend (.of_eq hsame.exchange hsame.exchangeStarted)
      | bonded => exact hone.backend (.onBondedFromReceiver _)
      | run hthread => exact hone.backend (.runPostBondExchange _ _ _)
      | read hexchange | write hexchange =>
          exact hone.backend ⟨id, fun _ => .inl (by simp [hexchange])⟩
      | readFailed hexchange | writeFailed hexchange =>
          exact hone.backend ⟨id, fun hsome => absurd rfl hsome⟩
  | ignored => exact hone
  | start | cancel | pick => exact hone.main _
  | setScanning | setIdle =>
      refine (hone.vm ?_).main _
      intro emoji h
      cases h
  | clearPick | setPick =>
      refine (hone.vm ?_).main _
      exact fun _ h => h
  | pickPeer => exact (hone.backend (.pickPeer _ _)).main _
  | @setPicked result =>
      exact (hone.vm fun emoji h => absurd h (pickedState_ne_confirming result emoji)).main _
  | returns hexchange => exact hone.returns hexchange
  | leave hcallback => exact hone.quiet rfl rfl (fun h => absurd rfl h) fun _ h => h
  | check hcallback | readPick hcallback => exact hone.advance hcallback s.session.vm _ rfl
  | renamePick hcallback | stashBondKey hcallback | stashKeystoreAlias hcallback
  | stashPhonePubkey hcallback => exact hone.advance hcallback _ _ rfl
  | setConfirming hcallback =>
      have hcalled : s.callback ≠ none := by simp [hcallback]
      exact ⟨fun _ => hone.started (.inr (.inl hcalled)), fun _ => hone.result hcalled,
        fun _ _ => ⟨hone.result hcalled, rfl⟩⟩

end Syauth.Android.Pair
