import Syauth.Android.Pair.Attempt

/-! # Which results of the backend reach the view model

The backend resolves a deferred in about ten places and calls the view model back
from one of them.  Both the deferred and the flag that a worker claims the exchange
with belong to the backend, not to an attempt.
-/

namespace Syauth.Android.Pair

open Transition

section

variable (prim : Primitives) (oobCode : Bytes → List String) (keystoreKey : String → Pubkey)

/-- The result that a step passes to `lescResultDeferred.complete`.  A deferred keeps the
first one only, so it is read off a fresh one. -/
def Session.resolves (s : Session) (event : SessionEvent) : Option LescResult :=
  let fresh : Session := { s with backend := { s.backend with lescResultDeferred := none } }
  (fresh.step prim oobCode keystoreKey event).bind fun next => next.backend.lescResultDeferred

/-- The result that a step passes to the callback, which is `onLescResult`. -/
def Session.callsBack (s : Session) : SessionEvent → Option LescResult
  | .exchangeReturns =>
      match s.backend.exchange with
      | some ⟨address, keystoreAlias, phonePubkey, .phoneWritten hostPubkey⟩ =>
          match s.backend.exchangeResult prim
              ⟨address, keystoreAlias, phonePubkey, .phoneWritten hostPubkey⟩ hostPubkey with
          | .bonded bondKey peerName keystoreAlias phonePubkey =>
              some (.bonded bondKey peerName keystoreAlias phonePubkey)
          | .failed _ => none
      | _ => none
  | _ => none

/-- What the backend resolves in the step, if anything, is passed to the callback. -/
def Delivers (s : Session) (event : SessionEvent) : Prop :=
  s.resolves prim oobCode keystoreKey event = s.callsBack prim event

end

/-- The backend does not come to a failure in the step: the pairing request and the bond go
through, the worker that claims the exchange gets its key, both transfers go through, and the
host key has the right length. -/
def NoFailure (s : Session) : SessionEvent → Prop
  | .pairingRejected _ | .bondFailed | .hostRead (.error _) | .phoneWritten (.error _) => False
  | .workerRuns _ outcome => s.backend.exchangeStarted = true ∨ outcome = .minted
  | .exchangeReturns => ∀ exchange hostPubkey, s.backend.exchange = some exchange →
      exchange.phase = .phoneWritten hostPubkey → hostPubkey.length = pairPubkeyLen
  | _ => True

variable {prim : Primitives} {oobCode : Bytes → List String} {keystoreKey : String → Pubkey}
  {s next : Session} {event : SessionEvent}

theorem deferred_onBondedFromReceiver (backend : Backend) (address : String) :
    (backend.onBondedFromReceiver address).lescResultDeferred = backend.lescResultDeferred := by
  unfold Backend.onBondedFromReceiver
  split <;> rfl

theorem deferred_pickPeer (backend : Backend) (peer : PeerHandle) (outcome : PickOutcome) :
    (backend.pickPeer peer outcome).2.lescResultDeferred = backend.lescResultDeferred := by
  cases outcome <;> rfl

theorem deferred_runPostBondExchange {backend : Backend}
    (hfresh : backend.lescResultDeferred = none) (address : String) (outcome : BeginOutcome) :
    (backend.runPostBondExchange keystoreKey address outcome).lescResultDeferred = none ↔
      backend.exchangeStarted = true ∨ outcome = .minted := by
  unfold Backend.runPostBondExchange
  split
  · next hstarted => exact iff_of_true hfresh (.inl hstarted)
  · next hstarted =>
      cases outcome with
      | minted => exact iff_of_true hfresh (.inr rfl)
      | noExchange | keystoreUnavailable | mintFailed =>
          simp [Backend.complete, hfresh, hstarted]

variable (prim) in
theorem exchangeResult_cases (backend : Backend) (exchange : Exchange) (hostPubkey : Bytes) :
    (hostPubkey.length = pairPubkeyLen ∧ ∃ bondKey peerName keystoreAlias phonePubkey,
      backend.exchangeResult prim exchange hostPubkey =
        .bonded bondKey peerName keystoreAlias phonePubkey) ∨
    (hostPubkey.length ≠ pairPubkeyLen ∧ ∃ reason,
      backend.exchangeResult prim exchange hostPubkey = .failed reason) := by
  unfold Backend.exchangeResult
  split
  · next hlen => exact .inl ⟨hlen, _, _, _, _, rfl⟩
  · next hlen => exact .inr ⟨hlen, _, rfl⟩

theorem resolves_exchangeReturns {address keystoreAlias : String} {phonePubkey : Pubkey}
    {hostPubkey : Bytes}
    (hexchange : s.backend.exchange =
      some ⟨address, keystoreAlias, phonePubkey, .phoneWritten hostPubkey⟩) :
    s.resolves prim oobCode keystoreKey .exchangeReturns =
      some (s.backend.exchangeResult prim
        ⟨address, keystoreAlias, phonePubkey, .phoneWritten hostPubkey⟩ hostPubkey) := by
  simp only [Session.resolves, Session.step, hexchange, Session.deliver, Option.bind_some,
    Backend.complete, Option.none_or]
  rfl

theorem delivers_exchangeReturns_iff {address keystoreAlias : String} {phonePubkey : Pubkey}
    {hostPubkey : Bytes}
    (hexchange : s.backend.exchange =
      some ⟨address, keystoreAlias, phonePubkey, .phoneWritten hostPubkey⟩) :
    Delivers prim oobCode keystoreKey s .exchangeReturns ↔ NoFailure s .exchangeReturns := by
  rw [Delivers, resolves_exchangeReturns hexchange]
  simp only [Session.callsBack, hexchange, NoFailure]
  obtain ⟨hlen, _, _, _, _, hresult⟩ | ⟨hlen, _, hresult⟩ :=
    exchangeResult_cases prim s.backend _ hostPubkey
  · rw [hresult]
    refine iff_of_true rfl fun exchange other hother hphase => ?_
    cases hother
    cases hphase
    exact hlen
  · rw [hresult]
    refine iff_of_false (fun hsame => Option.some_ne_none _ hsame) fun hall => hlen ?_
    exact hall _ hostPubkey rfl rfl

/-- The backend calls back with what it resolves unless it is a failure. -/
theorem delivers_iff_noFailure (hstep : s.step prim oobCode keystoreKey event = some next) :
    Delivers prim oobCode keystoreKey s event ↔ NoFailure s event := by
  unfold Delivers
  cases event with
  | peerPicked peer outcome =>
      refine iff_of_true ?_ trivial
      simp only [Session.resolves, Session.step, Session.callsBack]
      split
      · exact deferred_pickPeer _ peer outcome
      · rfl
  | pairingRejected variant =>
      refine iff_of_false ?_ id
      simp [Session.resolves, Session.step, Session.callsBack, Backend.onPairingRejected,
        Backend.complete]
  | bondFailed =>
      refine iff_of_false ?_ id
      simp [Session.resolves, Session.step, Session.callsBack, Backend.onBondFailed,
        Backend.complete]
  | bonded address => exact iff_of_true (deferred_onBondedFromReceiver _ address) trivial
  | workerRuns i outcome =>
      simp only [Session.resolves, Session.step] at hstep ⊢
      split at hstep
      · cases hstep
      · next address hthread =>
          simp only [Option.bind_some]
          exact deferred_runPostBondExchange rfl address outcome
  | hostRead result =>
      simp only [Session.resolves, Session.step] at hstep ⊢
      split at hstep
      · next address keystoreAlias phonePubkey hexchange =>
          simp only [hexchange]
          cases result with
          | ok hostPubkey => exact iff_of_true rfl trivial
          | error message =>
              refine iff_of_false ?_ id
              simp [Backend.exchangeFails, Backend.complete, Session.callsBack]
      · cases hstep
  | phoneWritten result =>
      simp only [Session.resolves, Session.step] at hstep ⊢
      split at hstep
      · next address keystoreAlias phonePubkey hostPubkey hexchange =>
          simp only [hexchange]
          cases result with
          | ok done => exact iff_of_true rfl trivial
          | error message =>
              refine iff_of_false ?_ id
              simp [Backend.exchangeFails, Backend.complete, Session.callsBack]
      · cases hstep
  | exchangeReturns =>
      simp only [Session.step] at hstep
      split at hstep
      · next hexchange => exact delivers_exchangeReturns_iff hexchange
      · cases hstep
  | associated i result =>
      refine iff_of_true ?_ trivial
      simp only [Session.resolves, Session.step, Session.callsBack]
      cases s.vm.onAssociated i result <;> rfl
  | startScanTapped | cancelTapped | pairingAccepted | oobYesTapped | oobNoTapped =>
      exact iff_of_true rfl trivial

/-! ## The view model after a result -/

def ViewModel.Negotiating (vm : ViewModel) : Prop := ∃ code, vm.state = .lescNegotiating code

theorem not_negotiating_onLescResult (vm : ViewModel) (result : LescResult) :
    ¬ (vm.onLescResult oobCode result).Negotiating := by
  rintro ⟨code, hcode⟩
  unfold ViewModel.onLescResult at hcode
  split at hcode
  · cases result <;> cases hcode
  · next hstate => exact hstate code hcode

variable (prim oobCode keystoreKey) in
/-- When the step resolves a result, the view model does not stay in the negotiation. -/
def LeavesNegotiation (s : Session) (event : SessionEvent) : Prop :=
  ∀ next, s.step prim oobCode keystoreKey event = some next →
    (s.resolves prim oobCode keystoreKey event).isSome → ¬ next.vm.Negotiating

theorem resolves_of_callsBack {result : LescResult}
    (hcalls : s.callsBack prim event = some result) :
    s.resolves prim oobCode keystoreKey event = some result := by
  unfold Session.callsBack at hcalls
  split at hcalls
  · split at hcalls
    · next hexchange =>
        rw [resolves_exchangeReturns hexchange]
        split at hcalls
        · next hresult =>
            rw [hresult]
            exact hcalls
        · cases hcalls
    · cases hcalls
  · cases hcalls

/-- A step that resolves a result touches the view model through the callback only. -/
theorem vm_of_resolves {result : LescResult}
    (hresolves : s.resolves prim oobCode keystoreKey event = some result)
    (hstep : s.step prim oobCode keystoreKey event = some next) :
    next.vm = ((s.callsBack prim event).map (s.vm.onLescResult oobCode)).getD s.vm := by
  cases event with
  | pairingRejected | bondFailed =>
      cases hstep
      rfl
  | workerRuns i outcome =>
      simp only [Session.step] at hstep
      split at hstep
      · cases hstep
      · cases hstep
        rfl
  | hostRead reading | phoneWritten reading =>
      simp only [Session.step] at hstep
      split at hstep
      · cases reading <;> (cases hstep; rfl)
      · cases hstep
  | exchangeReturns =>
      simp only [Session.step] at hstep
      split at hstep
      · next hexchange =>
          cases hstep
          simp only [Session.callsBack, hexchange, Session.deliver]
          cases s.backend.exchangeResult prim _ _ <;> rfl
      · cases hstep
  | startScanTapped | cancelTapped | peerPicked | pairingAccepted | bonded | oobYesTapped
  | oobNoTapped | associated =>
      have hnone := (delivers_iff_noFailure hstep).mpr trivial
      rw [Delivers, hresolves] at hnone
      cases hnone

/-- A failure that is resolved during the negotiation leaves the view model in it. -/
theorem leavesNegotiation_iff (hstep : s.step prim oobCode keystoreKey event = some next) :
    LeavesNegotiation prim oobCode keystoreKey s event ↔
      (s.vm.Negotiating → NoFailure s event) := by
  rw [← delivers_iff_noFailure hstep]
  cases hcalls : s.callsBack prim event with
  | some called =>
      refine iff_of_true ?_ fun _ => by rw [Delivers, resolves_of_callsBack hcalls, hcalls]
      intro other hother _ hnegotiating
      rw [vm_of_resolves (resolves_of_callsBack hcalls) hother, hcalls] at hnegotiating
      exact not_negotiating_onLescResult s.vm called hnegotiating
  | none =>
      cases hresolves : s.resolves prim oobCode keystoreKey event with
      | none =>
          refine iff_of_true ?_ fun _ => by rw [Delivers, hresolves, hcalls]
          intro other _ hsome
          rw [hresolves] at hsome
          cases hsome
      | some result =>
          -- The deferred is resolved and nobody is told.
          have hvm := vm_of_resolves hresolves hstep
          rw [hcalls] at hvm
          constructor
          · intro hleaves hnegotiating
            refine absurd ?_ (hleaves next hstep (by rw [hresolves]; rfl))
            rw [hvm]
            exact hnegotiating
          · intro hdelivers other hother _ hnegotiating
            rw [hstep] at hother
            cases hother
            rw [hvm] at hnegotiating
            have hdone := hdelivers hnegotiating
            rw [Delivers, hresolves, hcalls] at hdone
            cases hdone

/-- An exchange that ends well during a negotiation is shown, whatever happened around it. -/
theorem step_exchangeReturns_of_negotiating {exchange : Exchange} (hostPubkey : Pubkey)
    (hnegotiating : s.vm.Negotiating) (hexchange : s.backend.exchange = some exchange)
    (hphase : exchange.phase = .phoneWritten hostPubkey.val) :
    ∃ next, s.step prim oobCode keystoreKey .exchangeReturns = some next ∧
      next.vm.state =
        .oobConfirming (oobCode (bondKeyFromPubkeys prim hostPubkey exchange.phonePubkey).val) := by
  obtain ⟨address, keystoreAlias, phonePubkey, phase⟩ := exchange
  cases hphase
  obtain ⟨code, hstate⟩ := hnegotiating
  have hresult : s.backend.exchangeResult prim
      ⟨address, keystoreAlias, phonePubkey, .phoneWritten hostPubkey.val⟩ hostPubkey.val =
      .bonded (bondKeyFromPubkeys prim hostPubkey phonePubkey).val
        (if s.backend.pickedName = "" then address else s.backend.pickedName) keystoreAlias
        phonePubkey.val := dif_pos hostPubkey.property
  refine ⟨s.deliver prim oobCode
    ⟨address, keystoreAlias, phonePubkey, .phoneWritten hostPubkey.val⟩ hostPubkey.val, ?_, ?_⟩
  · simp only [Session.step, hexchange]
  · simp only [Session.deliver, hresult, ViewModel.onLescResult, hstate]

/-! ## A new attempt -/

/-- An attempt in which everything outside the backend goes well: the peer is picked, it is
or becomes bonded, the worker gets its key, and both transfers go through. -/
def newAttempt (peer : PeerHandle) (alreadyBonded : Bool) (worker : Nat) (hostPubkey : Bytes) :
    List SessionEvent :=
  (if alreadyBonded then [.startScanTapped, .peerPicked peer .alreadyBonded]
    else [.startScanTapped, .peerPicked peer .bondStarted, .bonded peer.id]) ++
    [.workerRuns worker .minted, .hostRead (.ok hostPubkey), .phoneWritten (.ok ()),
      .exchangeReturns]

variable (prim oobCode keystoreKey) in
/-- The attempt, made from the state with its own worker, ends with the code of its own key on
the screen. -/
def AttemptDelivered (s : Session) (peer : PeerHandle) (alreadyBonded : Bool)
    (hostPubkey : Pubkey) : Prop :=
  let bondKey := bondKeyFromPubkeys prim hostPubkey
    (keystoreKey (Backend.keystoreAliasFor peer.id))
  ∃ t, (session prim oobCode keystoreKey).run s
      (newAttempt peer alreadyBonded s.backend.threads.length hostPubkey.val) = some t ∧
    t.vm.state = .oobConfirming (oobCode bondKey.val) ∧ t.vm.stashedBondKey = some bondKey.val

/-- The session once the peer is picked and its worker has been started. -/
def Session.picked (s : Session) (peer : PeerHandle) : Session where
  vm := { s.vm with
    pickedPeer := some peer, state := .lescNegotiating s.backend.lastPairingCode }
  backend := { s.backend with
    pickedAddress := some peer.id, pickedName := peer.name
    threads := s.backend.threads ++ [peer.id] }

theorem run_newAttempt (hidle : s.vm.state = .idle) (peer : PeerHandle) (alreadyBonded : Bool)
    (worker : Nat) (hostPubkey : Bytes) :
    (session prim oobCode keystoreKey).run s
        (newAttempt peer alreadyBonded worker hostPubkey) =
      (session prim oobCode keystoreKey).run (s.picked peer)
        [.workerRuns worker .minted, .hostRead (.ok hostPubkey), .phoneWritten (.ok ()),
          .exchangeReturns] := by
  have hscan : (session prim oobCode keystoreKey).step s .startScanTapped =
      some { s with vm := { s.vm with state := .scanning } } := by
    simp only [session, Session.step, ViewModel.onStartScanTapped, hidle]
  cases alreadyBonded with
  | true =>
      simp only [newAttempt, if_true, List.cons_append, List.nil_append]
      rw [System.run_cons, hscan, Option.bind_some]
      rfl
  | false =>
      have hpick : (session prim oobCode keystoreKey).step
          { s with vm := { s.vm with state := .scanning } } (.peerPicked peer .bondStarted) =
          some ⟨(s.picked peer).vm, (s.backend.pickPeer peer .bondStarted).2⟩ := rfl
      -- The bond is with the picked device, so that the receiver starts the worker.
      have hbonded : (s.backend.pickPeer peer .bondStarted).2.onBondedFromReceiver peer.id =
          (s.picked peer).backend := if_neg (by simp [Backend.pickPeer])
      have hpicked : (session prim oobCode keystoreKey).step
          ⟨(s.picked peer).vm, (s.backend.pickPeer peer .bondStarted).2⟩ (.bonded peer.id) =
          some (s.picked peer) := by
        simp only [session, Session.step, hbonded]
      simp only [newAttempt, Bool.false_eq_true, if_false, List.cons_append, List.nil_append]
      rw [System.run_cons, hscan, Option.bind_some, System.run_cons, hpick, Option.bind_some,
        System.run_cons, hpicked, Option.bind_some]

/-- The worker that the pick started runs. -/
theorem step_workerRuns_picked (s : Session) (peer : PeerHandle) :
    (session prim oobCode keystoreKey).step (s.picked peer)
        (.workerRuns s.backend.threads.length .minted) =
      some { s.picked peer with
        backend := { (s.picked peer).backend with
          threads := (s.picked peer).backend.threads.eraseIdx s.backend.threads.length
          }.runPostBondExchange keystoreKey peer.id .minted } := by
  have hthread : (s.picked peer).backend.threads[s.backend.threads.length]? = some peer.id :=
    List.getElem?_concat_length
  simp only [session, Session.step, hthread]

/-- The exchange of an attempt. -/
def ownExchange (keystoreKey : String → Pubkey) (peer : PeerHandle) (phase : ExchangePhase) :
    Exchange :=
  ⟨peer.id, Backend.keystoreAliasFor peer.id, keystoreKey (Backend.keystoreAliasFor peer.id), phase⟩

/-- The session while the worker of the attempt is in its exchange. -/
def Session.exchanging (s : Session) (keystoreKey : String → Pubkey) (peer : PeerHandle)
    (phase : ExchangePhase) : Session :=
  { s.picked peer with
    backend := { (s.picked peer).backend with
      threads := (s.picked peer).backend.threads.eraseIdx s.backend.threads.length
      exchangeStarted := true
      exchange := some (ownExchange keystoreKey peer phase) } }

/-- The worker of an attempt that comes first gets the exchange, and its result is shown. -/
theorem attemptDelivered_of_unclaimed (hidle : s.vm.state = .idle)
    (hunclaimed : s.backend.exchangeStarted = false) (peer : PeerHandle) (alreadyBonded : Bool)
    (hostPubkey : Pubkey) :
    AttemptDelivered prim oobCode keystoreKey s peer alreadyBonded hostPubkey := by
  have hbegun : (session prim oobCode keystoreKey).step (s.picked peer)
      (.workerRuns s.backend.threads.length .minted) =
      some (s.exchanging keystoreKey peer .minted) := by
    have hfree : (s.picked peer).backend.exchangeStarted = false := hunclaimed
    simp only [step_workerRuns_picked, Backend.runPostBondExchange, hfree]
    rfl
  have hrest : (session prim oobCode keystoreKey).run (s.exchanging keystoreKey peer .minted)
      [.hostRead (.ok hostPubkey.val), .phoneWritten (.ok ()), .exchangeReturns] =
      some ((s.exchanging keystoreKey peer (.phoneWritten hostPubkey.val)).deliver prim oobCode
        (ownExchange keystoreKey peer (.phoneWritten hostPubkey.val)) hostPubkey.val) := rfl
  have hresult : (s.exchanging keystoreKey peer
        (.phoneWritten hostPubkey.val)).backend.exchangeResult prim
      (ownExchange keystoreKey peer (.phoneWritten hostPubkey.val)) hostPubkey.val =
      .bonded (bondKeyFromPubkeys prim hostPubkey
          (keystoreKey (Backend.keystoreAliasFor peer.id))).val
        (if peer.name = "" then peer.id else peer.name) (Backend.keystoreAliasFor peer.id)
        (keystoreKey (Backend.keystoreAliasFor peer.id)).val := dif_pos hostPubkey.property
  unfold AttemptDelivered
  rw [run_newAttempt hidle, System.run_cons, hbegun, Option.bind_some]
  refine ⟨_, hrest, ?_, ?_⟩
  · simp only [Session.deliver, hresult]
    rfl
  · simp only [Session.deliver, hresult]
    rfl

/-- A worker that finds the exchange claimed returns at once, and the view model waits. -/
theorem not_attemptDelivered_of_claimed (hidle : s.vm.state = .idle)
    (hclaimed : s.backend.exchangeStarted = true) (hover : s.backend.exchange = none)
    (peer : PeerHandle) (alreadyBonded : Bool) (hostPubkey : Pubkey) :
    ¬ AttemptDelivered prim oobCode keystoreKey s peer alreadyBonded hostPubkey := by
  rintro ⟨t, hrun, -⟩
  have hstarted : (s.picked peer).backend.exchangeStarted = true := hclaimed
  have hnone : (s.picked peer).backend.exchange = none := hover
  rw [run_newAttempt hidle, System.run_cons, step_workerRuns_picked, Option.bind_some] at hrun
  simp only [Backend.runPostBondExchange, hstarted, if_true] at hrun
  obtain ⟨read, hread, -⟩ := (System.run_cons_eq_some _).mp hrun
  simp only [session, Session.step, hnone] at hread
  cases hread

/-! ## Runs -/

/-- The backend passes on what it resolves as long as it comes to no failure; the view model
leaves the negotiation with every result as long as no failure is resolved during one; an
exchange that ends well during a negotiation is shown; and a new attempt gets through when no
worker has claimed the exchange before, and does not when one has and its exchange is over. -/
theorem pair_results_delivered_iff (prim : Primitives) (oobCode : Bytes → List String)
    (keystoreKey : String → Pubkey) (events : List SessionEvent) (s : Session)
    (hrun : (session prim oobCode keystoreKey).run .new events = some s) :
    ((session prim oobCode keystoreKey).AllSteps (Delivers prim oobCode keystoreKey) .new events ↔
      (session prim oobCode keystoreKey).AllSteps NoFailure .new events) ∧
    ((session prim oobCode keystoreKey).AllSteps (LeavesNegotiation prim oobCode keystoreKey)
        .new events ↔
      (session prim oobCode keystoreKey).AllSteps
        (fun s event => s.vm.Negotiating → NoFailure s event) .new events) ∧
    (∀ exchange, ∀ hostPubkey : Pubkey, s.vm.Negotiating → s.backend.exchange = some exchange →
      exchange.phase = .phoneWritten hostPubkey.val →
      ∃ next, s.step prim oobCode keystoreKey .exchangeReturns = some next ∧
        next.vm.state =
          .oobConfirming (oobCode (bondKeyFromPubkeys prim hostPubkey exchange.phonePubkey).val)) ∧
    (s.vm.state = .idle → ∀ peer alreadyBonded hostPubkey,
      (s.backend.exchangeStarted = false →
        AttemptDelivered prim oobCode keystoreKey s peer alreadyBonded hostPubkey) ∧
      (s.backend.exchangeStarted = true → s.backend.exchange = none →
        ¬ AttemptDelivered prim oobCode keystoreKey s peer alreadyBonded hostPubkey)) := by
  refine ⟨?_, ?_, ?_, ?_⟩
  · exact System.allSteps_congr _ (fun _ _ _ hstep => delivers_iff_noFailure hstep) hrun
  · exact System.allSteps_congr _ (fun _ _ _ hstep => leavesNegotiation_iff hstep) hrun
  · intro exchange hostPubkey hnegotiating hexchange hphase
    exact step_exchangeReturns_of_negotiating hostPubkey hnegotiating hexchange hphase
  · intro hidle peer alreadyBonded hostPubkey
    constructor
    · intro hunclaimed
      exact attemptDelivered_of_unclaimed hidle hunclaimed peer alreadyBonded hostPubkey
    · intro hclaimed hover
      exact not_attemptDelivered_of_claimed hidle hclaimed hover peer alreadyBonded hostPubkey

/-- The user cancels before the bond comes up. -/
def cancelledAttempt : List SessionEvent :=
  [.startScanTapped, .peerPicked laptop .bondStarted, .cancelTapped]

theorem pair_results_delivered_iff_cancelled :
    ∃ s, (session KnownAnswer.primitives sampleWords sampleKeystore).run .new cancelledAttempt =
        some s ∧
      AttemptDelivered KnownAnswer.primitives sampleWords sampleKeystore s laptop true
        KnownAnswer.otherPubkey := by
  refine ⟨_, rfl, ?_⟩
  exact ((pair_results_delivered_iff KnownAnswer.primitives sampleWords sampleKeystore
    cancelledAttempt _ rfl).2.2.2 rfl laptop true KnownAnswer.otherPubkey).1 rfl

/-- A read of the host key that fails, after which the user gives up. -/
def failedAttempt : List SessionEvent :=
  [.startScanTapped, .peerPicked laptop .alreadyBonded, .workerRuns 0 .minted,
    .hostRead (.error "timeout"), .cancelTapped]

/-- A bond that fails is resolved and not passed on, so that the screen keeps showing the
negotiation; and after an exchange that failed no later attempt gets through. -/
theorem failed_pairing_not_delivered :
    (∃ s next, (session KnownAnswer.primitives sampleWords sampleKeystore).run .new
          [.startScanTapped, .peerPicked laptop .bondStarted] = some s ∧
        s.step KnownAnswer.primitives sampleWords sampleKeystore .bondFailed = some next ∧
        s.resolves KnownAnswer.primitives sampleWords sampleKeystore .bondFailed =
          some (.failed "OS bond cancelled or failed (BOND_BONDING -> BOND_NONE)") ∧
        s.callsBack KnownAnswer.primitives .bondFailed = none ∧
        next.vm.Negotiating) ∧
    (∃ s, (session KnownAnswer.primitives sampleWords sampleKeystore).run .new failedAttempt =
          some s ∧
        s.vm.state = .idle ∧
        ¬ AttemptDelivered KnownAnswer.primitives sampleWords sampleKeystore s laptop true
          KnownAnswer.otherPubkey) := by
  constructor
  · exact ⟨_, _, rfl, rfl, rfl, rfl, ⟨_, rfl⟩⟩
  · exact ⟨_, rfl, rfl, not_attemptDelivered_of_claimed rfl rfl rfl _ _ _⟩

end Syauth.Android.Pair
