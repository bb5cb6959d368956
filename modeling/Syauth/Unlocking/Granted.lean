import Syauth.Android.Authenticity
import Syauth.Unlocking.Approved

/-! # An approval unlocks

The other direction of `Syauth.Unlocking.Approved`: where the daemon knows the phone and the
phone serves the daemon, challenges that are approved on the phone are granted, one after the
other and as many as there are nonces.  The phone is delivered what the daemon notified, and
the daemon gets what the phone signed.
-/

namespace Syauth.Unlocking

open Presenced Transition
open Android (ApprovalActivity ApprovalIntent BondRecord Phone PhoneEvent PhoneObservation)

variable {prim : Primitives} {s t : State} {c : CallId} {peerId : String} {requestNonce : Bytes}

/-! ## The daemon's part -/

/-- The steps of a call up to its wait for the phone. -/
def callSteps (c : CallId) (peerId : String) (requestNonce : Bytes) (nonce : Nonce)
    (now : SystemTime) : List Event :=
  [.accept c (.challenge peerId requestNonce), .call c (.dispatch now), .call c .lookup,
    .call c .acquire, .call c (.stamp now), .call c (.draw (.ok nonce) now),
    .call c (.notified (.ok ()) now)]

/-- The steps from the phone's response to the answer. -/
def answerSteps (c : CallId) (response : Bytes) (now : SystemTime) : List Event :=
  [.call c (.responded (.ok response) now), .call c (.check now), .call c (.audit true),
    .call c .finish]

def ownedBy (c : CallId) : Event → Prop
  | .accept c' _ => c' = c
  | .call c' _ => c' = c
  | .loop _ => False

/-- What the steps of a call leave as it is. -/
structure Spared (c : CallId) (s t : State) : Prop where
  orchestrated : t.orchestrated = s.orchestrated
  peers : t.live.peers = s.live.peers
  others : ∀ c', c' ≠ c → t.connections c' = s.connections c'

theorem spared_of_run {events : List Event} (hown : ∀ event ∈ events, ownedBy c event)
    (hrun : (daemon prim).run s events = some t) : Spared c s t := by
  refine (daemon prim).run_invariant_of_allSteps (fun _ event => ownedBy c event) (Spared c s)
    ?_ ⟨rfl, rfl, fun _ _ => rfl⟩
    ((daemon prim).allSteps_of_forall (fun event hmem _ => hown event hmem) s) hrun
  intro u event next hspared howned hstep
  cases step_sound hstep with
  | accept hnew =>
      obtain rfl := howned
      refine ⟨hspared.orchestrated, hspared.peers, fun c' hne => ?_⟩
      exact (Function.update_of_ne hne _ _).trans (hspared.others c' hne)
  | call hconn hcall =>
      obtain rfl := howned
      obtain ⟨hpeers, -, -, phase, hconnections⟩ := hcall.frame
      refine ⟨hcall.orchestrated_eq.trans hspared.orchestrated, hpeers.trans hspared.peers,
        fun c' hne => ?_⟩
      rw [hconnections, Function.update_of_ne hne]
      exact hspared.others c' hne
  | loop hloop => exact absurd howned id

/-- A step after which the call is not answered shows what the call does in it. -/
theorem observe_of_unanswered {request : Request} {phase : Phase} {event : CallEvent}
    {conn : Connection} (hconn : s.connections c = some conn)
    (hstep : (daemon prim).step s (.call c event) = some t)
    (hnext : t.connections c = some ⟨request, phase⟩)
    (hopen : ∀ response, phase ≠ .answered response) :
    observe prim s (.call c event) = observeCall s c conn.request conn.phase event := by
  have hanswer : t.answer c = [] := by
    unfold State.answer
    split
    next response hanswered =>
      rw [hnext] at hanswered
      cases hanswered
      exact absurd rfl (hopen response)
    next => rfl
  rw [observe_call hconn hstep, hanswer, List.append_nil]

theorem step_accept (request : Request) (hnew : s.connections c = none) :
    (daemon prim).step s (.accept c request) =
      some { s with
        connections := Function.update s.connections c (some ⟨request, .decoded⟩) } := by
  simp only [daemon, step, hnew]

theorem step_dispatch (now : SystemTime) (horch : s.orchestrated = true)
    (hconn : s.connections c = some ⟨.challenge peerId requestNonce, .decoded⟩) :
    (daemon prim).step s (.call c (.dispatch now)) =
      some (s.advance c ⟨.challenge peerId requestNonce, .decoded⟩
        (.looking (epochMillis now))) := by
  simp only [daemon, step, hconn, callStep, dispatchStep, horch, if_true]

variable {peer : PeerState} {tStartMs : Nat} {nonce : Nonce}

theorem step_lookup
    (hconn : s.connections c = some ⟨.challenge peerId requestNonce, .looking tStartMs⟩)
    (hpeer : lookupPeer s.live peerId = some peer) :
    (daemon prim).step s (.call c .lookup) =
      some (s.advance c ⟨.challenge peerId requestNonce, .looking tStartMs⟩
        (.acquiring tStartMs peer)) := by
  rw [step_of_phase prim _ hconn Phase.noConfusion]
  simp only [challengeStep, hpeer]

theorem step_acquire
    (hconn : s.connections c = some ⟨.challenge peerId requestNonce, .acquiring tStartMs peer⟩)
    (hslot : (s.live.cells peer.cell).slotHolder = none) :
    (daemon prim).step s (.call c .acquire) =
      some ((s.updateCell peer.cell fun cell => { cell with slotHolder := some c }).advance c
        ⟨.challenge peerId requestNonce, .acquiring tStartMs peer⟩ (.stamping tStartMs peer)) := by
  rw [step_of_phase prim _ hconn Phase.noConfusion]
  simp only [challengeStep, hslot]

theorem step_stamp (now : SystemTime)
    (hconn : s.connections c = some ⟨.challenge peerId requestNonce, .stamping tStartMs peer⟩) :
    (daemon prim).step s (.call c (.stamp now)) =
      some ((s.updateCell peer.cell fun cell =>
        { cell with liveness := ⟨some now, some now⟩ }).advance c
          ⟨.challenge peerId requestNonce, .stamping tStartMs peer⟩ (.drawing tStartMs peer)) :=
  step_of_phase prim _ hconn Phase.noConfusion

/-- A peer whose slot is free gets as far as the draw of a nonce. -/
theorem run_to_drawing (now : SystemTime)
    (hconn : s.connections c = some ⟨.challenge peerId requestNonce, .looking tStartMs⟩)
    (hpeer : lookupPeer s.live peerId = some peer)
    (hslot : (s.live.cells peer.cell).slotHolder = none) :
    ∃ t, (daemon prim).run s [.call c .lookup, .call c .acquire, .call c (.stamp now)] = some t ∧
      (daemon prim).trace (observe prim) s [.call c .lookup, .call c .acquire,
        .call c (.stamp now)] = [.lookedUp c peerId (s.live.peers.lookup peerId)] ∧
      t.connections c = some ⟨.challenge peerId requestNonce, .drawing tStartMs peer⟩ ∧
      (t.live.cells peer.cell).nonceCache = (s.live.cells peer.cell).nonceCache := by
  let looked : State := s.advance c ⟨.challenge peerId requestNonce, .looking tStartMs⟩
    (.acquiring tStartMs peer)
  have hlooked : looked.connections c =
      some ⟨.challenge peerId requestNonce, .acquiring tStartMs peer⟩ := Function.update_self _ _ _
  have hlookup : (daemon prim).step s (.call c .lookup) = some looked := step_lookup hconn hpeer
  obtain ⟨acquired, hacquire, hacquired, hkept⟩ : ∃ acquired,
      (daemon prim).step looked (.call c .acquire) = some acquired ∧
      acquired.connections c =
        some ⟨.challenge peerId requestNonce, .stamping tStartMs peer⟩ ∧
      (acquired.live.cells peer.cell).nonceCache = (s.live.cells peer.cell).nonceCache := by
    refine ⟨_, step_acquire hlooked hslot, Function.update_self _ _ _, ?_⟩
    simp [looked, State.advance, State.updateCell, Live.updateCell]
  obtain ⟨stamped, hstamp, hstamped, hcache⟩ : ∃ stamped,
      (daemon prim).step acquired (.call c (.stamp now)) = some stamped ∧
      stamped.connections c = some ⟨.challenge peerId requestNonce, .drawing tStartMs peer⟩ ∧
      (stamped.live.cells peer.cell).nonceCache =
        (acquired.live.cells peer.cell).nonceCache := by
    refine ⟨_, step_stamp now hacquired, Function.update_self _ _ _, ?_⟩
    simp [State.advance, State.updateCell, Live.updateCell]
  refine ⟨stamped, (daemon prim).run_cons_eq_some.mpr ⟨looked, hlookup,
    (daemon prim).run_cons_eq_some.mpr ⟨acquired, hacquire,
      (daemon prim).run_cons_eq_some.mpr ⟨stamped, hstamp, rfl⟩⟩⟩, ?_, hstamped,
    hcache.trans hkept⟩
  rw [(daemon prim).trace_cons_of_step hlookup, (daemon prim).trace_cons_of_step hacquire,
    (daemon prim).trace_cons_of_step hstamp,
    observe_of_unanswered hconn hlookup hlooked (fun _ => Phase.noConfusion),
    observe_of_unanswered hlooked hacquire hacquired (fun _ => Phase.noConfusion),
    observe_of_unanswered hacquired hstamp hstamped (fun _ => Phase.noConfusion)]
  rfl

/-- From the draw of the nonce to the wait for the phone, the frame is notified. -/
theorem run_to_waiting (now : SystemTime) (nonce : Nonce)
    (hconn : s.connections c = some ⟨.challenge peerId requestNonce, .drawing tStartMs peer⟩) :
    ∃ t, (daemon prim).run s [.call c (.draw (.ok nonce) now), .call c (.notified (.ok ()) now)] =
        some t ∧
      (daemon prim).trace (observe prim) s [.call c (.draw (.ok nonce) now),
          .call c (.notified (.ok ()) now)] =
        [.drew c nonce, .notified c peerId (Transaction.drawn prim tStartMs peer nonce).encoded,
          .waitCalled c peerId] ∧
      t.connections c = some ⟨.challenge peerId requestNonce,
        .waiting (.drawn prim tStartMs peer nonce)⟩ ∧ t.live = s.live := by
  let tx : Transaction := .drawn prim tStartMs peer nonce
  let drew : State := s.advance c ⟨.challenge peerId requestNonce, .drawing tStartMs peer⟩
    (.notifying tx)
  let waiting : State := drew.advance c ⟨.challenge peerId requestNonce, .notifying tx⟩
    (.waiting tx)
  have hdraw : (daemon prim).step s (.call c (.draw (.ok nonce) now)) = some drew :=
    step_draw nonce now hconn
  have hdrew : drew.connections c = some ⟨.challenge peerId requestNonce, .notifying tx⟩ :=
    Function.update_self _ _ _
  have hnotify : (daemon prim).step drew (.call c (.notified (.ok ()) now)) = some waiting :=
    step_notified (.ok ()) now hdrew
  have hwaiting : waiting.connections c = some ⟨.challenge peerId requestNonce, .waiting tx⟩ :=
    Function.update_self _ _ _
  refine ⟨waiting, (daemon prim).run_cons_eq_some.mpr ⟨drew, hdraw,
    (daemon prim).run_cons_eq_some.mpr ⟨waiting, hnotify, rfl⟩⟩, ?_, hwaiting, rfl⟩
  rw [(daemon prim).trace_cons_of_step hdraw, (daemon prim).trace_cons_of_step hnotify,
    observe_of_unanswered hconn hdraw hdrew (fun _ => Phase.noConfusion),
    observe_of_unanswered hdrew hnotify hwaiting (fun _ => Phase.noConfusion)]
  rfl

/-- The frame that the call notified. -/
def notifiedBy (c : CallId) (seen : List Observation) : Option Bytes :=
  seen.findSome? fun
    | .notified c' _ frameBytes => if c' = c then some frameBytes else none
    | _ => none

/-- A challenge of a live peer with a free slot notifies its frame and waits for the phone. -/
theorem run_callSteps (now : SystemTime) (nonce : Nonce) (requestNonce : Bytes)
    (horch : s.orchestrated = true) (hnew : s.connections c = none)
    (hpeer : lookupPeer s.live peerId = some peer)
    (hslot : (s.live.cells peer.cell).slotHolder = none) :
    ∃ t, (daemon prim).run s (callSteps c peerId requestNonce nonce now) = some t ∧
      notifiedBy c ((daemon prim).trace (observe prim) s
        (callSteps c peerId requestNonce nonce now)) =
          some (challengeBody nonce ++
            (computeTag prim peer.bondKey (challengeBody nonce)).val) ∧
      t.connections c = some ⟨.challenge peerId requestNonce,
        .waiting (.drawn prim (epochMillis now) peer nonce)⟩ ∧
      (t.live.cells peer.cell).nonceCache = (s.live.cells peer.cell).nonceCache := by
  let accepted : State :=
    { s with
      connections := Function.update s.connections c
        (some ⟨.challenge peerId requestNonce, .decoded⟩) }
  let looking : State :=
    accepted.advance c ⟨.challenge peerId requestNonce, .decoded⟩ (.looking (epochMillis now))
  have haccept : (daemon prim).step s (.accept c (.challenge peerId requestNonce)) =
      some accepted := step_accept _ hnew
  have haccepted : accepted.connections c = some ⟨.challenge peerId requestNonce, .decoded⟩ :=
    Function.update_self _ _ _
  have hdispatch : (daemon prim).step accepted (.call c (.dispatch now)) = some looking :=
    step_dispatch now horch haccepted
  have hconn : looking.connections c =
      some ⟨.challenge peerId requestNonce, .looking (epochMillis now)⟩ :=
    Function.update_self _ _ _
  obtain ⟨drawing, hdrawing, hlookup, hdrew, hcache⟩ := run_to_drawing now hconn
    (show lookupPeer looking.live peerId = some peer from hpeer) hslot
  obtain ⟨waiting, hwaiting, hnotified, hwaits, hlive⟩ := run_to_waiting now nonce hdrew
  refine ⟨waiting, ?_, ?_, hwaits, hlive ▸ hcache⟩
  · exact (daemon prim).run_cons_eq_some.mpr ⟨accepted, haccept,
      (daemon prim).run_cons_eq_some.mpr ⟨looking, hdispatch,
        (daemon prim).run_append_eq_some.mpr ⟨drawing, hdrawing, hwaiting⟩⟩⟩
  · have hsilent : observe prim accepted (.call c (.dispatch now)) = [] :=
      observe_of_unanswered haccepted hdispatch hconn (fun _ => Phase.noConfusion)
    have htrace : (daemon prim).trace (observe prim) s
        (callSteps c peerId requestNonce nonce now) =
          [.lookedUp c peerId (looking.live.peers.lookup peerId), .drew c nonce,
            .notified c peerId (Transaction.drawn prim (epochMillis now) peer nonce).encoded,
            .waitCalled c peerId] := by
      refine ((daemon prim).trace_cons_of_step haccept _).trans ?_
      refine ((daemon prim).trace_cons_of_step hdispatch _).trans ?_
      rw [hsilent, List.nil_append]
      refine ((daemon prim).trace_append hdrawing).trans ?_
      rw [hlookup, hnotified]
      rfl
    rw [htrace]
    simp [notifiedBy, Transaction.drawn]

theorem step_check {tx : Transaction} {signature : Signature} (now : SystemTime)
    (hconn : s.connections c = some ⟨.challenge peerId requestNonce, .checking tx signature⟩)
    (hfresh : (s.live.cells tx.peer.cell).nonceCache.contains tx.nonce = false) :
    ∃ t, (daemon prim).step s (.call c (.check now)) = some t ∧
      t.connections c = some ⟨.challenge peerId requestNonce,
        tx.conclude peerId now ChallengeOutcome.reasonOk (.ok signature)⟩ ∧
      (t.live.cells tx.peer.cell).nonceCache =
        (s.live.cells tx.peer.cell).nonceCache.insert tx.nonce := by
  have hcheck := step_of_phase prim (.check now) hconn Phase.noConfusion
  refine ⟨_, hcheck.trans (if_neg (Bool.eq_false_iff.mp hfresh)), Function.update_self _ _ _, ?_⟩
  simp [State.advance, State.updateCell, Live.updateCell]

theorem step_audit {record : AuditRecord} {ending : Ending} (written : Bool)
    (hconn : s.connections c =
      some ⟨.challenge peerId requestNonce, .auditing record ending⟩) :
    ∃ t, (daemon prim).step s (.call c (.audit written)) = some t ∧
      t.connections c = some ⟨.challenge peerId requestNonce, .returning ending⟩ ∧
      t.live = s.live :=
  ⟨_, step_of_phase prim (.audit written) hconn Phase.noConfusion, Function.update_self _ _ _,
    rfl⟩

/-- The call gives the slot back with its answer. -/
theorem step_finish {cell : CellId} {notified : Bool} {outcome : ChallengeOutcome}
    (hconn : s.connections c =
      some ⟨.challenge peerId requestNonce, .returning ⟨some cell, notified, outcome⟩⟩) :
    ∃ t, (daemon prim).step s (.call c .finish) = some t ∧
      t.connections c = some ⟨.challenge peerId requestNonce, .answered (.ofOutcome outcome)⟩ ∧
      (t.live.cells cell).slotHolder = none ∧
      (t.live.cells cell).nonceCache = (s.live.cells cell).nonceCache := by
  refine ⟨_, step_of_phase prim .finish hconn Phase.noConfusion, Function.update_self _ _ _, ?_, ?_⟩
  · simp [State.updateCell, Live.updateCell]
  · simp [State.advance, State.updateCell, Live.updateCell]

/-- The signature over the frame is answered with an acceptance, unless the nonce was used. -/
theorem run_answerSteps {signature : Signature} (now : SystemTime)
    (hconn : s.connections c = some ⟨.challenge peerId requestNonce,
      .waiting (.drawn prim tStartMs peer nonce)⟩)
    (hcheck : checkResponse prim peer.phonePubkey (challengeFrame prim peer.bondKey nonce)
      signature.val = .ok signature)
    (hfresh : (s.live.cells peer.cell).nonceCache.contains nonce = false) :
    ∃ t, (daemon prim).run s (answerSteps c signature.val now) = some t ∧
      t.connections c = some ⟨.challenge peerId requestNonce,
        .answered (.challenge true (some signature.val) "ok")⟩ ∧
      (t.live.cells peer.cell).slotHolder = none ∧
      (t.live.cells peer.cell).nonceCache =
        (s.live.cells peer.cell).nonceCache.insert nonce := by
  let tx : Transaction := .drawn prim tStartMs peer nonce
  have hphase : respondedPhase prim peerId tx (.ok signature.val) now = .checking tx signature := by
    simp only [tx, respondedPhase, Transaction.drawn, hcheck]
  let checking : State :=
    s.advance c ⟨.challenge peerId requestNonce, .waiting tx⟩ (.checking tx signature)
  have hresponded : (daemon prim).step s (.call c (.responded (.ok signature.val) now)) =
      some checking := by
    rw [step_responded (.ok signature.val) now hconn, hphase]
  have hchecking : checking.connections c =
      some ⟨.challenge peerId requestNonce, .checking tx signature⟩ := Function.update_self _ _ _
  obtain ⟨auditing, hchecked, haudits, hcache⟩ :
      ∃ t, (daemon prim).step checking (.call c (.check now)) = some t ∧ _ :=
    step_check now hchecking hfresh
  obtain ⟨returning, haudited, hreturns, hlive⟩ :
      ∃ t, (daemon prim).step auditing (.call c (.audit true)) = some t ∧ _ :=
    step_audit true haudits
  obtain ⟨answered, hfinished, hanswers, hfree, hkept⟩ :
      ∃ t, (daemon prim).step returning (.call c .finish) = some t ∧ _ := step_finish hreturns
  refine ⟨answered, ?_, hanswers, hfree, hkept.trans (hlive ▸ hcache)⟩
  exact (daemon prim).run_cons_eq_some.mpr ⟨checking, hresponded,
    (daemon prim).run_cons_eq_some.mpr ⟨auditing, hchecked,
      (daemon prim).run_cons_eq_some.mpr ⟨returning, haudited,
        (daemon prim).run_cons_eq_some.mpr ⟨answered, hfinished, rfl⟩⟩⟩⟩

/-! ## The phone's part -/

/-- The phone has the running client of the bond and the key, and no activity in the way. -/
structure Serving (phone : Phone) (record : BondRecord) : Prop where
  client : ∃ path, phone.client = some ⟨path, record.peerId⟩
  resolved : phone.resolved record.peerId = some record
  named : record.peerId ≠ "" ∧ record.hostName ≠ "" ∧ record.keystoreAlias ≠ ""
  key : phone.keystore record.keystoreAlias = true
  free : phone.activity = none

/-- What the user does with a challenge that finds `intents` and `prompts` pending. -/
def phoneSteps (frameBytes : Bytes) (intents prompts : Nat) : List PhoneEvent :=
  [.notified frameBytes, .startActivity intents, .approveTapped .ready, .biometric prompts true]

variable {phone : Phone} {record : BondRecord}

theorem eraseIdx_concat_length {α : Type} (items : List α) (item : α) :
    (items ++ [item]).eraseIdx items.length = items := by
  rw [List.eraseIdx_append_of_length_le (Nat.le_refl _), Nat.sub_self, List.eraseIdx_cons_zero,
    List.append_nil]

variable (keys : KeyPair prim)

/-- The response of the phone, which is the signature by the key of the alias. -/
def respondedBy (keystoreAlias : String) (seen : List PhoneObservation) : Option Bytes :=
  seen.findSome? fun
    | .signed signer challengeBytes =>
        if signer = keystoreAlias then some (keys.sign challengeBytes).val else none
    | _ => none

variable {keys}

/-- The user approves a notified challenge, which is signed, and the phone serves as before. -/
theorem run_phoneSteps (hserving : Serving phone record) (frameBytes : Bytes) :
    Android.unlocking.run phone
        (phoneSteps frameBytes phone.intents.length phone.prompts.length) =
      some { phone with nextInstance := phone.nextInstance + 1 } ∧
    respondedBy keys record.keystoreAlias (Android.unlocking.trace Phone.observe phone
        (phoneSteps frameBytes phone.intents.length phone.prompts.length)) =
      some (keys.sign (Android.challengeBody frameBytes)).val := by
  obtain ⟨⟨path, hclient⟩, hresolved, ⟨hpeer, hhost, halias⟩, hkey, hfree⟩ := hserving
  let activity : ApprovalActivity :=
    ⟨phone.nextInstance, record.peerId, record.hostName, Android.challengeBody frameBytes,
      record.keystoreAlias⟩
  let launched : Phone := { phone with intents := phone.intents ++ [activity.resolved] }
  let showing : Phone :=
    { phone with
      activity := some activity
      nextInstance := phone.nextInstance + 1 }
  let prompting : Phone := { showing with prompts := phone.prompts ++ [activity] }
  have hnotified : Android.unlocking.step phone (.notified frameBytes) = some launched := by
    have hlaunched : phone.launchApprovalActivity record.peerId
        (Android.challengeBody frameBytes) = launched := by
      simp only [Phone.launchApprovalActivity, Phone.hostnameFor, Phone.keystoreAliasFor, hresolved]
      rfl
    simp only [Android.unlocking, Phone.step]
    rw [hclient]
    exact congrArg some hlaunched
  have hstarted : Android.unlocking.step launched (.startActivity phone.intents.length) =
      some showing := by
    have hnames : ¬ (activity.resolved.peerId = "" ∨ activity.resolved.hostname = "") :=
      not_or.mpr ⟨hpeer, hhost⟩
    simp only [Android.unlocking, Phone.step, launched, List.getElem?_concat_length,
      eraseIdx_concat_length, Phone.onCreate, hfree, if_neg hnames]
    rfl
  have happroved : Android.unlocking.step showing (.approveTapped .ready) = some prompting := by
    have hsigns : ¬ (record.keystoreAlias = "" ∨ phone.keystore record.keystoreAlias = false) :=
      not_or.mpr ⟨halias, by rw [hkey]; exact Bool.noConfusion⟩
    exact congrArg some (if_neg hsigns)
  have hconfirmed : Android.unlocking.step prompting (.biometric phone.prompts.length true) =
      some { phone with nextInstance := phone.nextInstance + 1 } := by
    simp [Android.unlocking, Phone.step, prompting, showing, eraseIdx_concat_length, Phone.finish,
      hfree]
  constructor
  · exact Android.unlocking.run_cons_eq_some.mpr ⟨launched, hnotified,
      Android.unlocking.run_cons_eq_some.mpr ⟨showing, hstarted,
        Android.unlocking.run_cons_eq_some.mpr ⟨prompting, happroved,
          Android.unlocking.run_cons_eq_some.mpr ⟨_, hconfirmed, rfl⟩⟩⟩⟩
  · have htrace : Android.unlocking.trace Phone.observe phone
        (phoneSteps frameBytes phone.intents.length phone.prompts.length) =
          [.delivered path record.peerId (phone.bondKeyOf record.peerId) frameBytes,
            .signed record.keystoreAlias (Android.challengeBody frameBytes)] := by
      refine (Android.unlocking.trace_cons_of_step hnotified _).trans ?_
      rw [Android.unlocking.trace_cons_of_step hstarted,
        Android.unlocking.trace_cons_of_step happroved,
        Android.unlocking.trace_cons_of_step hconfirmed]
      simp [Phone.observe, hclient, showing, prompting, activity, halias, hkey, System.trace]
    rw [htrace]
    simp [respondedBy]

theorem Serving.next (hserving : Serving phone record) :
    Serving { phone with nextInstance := phone.nextInstance + 1 } record :=
  ⟨hserving.client, hserving.resolved, hserving.named, hserving.key, hserving.free⟩

/-! ## One unlock -/

/-- A connection of PAM, and the nonce that the daemon draws for it. -/
structure Attempt where
  call : CallId
  requestNonce : Nonce
  nonce : Nonce
  now : SystemTime

variable (prim keys) in
/-- The attempt from the connection to its answer: the phone is delivered the frame that the
daemon notifies for the call, the user approves, and the daemon gets what the phone signs. -/
def Attempt.steps (peerId keystoreAlias : String) (both : State × Phone) (attempt : Attempt) :
    Option (List (Event ⊕ PhoneEvent)) :=
  let called := callSteps attempt.call peerId attempt.requestNonce.val attempt.nonce attempt.now
  (notifiedBy attempt.call ((daemon prim).trace (observe prim) both.1 called)).bind
    fun frameBytes =>
      let approved := phoneSteps frameBytes both.2.intents.length both.2.prompts.length
      (respondedBy keys keystoreAlias
        (Android.unlocking.trace Phone.observe both.2 approved)).map fun response =>
          called.map .inl ++ approved.map .inr ++
            (answerSteps attempt.call response attempt.now).map .inl

variable (keys) in
/-- The attempts one after the other. -/
def attemptSteps (peerId keystoreAlias : String) :
    State × Phone → List Attempt → Option (List (Event ⊕ PhoneEvent))
  | _, [] => some []
  | both, attempt :: attempts =>
      (attempt.steps prim keys peerId keystoreAlias both).bind fun events =>
        ((world prim).run both events).bind fun after =>
          (attemptSteps peerId keystoreAlias after attempts).map (events ++ ·)

/-- The daemon knows the phone's key and nobody holds the slot, and the phone serves. -/
structure Ready (peerId : String) (peer : PeerState) (record : BondRecord)
    (both : State × Phone) : Prop where
  orchestrated : both.1.orchestrated = true
  known : lookupPeer both.1.live peerId = some peer
  free : (both.1.live.cells peer.cell).slotHolder = none
  serving : Serving both.2 record

/-- The daemon answered the attempt with an acceptance. -/
def Attempt.Accepted (peerId : String) (attempt : Attempt) (s : State) : Prop :=
  ∃ signature, s.connections attempt.call =
    some ⟨.challenge peerId attempt.requestNonce.val, .answered (.challenge true signature "ok")⟩

/-- What is left of one attempt to the next. -/
structure Attempt.Done (attempt : Attempt) (peer : PeerState) (both after : State × Phone) :
    Prop where
  others : ∀ c, c ≠ attempt.call → after.1.connections c = both.1.connections c
  cache : (after.1.live.cells peer.cell).nonceCache =
    (both.1.live.cells peer.cell).nonceCache.insert attempt.nonce

variable {both : State × Phone}

theorem run_steps (hkey : peer.phonePubkey = keys.pubkey.val)
    (hready : Ready peerId peer record both) {attempt : Attempt}
    (hnew : both.1.connections attempt.call = none)
    (hfresh : (both.1.live.cells peer.cell).nonceCache.contains attempt.nonce = false) :
    ∃ events after, attempt.steps prim keys peerId record.keystoreAlias both = some events ∧
      (world prim).run both events = some after ∧
      Ready peerId peer record after ∧ attempt.Accepted peerId after.1 ∧
      attempt.Done peer both after := by
  obtain ⟨waiting, hcalled, hnotified, hwaits, hsame⟩ := run_callSteps attempt.now attempt.nonce
    attempt.requestNonce.val hready.orchestrated hnew hready.known hready.free
  let frameBytes := challengeBody attempt.nonce ++
    (computeTag prim peer.bondKey (challengeBody attempt.nonce)).val
  let signature := keys.sign (Android.challengeBody frameBytes)
  obtain ⟨hphone, hsigned⟩ := @run_phoneSteps prim both.2 record keys hready.serving frameBytes
  have hcheck : checkResponse prim peer.phonePubkey
      (challengeFrame prim peer.bondKey attempt.nonce) signature.val = .ok signature := by
    have hbody : Android.challengeBody frameBytes = challengeBody attempt.nonce :=
      challengeBody_challenge _ _
    rw [hkey]
    refine checkResponse_of_verifies (parseSignature_eq_some.mpr rfl) ?_
    rw [show signature = keys.sign (challengeBody attempt.nonce) from congrArg keys.sign hbody]
    exact verifyFrame_sign keys (bodyBytes_challengeFrame prim peer.bondKey attempt.nonce)
  obtain ⟨answered, hanswered, hanswer, hfree, hcache⟩ :=
    run_answerSteps attempt.now hwaits hcheck (hsame ▸ hfresh)
  have hdaemon : (daemon prim).run both.1
      (callSteps attempt.call peerId attempt.requestNonce.val attempt.nonce attempt.now ++
        answerSteps attempt.call signature.val attempt.now) = some answered :=
    (daemon prim).run_append_eq_some.mpr ⟨waiting, hcalled, hanswered⟩
  have hspared : Spared attempt.call both.1 answered :=
    spared_of_run (by simp [callSteps, answerSteps, ownedBy]) hdaemon
  let called := callSteps attempt.call peerId attempt.requestNonce.val attempt.nonce attempt.now
  let approved := phoneSteps frameBytes both.2.intents.length both.2.prompts.length
  refine ⟨called.map .inl ++ approved.map .inr ++
      (answerSteps attempt.call signature.val attempt.now).map .inl,
    (answered, { both.2 with nextInstance := both.2.nextInstance + 1 }), ?_, ?_,
    ⟨hspared.orchestrated.trans hready.orchestrated, ?_, hfree, hready.serving.next⟩,
    ⟨_, hanswer⟩, hspared.others, hcache.trans (congrArg (·.insert attempt.nonce) hsame)⟩
  · simp only [Attempt.steps, hnotified, Option.bind_some]
    rw [hsigned]
    rfl
  · refine (world prim).run_append_eq_some.mpr ⟨(waiting, _),
      (world prim).run_append_eq_some.mpr ⟨(waiting, both.2), System.run_map_inl hcalled,
        System.run_map_inr hphone⟩,
      System.run_map_inl hanswered⟩
  · rw [lookupPeer, hspared.peers]
    exact hready.known

/-! ## Any number of unlocks -/

theorem contains_insert_of_ne {cache : NonceCache} {nonce other : Nonce} (hne : nonce ≠ other)
    (hfresh : cache.contains other = false) : (cache.insert nonce).contains other = false := by
  rw [NonceCache.contains, List.any_eq_false] at hfresh ⊢
  intro kept hkept
  have hmem : kept ∈ cache.nonces ++ [nonce] := by
    unfold NonceCache.insert at hkept
    dsimp only at hkept
    split at hkept
    · exact List.mem_of_mem_tail hkept
    · exact hkept
  rcases List.mem_append.mp hmem with hold | hnew
  · exact hfresh kept hold
  · obtain rfl := List.mem_singleton.mp hnew
    exact fun heq => hne (beq_iff_eq.mp heq)

/-- PAM grants on the answer to the attempt. -/
def Attempt.Unlocks (prim : Primitives) (peerId : String) (attempt : Attempt) (s : State) : Prop :=
  ∃ response, s.connections attempt.call =
      some ⟨.challenge peerId attempt.requestNonce.val, .answered response⟩ ∧
    ∀ read roundTrip, Pam.resolvePeerId prim read = .ok peerId →
      roundTrip (.challenge peerId attempt.requestNonce.val) = .ok response →
      Pam.authenticate prim read (some attempt.requestNonce) roundTrip = .success peerId

theorem Attempt.Accepted.unlocks {attempt : Attempt} (haccepted : attempt.Accepted peerId s) :
    attempt.Unlocks prim peerId s := by
  obtain ⟨signature, hanswered⟩ := haccepted
  refine ⟨_, hanswered, fun read roundTrip hresolve hround => ?_⟩
  simp only [Pam.authenticate, hresolve, hround]
  rfl

theorem run_attempts (hkey : peer.phonePubkey = keys.pubkey.val)
    (hready : Ready peerId peer record both) {attempts : List Attempt}
    (hcalls : (attempts.map (·.call)).Nodup) (hnonces : (attempts.map (·.nonce)).Nodup)
    (hnew : ∀ attempt ∈ attempts, both.1.connections attempt.call = none)
    (hfresh : ∀ attempt ∈ attempts,
      (both.1.live.cells peer.cell).nonceCache.contains attempt.nonce = false) :
    ∃ events after, attemptSteps keys peerId record.keystoreAlias both attempts = some events ∧
      (world prim).run both events = some after ∧
      Ready peerId peer record after ∧ (∀ attempt ∈ attempts, attempt.Accepted peerId after.1) ∧
      ∀ c, c ∉ attempts.map (·.call) → after.1.connections c = both.1.connections c := by
  induction attempts generalizing both with
  | nil => exact ⟨[], both, rfl, rfl, hready, fun _ hmem => (nomatch hmem), fun _ _ => rfl⟩
  | cons attempt attempts ih =>
      obtain ⟨hcall, hcalls⟩ := List.nodup_cons.mp hcalls
      obtain ⟨hnonce, hnonces⟩ := List.nodup_cons.mp hnonces
      obtain ⟨hfirst, hnew⟩ := List.forall_mem_cons.mp hnew
      obtain ⟨hunused, hfresh⟩ := List.forall_mem_cons.mp hfresh
      obtain ⟨events, middle, hsteps, hrun, hmiddle, haccepted, hdone⟩ :=
        run_steps hkey hready hfirst hunused
      have hnew' : ∀ other ∈ attempts, middle.1.connections other.call = none := by
        intro other hmem
        rw [hdone.others other.call fun heq => hcall (List.mem_map.mpr ⟨other, hmem, heq⟩)]
        exact hnew other hmem
      have hfresh' : ∀ other ∈ attempts,
          (middle.1.live.cells peer.cell).nonceCache.contains other.nonce = false := by
        intro other hmem
        rw [hdone.cache]
        refine contains_insert_of_ne (fun heq => hnonce ?_) (hfresh other hmem)
        exact List.mem_map.mpr ⟨other, hmem, heq.symm⟩
      obtain ⟨later, after, hlater, hrest, hafter, hall, hothers⟩ :=
        ih hmiddle hcalls hnonces hnew' hfresh'
      refine ⟨events ++ later, after, ?_, ?_, hafter, ?_, fun c hc => ?_⟩
      · rw [attemptSteps, hsteps, Option.bind_some, hrun, Option.bind_some, hlater]
        rfl
      · exact (world prim).run_append_eq_some.mpr ⟨middle, hrun, hrest⟩
      · intro other hmem
        rcases List.mem_cons.mp hmem with rfl | htail
        · -- the later attempts do not touch its connection
          obtain ⟨signature, hanswered⟩ := haccepted
          exact ⟨signature, (hothers other.call hcall).trans hanswered⟩
        · exact hall other htail
      · obtain ⟨hne, hc⟩ := not_or.mp (mt List.mem_cons.mpr hc)
        exact (hothers c hc).trans (hdone.others c hne)

/-- Attempts on a ready pair that the user approves one after the other are all granted, as long
as no nonce is drawn again, and the pair is ready for more. -/
theorem approved_attempts_unlock (hkey : peer.phonePubkey = keys.pubkey.val)
    (hready : Ready peerId peer record both) {attempts : List Attempt}
    (hcalls : (attempts.map (·.call)).Nodup) (hnonces : (attempts.map (·.nonce)).Nodup)
    (hnew : ∀ attempt ∈ attempts, both.1.connections attempt.call = none)
    (hfresh : ∀ attempt ∈ attempts,
      (both.1.live.cells peer.cell).nonceCache.contains attempt.nonce = false) :
    ∃ events after, attemptSteps keys peerId record.keystoreAlias both attempts = some events ∧
      (world prim).run both events = some after ∧ Ready peerId peer record after ∧
      ∀ attempt ∈ attempts, attempt.Unlocks prim peerId after.1 := by
  obtain ⟨events, after, hsteps, hrun, hafter, haccepted, -⟩ :=
    run_attempts hkey hready hcalls hnonces hnew hfresh
  exact ⟨events, after, hsteps, hrun, hafter, fun attempt hmem => (haccepted attempt hmem).unlocks⟩

def servingPhone : Phone :=
  { pairedPhone with
    shown := some knownRecord
    seams := ⟨some (.captured knownRecord), some .foreground, some knownRecord⟩
    client := some ⟨.foreground, knownRecord.peerId⟩ }

/-- Two challenges of the peer of the vector, with its nonce and with zeros. -/
def knownAttempts : List Attempt :=
  [⟨0, KnownAnswer.nonce, KnownAnswer.nonce, 0⟩,
    ⟨1, KnownAnswer.nonce, Octets.zero nonceLen, 1⟩]

theorem approved_attempts_unlock_known :
    ∃ events after,
      attemptSteps knownKeys KnownAnswer.peerId knownRecord.keystoreAlias
          (knownInitial, servingPhone) knownAttempts = some events ∧
      (world knownPrimitives).run (knownInitial, servingPhone) events = some after ∧
      Ready KnownAnswer.peerId ⟨KnownAnswer.pubkey, KnownAnswer.bondKey, 0⟩ knownRecord after ∧
      ∀ attempt ∈ knownAttempts, attempt.Unlocks knownPrimitives KnownAnswer.peerId after.1 := by
  have hready : Ready KnownAnswer.peerId ⟨KnownAnswer.pubkey, KnownAnswer.bondKey, 0⟩ knownRecord
      (knownInitial, servingPhone) := by
    refine ⟨rfl, by decide, rfl, ⟨⟨.foreground, rfl⟩, rfl, by decide, rfl, rfl⟩⟩
  exact approved_attempts_unlock rfl hready (by decide) (by decide) (by decide) (by decide)

end Syauth.Unlocking
