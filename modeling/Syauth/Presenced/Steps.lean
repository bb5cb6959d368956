import Syauth.Presenced.Daemon

/-! # What one step of the daemon can do

Each transition of a connection's task is stated once, with the guard it took.
Invariants of the daemon are case analyses over these relations and never unfold
the step functions.
-/

namespace Syauth.Presenced

open Transport

variable {prim : Primitives} {s t : State} {c : CallId}

/-! ## Projections of the state updates -/

@[simp]
theorem State.connections_advance (s : State) (c : CallId) (conn : Connection) (phase : Phase) :
    (s.advance c conn phase).connections =
      Function.update s.connections c (some { conn with phase }) := rfl

theorem State.phase_of_advance {request request' : Request} {phase next phase' : Phase}
    (hconn : (s.advance c ⟨request, phase⟩ next).connections c = some ⟨request', phase'⟩) :
    phase' = next := by
  rw [State.connections_advance, Function.update_self] at hconn
  exact ((Connection.mk.inj (Option.some.inj hconn)).2).symm

@[simp]
theorem State.live_updateCell (s : State) (cell : CellId) (f : PeerCell → PeerCell) :
    (s.updateCell cell f).live = s.live.updateCell cell f := rfl

@[simp]
theorem State.live_rotateOnce (s : State) (now : SystemTime)
    (result : Except PeripheralError Unit) : (s.rotateOnce prim now result).live = s.live := by
  cases result <;> rfl

@[simp]
theorem State.reload_rotateOnce (s : State) (now : SystemTime)
    (result : Except PeripheralError Unit) :
    (s.rotateOnce prim now result).reload = s.reload := by
  cases result <;> rfl

@[simp]
theorem State.connections_rotateOnce (s : State) (now : SystemTime)
    (result : Except PeripheralError Unit) :
    (s.rotateOnce prim now result).connections = s.connections := by
  cases result <;> rfl

/-! ## Connections -/

/-- A response that does not unlock. -/
def Response.Refuses (response : Response) : Prop :=
  ∀ ok signature, response ≠ .challenge ok signature ChallengeOutcome.reasonOk

theorem Response.stub_refuses : Response.stub.Refuses := by
  intro ok signature hstub
  have hreason := (Response.challenge.inj hstub).2.2
  exact absurd hreason (by decide)

theorem Response.ofOutcome_refuses {outcome : ChallengeOutcome}
    (hrefused : ∀ signature, outcome ≠ .ok signature) : (Response.ofOutcome outcome).Refuses := by
  intro ok signature hresponse
  obtain ⟨sig, houtcome, -⟩ := Response.ofOutcome_eq_ok hresponse
  exact hrefused sig houtcome

/-- What `dispatch` answers at once, without a challenge. -/
inductive DispatchAnswer (s : State) : Request → Response → Prop
  | stub {peerId : String} {nonce : Bytes} (hstopped : s.orchestrated = false) :
      DispatchAnswer s (.challenge peerId nonce) .stub
  | reload (ok : Bool) : DispatchAnswer s .reload (.reload ok)
  | status (peers : List PeerStatus) (startedAt : SystemTime) :
      DispatchAnswer s .status (.status peers startedAt)

theorem DispatchAnswer.refuses {request : Request} {response : Response}
    (hanswer : DispatchAnswer s request response) : response.Refuses := by
  cases hanswer with
  | stub => exact Response.stub_refuses
  | reload => exact fun _ _ => Response.noConfusion
  | status => exact fun _ _ => Response.noConfusion

/-- The transitions of a connection's task. -/
inductive CallStep (prim : Primitives) (s : State) (c : CallId) :
    Connection → CallEvent → State → Prop
  | answer {request : Request} {now : SystemTime} (queue : List ReloadTrigger)
      (response : Response) (hanswer : DispatchAnswer s request response) :
      CallStep prim s c ⟨request, .decoded⟩ (.dispatch now)
        ({ s with reloadQueue := queue }.advance c ⟨request, .decoded⟩ (.answered response))
  | enter {peerId : String} {nonce : Bytes} {now : SystemTime} (hrunning : s.orchestrated = true) :
      CallStep prim s c ⟨.challenge peerId nonce, .decoded⟩ (.dispatch now)
        (s.advance c ⟨.challenge peerId nonce, .decoded⟩ (.looking (epochMillis now)))
  | found {peerId : String} {nonce : Bytes} {tStartMs : Nat} {peer : PeerState}
      (hpeer : lookupPeer s.live peerId = some peer) :
      CallStep prim s c ⟨.challenge peerId nonce, .looking tStartMs⟩ .lookup
        (s.advance c ⟨.challenge peerId nonce, .looking tStartMs⟩ (.acquiring tStartMs peer))
  | unknown {peerId : String} {nonce : Bytes} {tStartMs : Nat}
      (hpeer : lookupPeer s.live peerId = none) :
      CallStep prim s c ⟨.challenge peerId nonce, .looking tStartMs⟩ .lookup
        (s.advance c ⟨.challenge peerId nonce, .looking tStartMs⟩ (.auditing
          (.at peerId zeroNonceHex tStartMs tStartMs ChallengeOutcome.reasonUnknownPeer)
          ⟨none, false, .unknownPeer⟩))
  | acquired {peerId : String} {nonce : Bytes} {tStartMs : Nat} {peer : PeerState}
      (hfree : (s.live.cells peer.cell).slotHolder = none) :
      CallStep prim s c ⟨.challenge peerId nonce, .acquiring tStartMs peer⟩ .acquire
        ((s.updateCell peer.cell fun cell => { cell with slotHolder := some c }).advance
          c ⟨.challenge peerId nonce, .acquiring tStartMs peer⟩ (.stamping tStartMs peer))
  | busy {peerId : String} {nonce : Bytes} {tStartMs : Nat} {peer : PeerState} {now : SystemTime} :
      CallStep prim s c ⟨.challenge peerId nonce, .acquiring tStartMs peer⟩ (.busy now)
        (s.advance c ⟨.challenge peerId nonce, .acquiring tStartMs peer⟩ (.auditing
          (.at peerId zeroNonceHex tStartMs (epochMillis now) ChallengeOutcome.reasonBusy)
          ⟨none, false, .busy⟩))
  | stamped {peerId : String} {nonce : Bytes} {tStartMs : Nat} {peer : PeerState}
      {now : SystemTime} :
      CallStep prim s c ⟨.challenge peerId nonce, .stamping tStartMs peer⟩ (.stamp now)
        ((s.updateCell peer.cell fun cell => { cell with liveness := ⟨some now, some now⟩ }).advance
          c ⟨.challenge peerId nonce, .stamping tStartMs peer⟩ (.drawing tStartMs peer))
  | drew {peerId : String} {nonce : Bytes} {tStartMs : Nat} {peer : PeerState}
      {random : Except String Nonce} {now : SystemTime} :
      CallStep prim s c ⟨.challenge peerId nonce, .drawing tStartMs peer⟩ (.draw random now)
        (s.advance c ⟨.challenge peerId nonce, .drawing tStartMs peer⟩
          (drawPhase prim peerId tStartMs peer random now))
  | notified {peerId : String} {nonce : Bytes} {tx : Transaction}
      {result : Except PeripheralError Unit} {now : SystemTime} :
      CallStep prim s c ⟨.challenge peerId nonce, .notifying tx⟩ (.notified result now)
        (s.advance c ⟨.challenge peerId nonce, .notifying tx⟩ (notifiedPhase peerId tx result now))
  | responded {peerId : String} {nonce : Bytes} {tx : Transaction}
      {result : Except PeripheralError Bytes} {now : SystemTime} :
      CallStep prim s c ⟨.challenge peerId nonce, .waiting tx⟩ (.responded result now)
        (s.advance c ⟨.challenge peerId nonce, .waiting tx⟩
          (respondedPhase prim peerId tx result now))
  | replayed {peerId : String} {nonce : Bytes} {tx : Transaction} {signature : Signature}
      {now : SystemTime} (hseen : (s.live.cells tx.peer.cell).nonceCache.contains tx.nonce = true) :
      CallStep prim s c ⟨.challenge peerId nonce, .checking tx signature⟩ (.check now)
        (s.advance c ⟨.challenge peerId nonce, .checking tx signature⟩
          (tx.conclude peerId now ChallengeOutcome.reasonReplay .replay))
  | accepted {peerId : String} {nonce : Bytes} {tx : Transaction} {signature : Signature}
      {now : SystemTime}
      (hfresh : (s.live.cells tx.peer.cell).nonceCache.contains tx.nonce = false) :
      CallStep prim s c ⟨.challenge peerId nonce, .checking tx signature⟩ (.check now)
        ((s.updateCell tx.peer.cell fun cell =>
          { cell with nonceCache := cell.nonceCache.insert tx.nonce }).advance
            c ⟨.challenge peerId nonce, .checking tx signature⟩
            (tx.conclude peerId now ChallengeOutcome.reasonOk (.ok signature)))
  | audited {peerId : String} {nonce : Bytes} {record : AuditRecord} {ending : Ending}
      {written : Bool} :
      CallStep prim s c ⟨.challenge peerId nonce, .auditing record ending⟩ (.audit written)
        ({ s with
            auditLog := if written then s.auditLog.map (· ++ [record]) else s.auditLog }.advance
          c ⟨.challenge peerId nonce, .auditing record ending⟩ (.returning ending))
  | finished {peerId : String} {nonce : Bytes} {ending : Ending} (hpermit : ending.permit = none) :
      CallStep prim s c ⟨.challenge peerId nonce, .returning ending⟩ .finish
        (s.advance c ⟨.challenge peerId nonce, .returning ending⟩
          (.answered (.ofOutcome ending.outcome)))
  | released {peerId : String} {nonce : Bytes} {ending : Ending} {cell : CellId}
      (hpermit : ending.permit = some cell) :
      CallStep prim s c ⟨.challenge peerId nonce, .returning ending⟩ .finish
        ((s.advance c ⟨.challenge peerId nonce, .returning ending⟩
          (.answered (.ofOutcome ending.outcome))).updateCell cell
            fun cell => { cell with slotHolder := none })

theorem dispatchStep_sound {request : Request} {now : SystemTime}
    (hstep : dispatchStep prim s c ⟨request, .decoded⟩ now = some t) :
    CallStep prim s c ⟨request, .decoded⟩ (.dispatch now) t := by
  unfold dispatchStep at hstep
  cases request with
  | challenge peerId nonce =>
      simp only at hstep
      split at hstep
      · next hrunning =>
          cases hstep
          exact .enter hrunning
      · next hstopped =>
          cases hstep
          exact .answer s.reloadQueue .stub (.stub (Bool.eq_false_of_not_eq_true hstopped))
  | reload =>
      simp only at hstep
      split at hstep
      · split at hstep
        · cases hstep
          exact .answer _ (.reload true) (.reload true)
        · cases hstep
      · cases hstep
        exact .answer s.reloadQueue (.reload false) (.reload false)
  | status =>
      cases hstep
      exact .answer s.reloadQueue (.status _ _) (.status _ _)

theorem challengeStep_sound {peerId : String} {nonce : Bytes} {phase : Phase} {event : CallEvent}
    (hstep : challengeStep prim s c ⟨.challenge peerId nonce, phase⟩ peerId phase event = some t) :
    CallStep prim s c ⟨.challenge peerId nonce, phase⟩ event t := by
  unfold challengeStep at hstep
  split at hstep
  · split at hstep
    · next hpeer =>
        cases hstep
        exact .found hpeer
    · next hpeer =>
        cases hstep
        exact .unknown hpeer
  · split at hstep
    · cases hstep
    · next hfree =>
        cases hstep
        exact .acquired hfree
  · cases hstep
    exact .busy
  · cases hstep
    exact .stamped
  · cases hstep
    exact .drew
  · cases hstep
    exact .notified
  · cases hstep
    exact .responded
  · split at hstep
    · next hseen =>
        cases hstep
        exact .replayed hseen
    · next hfresh =>
        cases hstep
        exact .accepted (Bool.eq_false_of_not_eq_true hfresh)
  · cases hstep
    exact .audited
  · simp only at hstep
    split at hstep
    · next hpermit =>
        cases hstep
        exact .released hpermit
    · next hpermit =>
        cases hstep
        exact .finished hpermit
  · cases hstep

theorem callStep_sound {conn : Connection} {event : CallEvent}
    (hstep : callStep prim s c conn event = some t) : CallStep prim s c conn event t := by
  obtain ⟨request, phase⟩ := conn
  unfold callStep at hstep
  split at hstep
  · next now hphase =>
      have hdecoded : phase = .decoded := hphase
      subst hdecoded
      exact dispatchStep_sound hstep
  · simp only at hstep
    split at hstep
    · exact challengeStep_sound hstep
    · cases hstep

/-- A call step touches its own connection and no other part of the control state. -/
theorem CallStep.frame {conn : Connection} {event : CallEvent}
    (hstep : CallStep prim s c conn event t) :
    t.live.peers = s.live.peers ∧ t.live.nextCell = s.live.nextCell ∧ t.reload = s.reload ∧
      ∃ phase, t.connections = Function.update s.connections c (some { conn with phase }) := by
  cases hstep <;> exact ⟨rfl, rfl, rfl, _, rfl⟩

theorem CallStep.request_eq {conn conn' : Connection} {event : CallEvent}
    (hcall : CallStep prim s c conn event t) (hnext : t.connections c = some conn') :
    conn'.request = conn.request := by
  obtain ⟨-, -, -, phase, hconnections⟩ := hcall.frame
  rw [hconnections, Function.update_self] at hnext
  rw [← Option.some.inj hnext]

theorem CallStep.orchestrated_eq {conn : Connection} {event : CallEvent}
    (hcall : CallStep prim s c conn event t) : t.orchestrated = s.orchestrated := by
  cases hcall <;> rfl

/-! ## The reload loop -/

inductive LoopStep (prim : Primitives) (s : State) : LoopEvent → State → Prop
  | queued {trigger : ReloadTrigger} :
      LoopStep prim s (.signal trigger) { s with reloadQueue := s.reloadQueue ++ [trigger] }
  | skipped {read : BondFileRead} {keysDir : KeysDir} {order : IterOrder} {err : BondError}
      (queue : List ReloadTrigger) (hload : BondStore.load prim read = .error err) :
      LoopStep prim s (.reloadBegin read keysDir order) { s with reloadQueue := queue }
  | began {read : BondFileRead} {keysDir : KeysDir} {order : IterOrder} {store : BondStore}
      (trigger : ReloadTrigger) (queue : List ReloadTrigger) (hidle : s.reload = none)
      (hload : BondStore.load prim read = .ok store) :
      LoopStep prim s (.reloadBegin read keysDir order)
        { s with
          reloadQueue := queue
          reload := some (.start trigger store keysDir order s.live) }
  | removed {result : Except PeripheralError Unit} {trigger : ReloadTrigger} {store : BondStore}
      {newSet : KeySet} {peerId : String} {toRemove toAdd : List String}
      (hreload : s.reload = some ⟨trigger, store, newSet, peerId :: toRemove, toAdd⟩) :
      LoopStep prim s (.removed result)
        { s with
          live := doRemovePeer s.live peerId result
          reload := some ⟨trigger, store, newSet, toRemove, toAdd⟩ }
  | added {result : Except PeripheralError Unit} {trigger : ReloadTrigger} {store : BondStore}
      {newSet : KeySet} {peerId : String} {toAdd : List String}
      (hreload : s.reload = some ⟨trigger, store, newSet, [], peerId :: toAdd⟩) :
      LoopStep prim s (.added result)
        { s with
          live := addFromSet store newSet s.live peerId result
          reload := some ⟨trigger, store, newSet, [], toAdd⟩ }
  | ended {now : SystemTime} {result : Except PeripheralError Unit} {trigger : ReloadTrigger}
      {store : BondStore} {newSet : KeySet}
      (hreload : s.reload = some ⟨trigger, store, newSet, [], []⟩) :
      LoopStep prim s (.reloadEnd now result)
        ({ s with reload := none }.rotateOnce prim now result)
  | ticked {now : SystemTime} {result : Except PeripheralError Unit} (hidle : s.reload = none) :
      LoopStep prim s (.tick now result) (s.rotateOnce prim now result)

theorem loopStep_sound {event : LoopEvent} (hstep : loopStep prim s event = some t) :
    LoopStep prim s event t := by
  cases event with
  | signal trigger =>
      simp only [loopStep] at hstep
      split at hstep
      · cases hstep
        exact .queued
      · cases hstep
  | reloadBegin read keysDir order =>
      simp only [loopStep] at hstep
      split at hstep
      · next trigger queue hidle hqueue =>
          split at hstep
          · next err hload =>
              cases hstep
              exact .skipped queue hload
          · next store hload =>
              cases hstep
              exact .began trigger queue hidle hload
      · cases hstep
  | removed result =>
      simp only [loopStep] at hstep
      split at hstep
      · next hreload =>
          cases hstep
          exact .removed hreload
      · cases hstep
  | added result =>
      simp only [loopStep] at hstep
      split at hstep
      · next hreload =>
          cases hstep
          exact .added hreload
      · cases hstep
  | reloadEnd now result =>
      simp only [loopStep] at hstep
      split at hstep
      · next hreload =>
          cases hstep
          exact .ended hreload
      · cases hstep
  | tick now result =>
      simp only [loopStep] at hstep
      split at hstep
      · next hidle =>
          cases hstep
          exact .ticked hidle
      · cases hstep

theorem LoopStep.connections_eq {event : LoopEvent} (hstep : LoopStep prim s event t) :
    t.connections = s.connections := by
  cases hstep with
  | ended => exact State.connections_rotateOnce _ _ _
  | ticked => exact State.connections_rotateOnce _ _ _
  | _ => rfl

theorem LoopStep.orchestrated_eq {event : LoopEvent} (hloop : LoopStep prim s event t) :
    t.orchestrated = s.orchestrated := by
  cases hloop with
  | @ended now result => cases result <;> rfl
  | @ticked now result => cases result <;> rfl
  | _ => rfl

theorem LoopStep.auditLog_eq {event : LoopEvent} (hloop : LoopStep prim s event t) :
    t.auditLog = s.auditLog := by
  cases hloop with
  | @ended now result => cases result <;> rfl
  | @ticked now result => cases result <;> rfl
  | _ => rfl

/-! ## The whole step -/

/-- A step of the daemon accepts a connection, moves one task or moves the loop. -/
inductive Step (prim : Primitives) (s : State) : Event → State → Prop
  | accept {c : CallId} {request : Request} (hnew : s.connections c = none) :
      Step prim s (.accept c request)
        { s with connections := Function.update s.connections c (some ⟨request, .decoded⟩) }
  | call {c : CallId} {conn : Connection} {event : CallEvent} {t : State}
      (hconn : s.connections c = some conn) (hcall : CallStep prim s c conn event t) :
      Step prim s (.call c event) t
  | loop {event : LoopEvent} {t : State} (hloop : LoopStep prim s event t) :
      Step prim s (.loop event) t

theorem step_sound {event : Event} (hstep : (daemon prim).step s event = some t) :
    Step prim s event t := by
  cases event with
  | accept c request =>
      simp only [daemon, step] at hstep
      split at hstep
      · next hnew =>
          cases hstep
          exact .accept hnew
      · cases hstep
  | call c event =>
      simp only [daemon, step] at hstep
      split at hstep
      · next conn hconn => exact .call hconn (callStep_sound hstep)
      · cases hstep
  | loop event =>
      simp only [daemon, step] at hstep
      split at hstep
      · exact .loop (loopStep_sound hstep)
      · cases hstep

/-- Whether the daemon has an orchestrator is decided at start-up. -/
theorem orchestrated_run {initial : State} {events : List Event}
    (hrun : (daemon prim).run initial events = some s) :
    s.orchestrated = initial.orchestrated := by
  refine (daemon prim).run_invariant (fun state => state.orchestrated = initial.orchestrated) ?_
    rfl hrun
  intro state event next hinv hstep
  cases step_sound hstep with
  | accept => exact hinv
  | loop hloop => rw [hloop.orchestrated_eq, hinv]
  | call _ hcall => rw [hcall.orchestrated_eq, hinv]

end Syauth.Presenced
