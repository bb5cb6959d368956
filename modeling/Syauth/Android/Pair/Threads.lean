import Syauth.Android.Pair.Backend

/-! # A pairing session on two threads

The handlers of the screen run on the main thread, `onLescResult` on the worker that had the
exchange.  Each of them looks at the state first and writes the fields of the view model one
after the other, and nothing keeps the other thread away in between.  The steps here are these
accesses; what only one thread has a part in stays one step of the session.
-/

namespace Syauth.Android.Pair

open Transition

/-- Where the main thread stands in a handler. -/
inductive MainPoint where
  | idle
  /-- `onStartScanTapped` has seen `Idle`. -/
  | starting
  /-- `onCancelTapped` has seen a state that it takes back. -/
  | cancelling
  | cleared
  /-- `onPeerPicked` has seen `Scanning`. -/
  | picking (peer : PeerHandle)
  | picked (peer : PeerHandle)
  | answered (result : PickPeerResult)
  deriving DecidableEq

/-- Where the worker stands in `onLescResult`. -/
inductive ResultPoint where
  | called
  /-- It has seen `LescNegotiating`. -/
  | checked
  /-- `pickedPeer` has been read and renamed. -/
  | read (peer : PeerHandle)
  | renamed
  | keyStashed
  | aliasStashed
  | pubkeyStashed
  deriving DecidableEq

/-- A good result of the exchange with a device, on its way into the view model. -/
structure Callback where
  address : String
  bondKey : Bytes
  peerName : String
  keystoreAlias : String
  phonePubkey : Bytes
  point : ResultPoint
  deriving DecidableEq

structure Threaded where
  session : Session
  main : MainPoint
  callback : Option Callback
  deriving DecidableEq

inductive ThreadEvent where
  | whole (event : SessionEvent)
  | startScanTapped
  | setScanning
  | cancelTapped
  | clearPick
  | setIdle
  | peerPicked (peer : PeerHandle)
  | setPick
  | pickPeer (outcome : PickOutcome)
  | setPicked
  | exchangeReturns
  | onLescResult
  | readPick
  | renamePick
  | stashBondKey
  | stashKeystoreAlias
  | stashPhonePubkey
  | setConfirming

/-- Which thread a handler runs on, and whether the other one gets into it. -/
inductive Runs where
  | inSteps
  | onMain
  | onWorker
  deriving DecidableEq

def SessionEvent.runs : SessionEvent → Runs
  | .startScanTapped | .cancelTapped | .peerPicked _ _ | .exchangeReturns => .inSteps
  | .workerRuns _ _ | .hostRead _ | .phoneWritten _ => .onWorker
  | .pairingAccepted _ | .pairingRejected _ | .bonded _ | .bondFailed | .oobYesTapped _
  | .oobNoTapped | .associated _ _ => .onMain

/-- What the copy of the picked peer is: it takes the name of the result. -/
def renamed (pickedPeer : Option PeerHandle) (peerName : String) : PeerHandle :=
  match pickedPeer with
  | some peer => { peer with name := peerName }
  | none => ⟨peerName, peerName⟩

namespace Threaded

def setVm (s : Threaded) (vm : ViewModel) : Threaded :=
  { s with session := { s.session with vm } }

def setMain (s : Threaded) (main : MainPoint) : Threaded := { s with main }

def advance (s : Threaded) (callback : Callback) (point : ResultPoint) : Threaded :=
  { s with callback := some { callback with point } }

variable (prim : Primitives) (oobCode : Bytes → List String) (keystoreKey : String → Pubkey)

/-- The worker completes the deferred and leaves the exchange; a good result goes to the
view model. -/
def result (s : Threaded) (exchange : Exchange) (hostPubkey : Bytes) : Threaded :=
  let result := s.session.backend.exchangeResult prim exchange hostPubkey
  { s with
    session := { s.session with
      backend := { s.session.backend with exchange := none }.complete result }
    callback :=
      match result with
      | .bonded bondKey peerName keystoreAlias phonePubkey =>
          some ⟨exchange.address, bondKey, peerName, keystoreAlias, phonePubkey, .called⟩
      | .failed _ => s.callback }

/-- The next step of `onLescResult`. -/
def resultStep (s : Threaded) (callback : Callback) : ThreadEvent → Option Threaded
  | .onLescResult =>
      match callback.point, s.session.vm.state with
      | .called, .lescNegotiating _ => some (s.advance callback .checked)
      | .called, _ => some { s with callback := none }
      | _, _ => none
  | .readPick =>
      match callback.point with
      | .checked =>
          some (s.advance callback (.read (renamed s.session.vm.pickedPeer callback.peerName)))
      | _ => none
  | .renamePick =>
      match callback.point with
      | .read peer =>
          some ((s.setVm { s.session.vm with pickedPeer := some peer }).advance callback .renamed)
      | _ => none
  | .stashBondKey =>
      match callback.point with
      | .renamed =>
          some ((s.setVm { s.session.vm with stashedBondKey := some callback.bondKey }).advance
            callback .keyStashed)
      | _ => none
  | .stashKeystoreAlias =>
      match callback.point with
      | .keyStashed =>
          some ((s.setVm { s.session.vm with
            stashedKeystoreAlias := callback.keystoreAlias }).advance callback .aliasStashed)
      | _ => none
  | .stashPhonePubkey =>
      match callback.point with
      | .aliasStashed =>
          some ((s.setVm { s.session.vm with
            stashedPhonePubkey := callback.phonePubkey }).advance callback .pubkeyStashed)
      | _ => none
  | .setConfirming =>
      match callback.point with
      | .pubkeyStashed =>
          some { s.setVm { s.session.vm with
            state := .oobConfirming (oobCode callback.bondKey) } with callback := none }
      | _ => none
  | _ => none

def step (s : Threaded) : ThreadEvent → Option Threaded
  | .whole event =>
      if event.runs = .inSteps ∨ event.runs = .onMain ∧ s.main ≠ .idle then none
      else (s.session.step prim oobCode keystoreKey event).map fun session => { s with session }
  | .startScanTapped =>
      match s.main, s.session.vm.state with
      | .idle, .idle => some (s.setMain .starting)
      | .idle, _ => some s
      | _, _ => none
  | .setScanning =>
      match s.main with
      | .starting => some ((s.setVm { s.session.vm with state := .scanning }).setMain .idle)
      | _ => none
  | .cancelTapped =>
      match s.main, s.session.vm.state with
      | .idle, .scanning | .idle, .lescNegotiating _ => some (s.setMain .cancelling)
      | .idle, _ => some s
      | _, _ => none
  | .clearPick =>
      match s.main with
      | .cancelling => some ((s.setVm { s.session.vm with pickedPeer := none }).setMain .cleared)
      | _ => none
  | .setIdle =>
      match s.main with
      | .cleared => some ((s.setVm { s.session.vm with state := .idle }).setMain .idle)
      | _ => none
  | .peerPicked peer =>
      match s.main, s.session.vm.state with
      | .idle, .scanning => some (s.setMain (.picking peer))
      | .idle, _ => some s
      | _, _ => none
  | .setPick =>
      match s.main with
      | .picking peer =>
          some ((s.setVm { s.session.vm with pickedPeer := some peer }).setMain (.picked peer))
      | _ => none
  | .pickPeer outcome =>
      match s.main with
      | .picked peer =>
          let answer := s.session.backend.pickPeer peer outcome
          some ({ s with session := { s.session with backend := answer.2 } }.setMain
            (.answered answer.1))
      | _ => none
  | .setPicked =>
      match s.main with
      | .answered result =>
          some ((s.setVm { s.session.vm with state := ViewModel.pickedState result }).setMain .idle)
      | _ => none
  | .exchangeReturns =>
      match s.session.backend.exchange with
      | some ⟨address, keystoreAlias, phonePubkey, .phoneWritten hostPubkey⟩ =>
          some (s.result prim ⟨address, keystoreAlias, phonePubkey, .phoneWritten hostPubkey⟩
            hostPubkey)
      | _ => none
  | event => s.callback.bind fun callback => s.resultStep oobCode callback event

def new : Threaded := ⟨.new, .idle, none⟩

end Threaded

/-- One visit of the pairing screen, with both threads. -/
def threads (prim : Primitives) (oobCode : Bytes → List String) (keystoreKey : String → Pubkey) :
    System Threaded ThreadEvent where
  start s := s = .new
  step := Threaded.step prim oobCode keystoreKey

/-! ## What one step can do -/

inductive ThreadStep (prim : Primitives) (oobCode : Bytes → List String)
    (keystoreKey : String → Pubkey) (s : Threaded) : ThreadEvent → Threaded → Prop
  | whole {event : SessionEvent} {session : Session} (hwhole : event.runs ≠ .inSteps)
      (hmain : event.runs = .onMain → s.main = .idle)
      (hstep : SessionStep prim oobCode keystoreKey s.session event session) :
      ThreadStep prim oobCode keystoreKey s (.whole event) { s with session }
  /-- The handler looks at the state and returns. -/
  | ignored {event : ThreadEvent} (hmain : s.main = .idle)
      (hevent : event = .startScanTapped ∨ event = .cancelTapped ∨
        ∃ peer, event = .peerPicked peer ∧ s.session.vm.state ≠ .scanning) :
      ThreadStep prim oobCode keystoreKey s event s
  | start (hmain : s.main = .idle) (hstate : s.session.vm.state = .idle) :
      ThreadStep prim oobCode keystoreKey s .startScanTapped (s.setMain .starting)
  | setScanning (hmain : s.main = .starting) :
      ThreadStep prim oobCode keystoreKey s .setScanning
        ((s.setVm { s.session.vm with state := .scanning }).setMain .idle)
  | cancel (hmain : s.main = .idle)
      (hstate : s.session.vm.state = .scanning ∨
        ∃ code, s.session.vm.state = .lescNegotiating code) :
      ThreadStep prim oobCode keystoreKey s .cancelTapped (s.setMain .cancelling)
  | clearPick (hmain : s.main = .cancelling) :
      ThreadStep prim oobCode keystoreKey s .clearPick
        ((s.setVm { s.session.vm with pickedPeer := none }).setMain .cleared)
  | setIdle (hmain : s.main = .cleared) :
      ThreadStep prim oobCode keystoreKey s .setIdle
        ((s.setVm { s.session.vm with state := .idle }).setMain .idle)
  | pick {peer : PeerHandle} (hmain : s.main = .idle) (hstate : s.session.vm.state = .scanning) :
      ThreadStep prim oobCode keystoreKey s (.peerPicked peer) (s.setMain (.picking peer))
  | setPick {peer : PeerHandle} (hmain : s.main = .picking peer) :
      ThreadStep prim oobCode keystoreKey s .setPick
        ((s.setVm { s.session.vm with pickedPeer := some peer }).setMain (.picked peer))
  | pickPeer {peer : PeerHandle} {outcome : PickOutcome} (hmain : s.main = .picked peer) :
      ThreadStep prim oobCode keystoreKey s (.pickPeer outcome)
        ({ s with session := { s.session with
            backend := (s.session.backend.pickPeer peer outcome).2 } }.setMain
          (.answered (s.session.backend.pickPeer peer outcome).1))
  | setPicked {result : PickPeerResult} (hmain : s.main = .answered result) :
      ThreadStep prim oobCode keystoreKey s .setPicked
        ((s.setVm { s.session.vm with state := ViewModel.pickedState result }).setMain .idle)
  | returns {exchange : Exchange} {hostPubkey : Bytes}
      (hexchange : s.session.backend.exchange = some exchange)
      (hphase : exchange.phase = .phoneWritten hostPubkey) :
      ThreadStep prim oobCode keystoreKey s .exchangeReturns (s.result prim exchange hostPubkey)
  | check {callback : Callback} {code : String} (hcallback : s.callback = some callback)
      (hpoint : callback.point = .called) (hstate : s.session.vm.state = .lescNegotiating code) :
      ThreadStep prim oobCode keystoreKey s .onLescResult (s.advance callback .checked)
  | leave {callback : Callback} (hcallback : s.callback = some callback)
      (hpoint : callback.point = .called) :
      ThreadStep prim oobCode keystoreKey s .onLescResult { s with callback := none }
  | readPick {callback : Callback} (hcallback : s.callback = some callback)
      (hpoint : callback.point = .checked) :
      ThreadStep prim oobCode keystoreKey s .readPick
        (s.advance callback (.read (renamed s.session.vm.pickedPeer callback.peerName)))
  | renamePick {callback : Callback} {peer : PeerHandle} (hcallback : s.callback = some callback)
      (hpoint : callback.point = .read peer) :
      ThreadStep prim oobCode keystoreKey s .renamePick
        ((s.setVm { s.session.vm with pickedPeer := some peer }).advance callback .renamed)
  | stashBondKey {callback : Callback} (hcallback : s.callback = some callback)
      (hpoint : callback.point = .renamed) :
      ThreadStep prim oobCode keystoreKey s .stashBondKey
        ((s.setVm { s.session.vm with stashedBondKey := some callback.bondKey }).advance callback
          .keyStashed)
  | stashKeystoreAlias {callback : Callback} (hcallback : s.callback = some callback)
      (hpoint : callback.point = .keyStashed) :
      ThreadStep prim oobCode keystoreKey s .stashKeystoreAlias
        ((s.setVm { s.session.vm with stashedKeystoreAlias := callback.keystoreAlias }).advance
          callback .aliasStashed)
  | stashPhonePubkey {callback : Callback} (hcallback : s.callback = some callback)
      (hpoint : callback.point = .aliasStashed) :
      ThreadStep prim oobCode keystoreKey s .stashPhonePubkey
        ((s.setVm { s.session.vm with stashedPhonePubkey := callback.phonePubkey }).advance callback
          .pubkeyStashed)
  | setConfirming {callback : Callback} (hcallback : s.callback = some callback)
      (hpoint : callback.point = .pubkeyStashed) :
      ThreadStep prim oobCode keystoreKey s .setConfirming
        { s.setVm { s.session.vm with state := .oobConfirming (oobCode callback.bondKey) } with
          callback := none }

variable {prim : Primitives} {oobCode : Bytes → List String} {keystoreKey : String → Pubkey}
variable {s t : Threaded}

theorem Threaded.resultStep_sound {callback : Callback} {event : ThreadEvent}
    (hcallback : s.callback = some callback)
    (hstep : s.resultStep oobCode callback event = some t) :
    ThreadStep prim oobCode keystoreKey s event t := by
  unfold Threaded.resultStep at hstep
  split at hstep
  next =>
    split at hstep
    next hpoint hstate => exact Option.some.inj hstep ▸ .check hcallback hpoint hstate
    next hpoint _ => exact Option.some.inj hstep ▸ .leave hcallback hpoint
    next => cases hstep
  next =>
    split at hstep
    next hpoint => exact Option.some.inj hstep ▸ .readPick hcallback hpoint
    next => cases hstep
  next =>
    split at hstep
    next peer hpoint => exact Option.some.inj hstep ▸ .renamePick hcallback hpoint
    next => cases hstep
  next =>
    split at hstep
    next hpoint => exact Option.some.inj hstep ▸ .stashBondKey hcallback hpoint
    next => cases hstep
  next =>
    split at hstep
    next hpoint => exact Option.some.inj hstep ▸ .stashKeystoreAlias hcallback hpoint
    next => cases hstep
  next =>
    split at hstep
    next hpoint => exact Option.some.inj hstep ▸ .stashPhonePubkey hcallback hpoint
    next => cases hstep
  next =>
    split at hstep
    next hpoint => exact Option.some.inj hstep ▸ .setConfirming hcallback hpoint
    next => cases hstep
  next => cases hstep

theorem Threaded.step_sound {event : ThreadEvent}
    (hstep : (threads prim oobCode keystoreKey).step s event = some t) :
    ThreadStep prim oobCode keystoreKey s event t := by
  change s.step prim oobCode keystoreKey event = some t at hstep
  unfold Threaded.step at hstep
  split at hstep
  next event =>
    split at hstep
    next => cases hstep
    next hfree =>
      obtain ⟨session, hsession, rfl⟩ := Option.map_eq_some_iff.mp hstep
      obtain ⟨hwhole, hmain⟩ := not_or.mp hfree
      refine .whole hwhole (fun honMain => ?_) (Session.step_sound hsession)
      by_contra hbusy
      exact hmain ⟨honMain, hbusy⟩
  next =>
    split at hstep
    next hmain hstate => exact Option.some.inj hstep ▸ .start hmain hstate
    next hmain _ => exact Option.some.inj hstep ▸ .ignored hmain (.inl rfl)
    next => cases hstep
  next =>
    split at hstep
    next hmain => exact Option.some.inj hstep ▸ .setScanning hmain
    next => cases hstep
  next =>
    split at hstep
    next hmain hstate => exact Option.some.inj hstep ▸ .cancel hmain (.inl hstate)
    next code hmain hstate => exact Option.some.inj hstep ▸ .cancel hmain (.inr ⟨code, hstate⟩)
    next hmain _ _ => exact Option.some.inj hstep ▸ .ignored hmain (.inr (.inl rfl))
    next => cases hstep
  next =>
    split at hstep
    next hmain => exact Option.some.inj hstep ▸ .clearPick hmain
    next => cases hstep
  next =>
    split at hstep
    next hmain => exact Option.some.inj hstep ▸ .setIdle hmain
    next => cases hstep
  next peer =>
    split at hstep
    next hmain hstate => exact Option.some.inj hstep ▸ .pick hmain hstate
    next hmain hother =>
      exact Option.some.inj hstep ▸ .ignored hmain (.inr (.inr ⟨peer, rfl, hother⟩))
    next => cases hstep
  next =>
    split at hstep
    next peer hmain => exact Option.some.inj hstep ▸ .setPick hmain
    next => cases hstep
  next outcome =>
    split at hstep
    next peer hmain => exact Option.some.inj hstep ▸ .pickPeer hmain
    next => cases hstep
  next =>
    split at hstep
    next result hmain => exact Option.some.inj hstep ▸ .setPicked hmain
    next => cases hstep
  next =>
    split at hstep
    next hexchange => exact Option.some.inj hstep ▸ .returns hexchange rfl
    next => cases hstep
  next =>
    obtain ⟨callback, hcallback, hresult⟩ := Option.bind_eq_some_iff.mp hstep
    exact resultStep_sound hcallback hresult

/-! ## Handlers that are left alone -/

/-- Both threads are between two handlers. -/
def Session.atRest (session : Session) : Threaded := ⟨session, .idle, none⟩

/-- The steps of `onLescResult` behind its check. -/
def takesResult : List ThreadEvent :=
  [.readPick, .renamePick, .stashBondKey, .stashKeystoreAlias, .stashPhonePubkey, .setConfirming]

theorem run_takesResult {callback : Callback} (hcallback : s.callback = some callback)
    (hpoint : callback.point = .checked) :
    (threads prim oobCode keystoreKey).run s takesResult = some
      { s.setVm { s.session.vm with
          pickedPeer := some (renamed s.session.vm.pickedPeer callback.peerName)
          stashedBondKey := some callback.bondKey
          stashedKeystoreAlias := callback.keystoreAlias
          stashedPhonePubkey := callback.phonePubkey
          state := .oobConfirming (oobCode callback.bondKey) } with callback := none } := by
  simp [takesResult, System.run, threads, Threaded.step, Threaded.resultStep, hcallback, hpoint,
    Threaded.advance, Threaded.setVm]

/-- A step of the session is a run of the threads in which no other handler comes in between. -/
theorem run_of_step {session next : Session} {event : SessionEvent}
    (hstep : session.step prim oobCode keystoreKey event = some next) :
    ∃ events, (threads prim oobCode keystoreKey).run session.atRest events = some next.atRest := by
  have hwhole : event.runs ≠ .inSteps →
      ∃ events, (threads prim oobCode keystoreKey).run session.atRest events =
        some next.atRest := by
    intro hruns
    refine ⟨[.whole event], ?_⟩
    have hfree : ¬ (event.runs = .inSteps ∨
        event.runs = .onMain ∧ session.atRest.main ≠ .idle) := by
      simp [hruns, Session.atRest]
    simp only [System.run, threads, Threaded.step, if_neg hfree]
    simp [Session.atRest, hstep]
  cases event with
  | startScanTapped =>
      obtain rfl := Option.some.inj hstep
      cases hstate : session.vm.state with
      | idle =>
          refine ⟨[.startScanTapped, .setScanning], ?_⟩
          simp [System.run, threads, Threaded.step, Session.atRest, hstate, Threaded.setMain,
            Threaded.setVm, ViewModel.onStartScanTapped]
      | _ =>
          refine ⟨[.startScanTapped], ?_⟩
          simp [System.run, threads, Threaded.step, Session.atRest, hstate,
            ViewModel.onStartScanTapped]
  | cancelTapped =>
      obtain rfl := Option.some.inj hstep
      cases hstate : session.vm.state with
      | scanning | lescNegotiating =>
          refine ⟨[.cancelTapped, .clearPick, .setIdle], ?_⟩
          simp [System.run, threads, Threaded.step, Session.atRest, hstate, Threaded.setMain,
            Threaded.setVm, ViewModel.onCancelTapped]
      | _ =>
          refine ⟨[.cancelTapped], ?_⟩
          simp [System.run, threads, Threaded.step, Session.atRest, hstate,
            ViewModel.onCancelTapped]
  | peerPicked peer outcome =>
      cases hstate : session.vm.state with
      | scanning =>
          simp only [Session.step, hstate] at hstep
          obtain rfl := Option.some.inj hstep
          refine ⟨[.peerPicked peer, .setPick, .pickPeer outcome, .setPicked], ?_⟩
          simp [System.run, threads, Threaded.step, Session.atRest, hstate, Threaded.setMain,
            Threaded.setVm, ViewModel.onPeerPicked]
      | _ =>
          simp only [Session.step, hstate] at hstep
          obtain rfl := Option.some.inj hstep
          refine ⟨[.peerPicked peer], ?_⟩
          simp [System.run, threads, Threaded.step, Session.atRest, hstate]
  | exchangeReturns =>
      simp only [Session.step] at hstep
      split at hstep
      next address keystoreAlias phonePubkey hostPubkey hexchange =>
        obtain rfl := Option.some.inj hstep
        have hreturns : (threads prim oobCode keystoreKey).step session.atRest .exchangeReturns =
            some (session.atRest.result prim
              ⟨address, keystoreAlias, phonePubkey, .phoneWritten hostPubkey⟩ hostPubkey) := by
          simp [threads, Threaded.step, Session.atRest, hexchange]
        cases hresult : session.backend.exchangeResult prim
            ⟨address, keystoreAlias, phonePubkey, .phoneWritten hostPubkey⟩ hostPubkey with
        | failed reason =>
            refine ⟨[.exchangeReturns], ?_⟩
            rw [System.run_cons, hreturns]
            simp [System.run, Threaded.result, Session.atRest, Session.deliver, hresult]
        | bonded bondKey peerName resultAlias resultPubkey =>
            cases hstate : session.vm.state with
            | lescNegotiating code =>
                refine ⟨.exchangeReturns :: .onLescResult :: takesResult, ?_⟩
                let callback : Callback :=
                  ⟨address, bondKey, peerName, resultAlias, resultPubkey, .called⟩
                let called := session.atRest.result prim
                  ⟨address, keystoreAlias, phonePubkey, .phoneWritten hostPubkey⟩ hostPubkey
                have hcalled : called.callback = some callback := by
                  simp [called, callback, Threaded.result, Session.atRest, hresult]
                have hnegotiating : called.session.vm.state = .lescNegotiating code := hstate
                have hcheck : (threads prim oobCode keystoreKey).step called .onLescResult =
                    some (called.advance callback .checked) := by
                  simp [threads, Threaded.step, Threaded.resultStep, hcalled, callback,
                    hnegotiating]
                rw [System.run_cons, hreturns, Option.bind_some, System.run_cons, hcheck,
                  Option.bind_some, run_takesResult rfl rfl]
                simp [called, callback, Threaded.result, Session.atRest, Session.deliver, hresult,
                  hstate, ViewModel.onLescResult, Threaded.setVm, Threaded.advance, renamed]
                cases session.vm.pickedPeer <;> rfl
            | _ =>
                refine ⟨[.exchangeReturns, .onLescResult], ?_⟩
                rw [System.run_cons, hreturns]
                simp [System.run, threads, Threaded.step, Threaded.resultStep, Threaded.result,
                  Session.atRest, Session.deliver, hresult, hstate, ViewModel.onLescResult]
      next => cases hstep
  | _ => exact hwhole (by simp [SessionEvent.runs])

/-- So is every run. -/
theorem run_of_session_run {session next : Session} {events : List SessionEvent}
    (hrun : (Pair.session prim oobCode keystoreKey).run session events = some next) :
    ∃ steps, (threads prim oobCode keystoreKey).run session.atRest steps = some next.atRest := by
  induction events generalizing session with
  | nil =>
      obtain rfl := Option.some.inj hrun
      exact ⟨[], rfl⟩
  | cons event events ih =>
      obtain ⟨middle, hstep, hrest⟩ := System.run_cons_eq_some _ |>.mp hrun
      obtain ⟨first, hfirst⟩ := run_of_step hstep
      obtain ⟨steps, hsteps⟩ := ih hrest
      exact ⟨first ++ steps, System.run_append_eq_some _ |>.mpr ⟨_, hfirst, hsteps⟩⟩

end Syauth.Android.Pair
