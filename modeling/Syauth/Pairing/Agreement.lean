import Syauth.Pairing.Devices

/-! # Agreement of the two devices

The desktop commits to a bond when the phone's key is written to it, the phone after its
user has compared the codes.  A forwarded key is a promise of the phone, kept when the
user goes on to confirm and the record is saved.
-/

namespace Syauth.Pairing

open Android.Pair Presenced Transition

variable (cfg : Setting)

/-- A Yes tap that took effect: the record it passed on and what the screen showed. -/
structure Confirmation where
  record : BondRecord
  shown : PairingState
  deriving DecidableEq

def Devices.observe (s : Devices) : DevicesEvent → List Confirmation
  | .oobYesTapped _ =>
      s.session.vm.persistCall.toList.map fun record => ⟨record, s.session.vm.state⟩
  | _ => []

/-- The user confirmed the code of the key, and the phone holds a record with it. -/
structure Held (seen : List Confirmation) (phoneDisk : Option Android.BondRecord)
    (bondKey : Bytes) : Prop where
  confirmed : ∃ yes ∈ seen, yes.record.bondKey = bondKey ∧
    yes.shown = .oobConfirming (cfg.oobCode bondKey)
  recorded : ∃ record, phoneDisk = some record ∧ record.bondKey = bondKey

/-- Every bonded record of the phone on the desktop has a key that the phone holds. -/
def Agrees (seen : List Confirmation) (s : Devices) : Prop :=
  ∀ bond ∈ phoneRecords cfg s.desktop, ∀ bondKey,
    s.desktop.keys (bond.peerId ++ bondKeyFileExt) = .ok bondKey →
      Held cfg seen s.phoneDisk bondKey

/-- No step is pending on either device, and no question is open. -/
structure Quiescent (s : Devices) : Prop where
  queue : s.queue = []
  exchange : s.session.backend.exchange = none
  threads : s.session.backend.threads = []
  associating : s.session.vm.associating = []
  answered : ∀ emoji, s.session.vm.state ≠ .oobConfirming emoji

def isNegotiating : PairingState → Bool
  | .lescNegotiating _ => true
  | _ => false

def isConfirming : PairingState → Bool
  | .oobConfirming _ => true
  | _ => false

theorem isNegotiating_iff {state : PairingState} :
    isNegotiating state ↔ ∃ code, state = .lescNegotiating code := by
  cases state <;> simp [isNegotiating]

/-- The save made for a Yes tap succeeds for a forwarded key, or spares the record of an
earlier tap. -/
def SavesForwarded (s : Devices) (faults : Android.SaveFaults) : Prop :=
  (faults.stopsEarly s.phoneDisk = true ∧ s.session.vm.associating ≠ []) ∨
    (faults.stopsEarly s.phoneDisk = false ∧ faults.renameFailed = false)

instance (s : Devices) (faults : Android.SaveFaults) : Decidable (SavesForwarded s faults) :=
  inferInstanceAs (Decidable (_ ∨ _))

/-- The save made for a Yes tap spares the phone's record of a bond that the desktop has. -/
def SparesRecord (s : Devices) (record : BondRecord) (faults : Android.SaveFaults) : Prop :=
  phoneRecords cfg s.desktop = [] ∨ faults.stopsEarly s.phoneDisk = true ∨
    (faults.renameFailed = false ∧ s.phoneDisk.map (·.bondKey) = some record.bondKey)

instance (s : Devices) (record : BondRecord) (faults : Android.SaveFaults) :
    Decidable (SparesRecord cfg s record faults) :=
  inferInstanceAs (Decidable (_ ∨ _ ∨ _))

/-- The phone's key is forwarded only while the phone negotiates and learns of it; from
then on the negotiation is not cancelled, the code is not refused before it was
confirmed, and the record is saved.  An older bond of the phone on the desktop is
replaced or left alone on both sides. -/
def KeepsPromise (s : Devices) : DevicesEvent → Prop
  | .phoneWritten forwarded result =>
      forwarded → result = .ok () ∧ isNegotiating s.session.vm.state
  | .phone .cancelTapped => s.forwarded → ¬ isNegotiating s.session.vm.state
  | .phone .oobNoTapped =>
      s.forwarded → isConfirming s.session.vm.state → s.session.vm.associating ≠ []
  | .oobYesTapped faults => ∀ record ∈ s.session.vm.persistCall,
      if s.forwarded then SavesForwarded s faults else SparesRecord cfg s record faults
  | .consume now keyWrite readFault saveOutcome reloadSent =>
      phoneRecords cfg s.desktop = [] ∨ ∀ key ∈ s.queue.head?, Persists cfg.prim s.desktop
        ⟨cfg.hostPubkey, key, now, keyWrite, readFault, saveOutcome, reloadSent⟩
  | _ => True

instance (s : Devices) (event : DevicesEvent) : Decidable (KeepsPromise cfg s event) :=
  match event with
  | .phoneWritten forwarded result =>
      inferInstanceAs (Decidable (forwarded → result = .ok () ∧ isNegotiating s.session.vm.state))
  | .phone .cancelTapped =>
      inferInstanceAs (Decidable (s.forwarded → ¬ isNegotiating s.session.vm.state))
  | .phone .oobNoTapped =>
      inferInstanceAs (Decidable (s.forwarded → isConfirming s.session.vm.state →
        s.session.vm.associating ≠ []))
  | .oobYesTapped faults =>
      inferInstanceAs (Decidable (∀ record ∈ s.session.vm.persistCall,
        if s.forwarded then SavesForwarded s faults else SparesRecord cfg s record faults))
  | .consume now keyWrite readFault saveOutcome reloadSent =>
      inferInstanceAs (Decidable (phoneRecords cfg s.desktop = [] ∨
        ∀ key ∈ s.queue.head?, Persists cfg.prim s.desktop
          ⟨cfg.hostPubkey, key, now, keyWrite, readFault, saveOutcome, reloadSent⟩))
  | .phone .startScanTapped | .phone (.peerPicked _ _) | .phone (.pairingAccepted _)
  | .phone (.pairingRejected _) | .phone (.bonded _) | .phone .bondFailed | .phone (.workerRuns _ _)
  | .phone (.hostRead _) | .phone (.phoneWritten _) | .phone .exchangeReturns
  | .phone (.oobYesTapped _) | .phone (.associated _ _) | .hostRead _ => .isTrue trivial

/-! ## The desktop -/

/-- The key both sides derive for this pairing. -/
def sharedKey : Bytes := (bondKeyFromPubkeys cfg.prim cfg.hostPubkey (phoneKey cfg)).val

/-- The desktop has no bonded record of the phone, or it has the shared key. -/
def SharesKey (desktop : PairDisk) : Prop :=
  ∀ bond ∈ phoneRecords cfg desktop,
    desktop.keys (bond.peerId ++ bondKeyFileExt) = .ok (sharedKey cfg)

variable {cfg}

/-- A consumed key replaces every record of the phone. -/
theorem sharesKey_of_persists {desktop : PairDisk} {event : PairEvent}
    (hpersists : Persists cfg.prim desktop event) (hhost : event.hostPubkey = cfg.hostPubkey)
    (hphone : event.phonePubkey = phoneKey cfg) :
    SharesKey cfg (consumePairEvent cfg.prim desktop event).2 := by
  obtain ⟨hkey, store, hwritable⟩ := hpersists
  intro bond hbond
  obtain ⟨file, hfile, hmem, -, hpubkey⟩ := (mem_phoneRecords cfg).mp hbond
  rw [consumePairEvent_of_writable cfg.prim hkey hwritable, BondStore.saved] at hfile
  cases hfile
  rcases List.mem_append.mp hmem with hold | hnew
  · -- the store had one record of the phone's identifier, and it was erased
    have hpeer : bond.peerId = event.peerId cfg.prim := by
      rw [PairEvent.peerId, hphone, ← hpubkey]
      exact BondStore.peerId_of_load hwritable.load_eq (List.mem_of_mem_eraseP hold)
    have hsecond : (store.bonds.eraseP fun b => b.peerId = event.peerId cfg.prim).any
        (fun b => b.peerId = event.peerId cfg.prim) :=
      List.any_eq_true.mpr ⟨bond, hold, by simpa using hpeer⟩
    exact absurd hwritable.single (any_eraseP_iff.mp hsecond)
  · cases List.mem_singleton.mp hnew
    rw [consumePairEvent_keys_of_written cfg.prim hkey, PairEvent.bond, Function.update_self,
      PairEvent.bondKey, hhost, hphone]
    rfl

theorem sharesKey_consume {desktop : PairDisk} {event : PairEvent}
    (hsafe : phoneRecords cfg desktop = [] ∨ Persists cfg.prim desktop event)
    (hhost : event.hostPubkey = cfg.hostPubkey) (hphone : event.phonePubkey = phoneKey cfg) :
    SharesKey cfg (consumePairEvent cfg.prim desktop event).2 := by
  by_cases hpersists : Persists cfg.prim desktop event
  · exact sharesKey_of_persists hpersists hhost hphone
  · -- the file is as before, without a record of the phone
    intro bond hbond
    rw [phoneRecords, consumePairEvent_of_not_persists cfg.prim hpersists, ← phoneRecords,
      hsafe.resolve_right hpersists] at hbond
    cases hbond

/-! ## The phone -/

section Phone

variable {seen : List Confirmation} {session next : Session} {phoneDisk : Option Android.BondRecord}
variable {bondKey : Bytes} {event : SessionEvent}

variable (cfg) in
/-- The exchange has the key of its device, and what it read from the desktop is the host
key. -/
structure Genuine (exchange : Exchange) : Prop where
  minted : exchange.phonePubkey = cfg.keystoreKey (Backend.keystoreAliasFor exchange.address)
  host : exchange.address = cfg.desktopAddress →
    ∀ hostPubkey, exchange.phase = .hostRead hostPubkey → hostPubkey = cfg.hostPubkey.val

variable (cfg) in
/-- What holds on the phone in every run. -/
structure Sound (session : Session) : Prop where
  started : session.backend.exchange ≠ none → session.backend.exchangeStarted = true
  genuine : ∀ exchange, session.backend.exchange = some exchange → Genuine cfg exchange
  not_associating : session.vm.state = .idle ∨ session.vm.state = .scanning ∨
    (∃ code, session.vm.state = .lescNegotiating code) → session.vm.associating = []

variable (cfg) in
/-- The phone is on its way to hold the shared key, or holds it. -/
inductive Promised (seen : List Confirmation) (session : Session)
    (phoneDisk : Option Android.BondRecord) : Prop
  | negotiating {exchange : Exchange} {code : String}
      (hexchange : session.backend.exchange = some exchange)
      (hphase : exchange.phase = .phoneWritten cfg.hostPubkey.val)
      (hkey : exchange.phonePubkey = phoneKey cfg)
      (hstate : session.vm.state = .lescNegotiating code)
  | asked (hexchange : session.backend.exchange = none)
      (hstate : session.vm.state = .oobConfirming (cfg.oobCode (sharedKey cfg)))
      (hstash : session.vm.stashedBondKey = some (sharedKey cfg))
      (hheld : session.vm.associating ≠ [] → Held cfg seen phoneDisk (sharedKey cfg))
  | ended (hexchange : session.backend.exchange = none)
      (hstate : (∃ name, session.vm.state = .bonded name) ∨
        ∃ reason, session.vm.state = .failed reason)
      (hheld : Held cfg seen phoneDisk (sharedKey cfg))

theorem Held.append (hheld : Held cfg seen phoneDisk bondKey) (more : List Confirmation) :
    Held cfg (seen ++ more) phoneDisk bondKey := by
  obtain ⟨⟨yes, hmem, hyes⟩, hrecorded⟩ := hheld
  exact ⟨⟨yes, List.mem_append_left more hmem, hyes⟩, hrecorded⟩

theorem sound_new : Sound cfg .new := by
  refine ⟨fun hexchange => absurd rfl hexchange, fun exchange hexchange => ?_, fun _ => rfl⟩
  cases hexchange

/-- A step of the backend that keeps the exchange, or ends it. -/
theorem Sound.backend {backend : Backend} (hsound : Sound cfg session)
    (hexchange : backend.exchange = session.backend.exchange ∨ backend.exchange = none)
    (hstarted : session.backend.exchangeStarted = true → backend.exchangeStarted = true) :
    Sound cfg { session with backend := backend } := by
  obtain hsame | hnone := hexchange
  · refine ⟨fun hsome => hstarted (hsound.started ?_), fun exchange hsome => ?_,
      hsound.not_associating⟩
    · rw [← hsame]
      exact hsome
    · exact hsound.genuine exchange (hsame.symm.trans hsome)
  · refine ⟨fun hsome => absurd hnone hsome, fun exchange hsome => ?_, hsound.not_associating⟩
    rw [hnone] at hsome
    cases hsome

/-- A step of the view model. -/
theorem Sound.screen {vm : ViewModel} {vmEvent : ViewModelEvent} (hsound : Sound cfg session)
    (hvm : ViewModelStep cfg.oobCode session.vm vmEvent vm) :
    Sound cfg { session with vm := vm } := by
  refine ⟨hsound.started, hsound.genuine, fun hearly => ?_⟩
  have hnone := hsound.not_associating
  cases hvm with
  | ignored hcalls => exact hnone hearly
  | scan hstate => exact hnone (.inl hstate)
  | cancel hstate => exact hnone (.inr hstate)
  | pick hstate => exact hnone (.inr (.inl hstate))
  | exchange hstate => exact hnone (.inr (.inr ⟨_, hstate⟩))
  | exchangeFailed hstate => exact hnone (.inr (.inr ⟨_, hstate⟩))
  | persist hcall =>
      obtain ⟨emoji, hstate⟩ := ViewModel.confirming_of_persistCall hcall
      simp [hstate] at hearly
  | persistFailed hcall => simp at hearly
  | refuse hstate => simp at hearly
  | @associated i result peer hawaited =>
      cases result with
      | ok done => simp at hearly
      | error reason => simp at hearly

theorem exchange_pickPeer (backend : Backend) (peer : PeerHandle) (outcome : PickOutcome) :
    (backend.pickPeer peer outcome).2.exchange = backend.exchange ∧
      (backend.pickPeer peer outcome).2.exchangeStarted = backend.exchangeStarted := by
  cases outcome <;> exact ⟨rfl, rfl⟩

theorem exchange_onBondedFromReceiver (backend : Backend) (address : String) :
    (backend.onBondedFromReceiver address).exchange = backend.exchange ∧
      (backend.onBondedFromReceiver address).exchangeStarted = backend.exchangeStarted := by
  unfold Backend.onBondedFromReceiver
  split
  · exact ⟨rfl, rfl⟩
  · exact ⟨rfl, rfl⟩

theorem Sound.run {address : String} {outcome : BeginOutcome} (hsound : Sound cfg session) :
    Sound cfg { session with
      backend := session.backend.runPostBondExchange cfg.keystoreKey address outcome } := by
  unfold Backend.runPostBondExchange
  split
  · exact hsound
  · cases outcome with
    | noExchange => exact hsound.backend (.inl rfl) fun _ => rfl
    | keystoreUnavailable => exact hsound.backend (.inl rfl) fun _ => rfl
    | mintFailed message => exact hsound.backend (.inl rfl) fun _ => rfl
    | minted =>
        -- the exchange starts, and no host key is known yet
        refine ⟨fun _ => rfl, fun exchange hexchange => ?_, hsound.not_associating⟩
        cases hexchange
        exact ⟨rfl, fun _ hostPubkey hphase => by cases hphase⟩

/-- A claimed exchange stays claimed. -/
theorem started_of_step
    (hstep : SessionStep cfg.prim cfg.oobCode cfg.keystoreKey session event next)
    (hstarted : session.backend.exchangeStarted = true) : next.backend.exchangeStarted = true := by
  cases hstep with
  | @pick peer outcome hstate =>
      exact (exchange_pickPeer session.backend peer outcome).2.trans hstarted
  | report hsame hevent => exact hsame.exchangeStarted.trans hstarted
  | @bonded address =>
      exact (exchange_onBondedFromReceiver session.backend address).2.trans hstarted
  | run hthread =>
      rw [Backend.runPostBondExchange, if_pos hstarted]
      exact hstarted
  | _ => exact hstarted

theorem Sound.step (hsound : Sound cfg session)
    (hstep : SessionStep cfg.prim cfg.oobCode cfg.keystoreKey session event next)
    (hanswer : ∀ exchange result, session.backend.exchange = some exchange →
      event = .hostRead result →
      answersRead cfg exchange result) : Sound cfg next := by
  cases hstep with
  | screen hevent hvm => exact hsound.screen hvm
  | @pick peer outcome hstate =>
      -- a pick spawns a thread at most, and the exchange is the thread's to start
      obtain ⟨hexchange, hstarted⟩ := exchange_pickPeer session.backend peer outcome
      have hbackend := hsound.backend (.inl hexchange) fun h => hstarted.trans h
      exact hbackend.screen (.pick hstate)
  | pickIgnored hstate => exact hsound
  | report hsame hevent => exact hsound.backend (.inl hsame.exchange) hsame.exchangeStarted.trans
  | @bonded address =>
      obtain ⟨hexchange, hstarted⟩ := exchange_onBondedFromReceiver session.backend address
      exact hsound.backend (.inl hexchange) hstarted.trans
  | @run i outcome address hthread =>
      have herased : Sound cfg { session with
          backend := { session.backend with threads := session.backend.threads.eraseIdx i } } :=
        hsound.backend (.inl rfl) id
      exact herased.run
  | @read exchange hostPubkey hexchange hphase =>
      have hstarted := hsound.started (by simp [hexchange])
      refine ⟨fun _ => hstarted, fun other hother => ?_, hsound.not_associating⟩
      cases hother
      refine ⟨(hsound.genuine exchange hexchange).minted, fun haddress other hread => ?_⟩
      cases hread
      have hanswered := hanswer exchange _ hexchange rfl
      simp only at haddress
      simpa [answersRead, haddress] using hanswered
  | readFailed hexchange hphase => exact hsound.backend (.inr rfl) id
  | @write exchange hostPubkey hexchange hphase =>
      have hstarted := hsound.started (by simp [hexchange])
      refine ⟨fun _ => hstarted, fun other hother => ?_, hsound.not_associating⟩
      cases hother
      exact ⟨(hsound.genuine exchange hexchange).minted, fun _ other hread => by cases hread⟩
  | writeFailed hexchange hphase => exact hsound.backend (.inr rfl) id
  | @deliver exchange hostPubkey hexchange hphase =>
      have hended : ∀ result, Sound cfg { session with backend :=
          ({ session.backend with exchange := none } : Backend).complete result } :=
        fun _ => hsound.backend (.inr rfl) id
      have hvm : ∀ result, ViewModelStep cfg.oobCode session.vm (.lescResult result)
          (session.vm.onLescResult cfg.oobCode result) := fun _ => ViewModel.step_sound rfl
      simp only [Session.deliver]
      split
      · exact (hended _).screen (hvm _)
      · exact hended _

/-- A write finds the host key read, and moves the exchange on if it succeeds. -/
theorem phase_of_write {exchange : Exchange} {result : Except String Unit}
    (hstep : SessionStep cfg.prim cfg.oobCode cfg.keystoreKey session (.phoneWritten result) next)
    (hexchange : session.backend.exchange = some exchange) :
    ∃ hostPubkey, exchange.phase = .hostRead hostPubkey ∧
      (result = .ok () → next = { session with backend := { session.backend with
        exchange := some { exchange with phase := .phoneWritten hostPubkey } } }) := by
  cases hstep with
  | screen hevent hvm => cases hevent
  | report hsame hevent => simp at hevent
  | @write other hostPubkey hother hphase =>
      cases hexchange.symm.trans hother
      exact ⟨hostPubkey, hphase, fun _ => rfl⟩
  | @writeFailed other hostPubkey message hother hphase =>
      cases hexchange.symm.trans hother
      exact ⟨hostPubkey, hphase, fun hok => by cases hok⟩

theorem Promised.underway (hpromised : Promised cfg seen session phoneDisk) :
    session.vm.state ≠ .idle ∧ session.vm.state ≠ .scanning := by
  cases hpromised with
  | negotiating hexchange hphase hkey hstate => simp [hstate]
  | asked hexchange hstate hstash hheld => simp [hstate]
  | ended hexchange hstate hheld =>
      obtain ⟨name, hstate⟩ | ⟨reason, hstate⟩ := hstate
      · simp [hstate]
      · simp [hstate]

/-- The exchange is past its write. -/
theorem Promised.phase {exchange : Exchange} (hpromised : Promised cfg seen session phoneDisk)
    (hexchange : session.backend.exchange = some exchange) :
    exchange.phase = .phoneWritten cfg.hostPubkey.val := by
  cases hpromised with
  | negotiating hsome hphase hkey hstate =>
      rw [hexchange] at hsome
      cases hsome
      exact hphase
  | asked hnone hstate hstash hheld =>
      rw [hexchange] at hnone
      cases hnone
  | ended hnone hstate hheld =>
      rw [hexchange] at hnone
      cases hnone

theorem Promised.backend {backend : Backend} (hpromised : Promised cfg seen session phoneDisk)
    (hsame : backend.exchange = session.backend.exchange) :
    Promised cfg seen { session with backend := backend } phoneDisk := by
  cases hpromised with
  | negotiating hexchange hphase hkey hstate =>
      exact .negotiating (hsame.trans hexchange) hphase hkey hstate
  | asked hexchange hstate hstash hheld => exact .asked (hsame.trans hexchange) hstate hstash hheld
  | ended hexchange hstate hheld => exact .ended (hsame.trans hexchange) hstate hheld

/-- Once an association is awaited the phone holds the record. -/
theorem Promised.held (hpromised : Promised cfg seen session phoneDisk) (hsound : Sound cfg session)
    (hassociating : session.vm.associating ≠ []) :
    session.backend.exchange = none ∧ Held cfg seen phoneDisk (sharedKey cfg) := by
  cases hpromised with
  | negotiating hexchange hphase hkey hstate =>
      exact absurd (hsound.not_associating (.inr (.inr ⟨_, hstate⟩))) hassociating
  | asked hexchange hstate hstash hheld => exact ⟨hexchange, hheld hassociating⟩
  | ended hexchange hstate hheld => exact ⟨hexchange, hheld⟩

theorem Promised.screen {vm : ViewModel} {vmEvent : ViewModelEvent}
    (hpromised : Promised cfg seen session phoneDisk) (hsound : Sound cfg session)
    (hphone : onPhone event) (hevent : event.onScreen = some vmEvent)
    (hcancel : event = .cancelTapped → ¬ isNegotiating session.vm.state)
    (hrefuse : event = .oobNoTapped → isConfirming session.vm.state → session.vm.associating ≠ [])
    (hvm : ViewModelStep cfg.oobCode session.vm vmEvent vm) :
    Promised cfg seen { session with vm := vm } phoneDisk := by
  cases hvm with
  | ignored hcalls => exact hpromised
  | scan hstate => exact absurd hstate hpromised.underway.1
  | cancel hstate =>
      obtain hstate | ⟨code, hstate⟩ := hstate
      · exact absurd hstate hpromised.underway.2
      · have hevent : event = .cancelTapped := by cases event <;> cases hevent; rfl
        exact absurd (isNegotiating_iff.mpr ⟨code, hstate⟩) (hcancel hevent)
  | persist hcall =>
      -- a Yes tap also saves a record, and is a step of both the session and the disk
      cases event <;> cases hevent
      cases hphone
  | persistFailed hcall =>
      cases event <;> cases hevent
      cases hphone
  | @refuse emoji hstate =>
      have hevent : event = .oobNoTapped := by cases event <;> cases hevent; rfl
      obtain ⟨hexchange, hheld⟩ :=
        hpromised.held hsound (hrefuse hevent (by rw [hstate]; rfl))
      exact .ended hexchange (.inr ⟨_, rfl⟩) hheld
  | @associated i result peer hawaited =>
      have hassociating : session.vm.associating ≠ [] :=
        List.ne_nil_of_mem (List.mem_of_getElem? hawaited)
      obtain ⟨hexchange, hheld⟩ := hpromised.held hsound hassociating
      cases result with
      | ok done => exact .ended hexchange (.inl ⟨_, rfl⟩) hheld
      | error reason => exact .ended hexchange (.inr ⟨_, rfl⟩) hheld
  | pick hstate => cases event <;> cases hevent
  | exchange hstate => cases event <;> cases hevent
  | exchangeFailed hstate => cases event <;> cases hevent

/-- The result of the exchange asks the user for the code of the shared key. -/
theorem Promised.deliver {exchange : Exchange} (hpromised : Promised cfg seen session phoneDisk)
    (hsound : Sound cfg session) (hexchange : session.backend.exchange = some exchange) :
    Promised cfg seen (session.deliver cfg.prim cfg.oobCode exchange cfg.hostPubkey.val)
      phoneDisk := by
  cases hpromised with
  | @negotiating running code hsome hphase hkey hstate =>
      rw [hexchange] at hsome
      cases hsome
      have hnone : session.vm.associating = [] :=
        hsound.not_associating (.inr (.inr ⟨code, hstate⟩))
      have hresult : ∃ peerName,
          session.backend.exchangeResult cfg.prim exchange cfg.hostPubkey.val =
          .bonded (sharedKey cfg) peerName exchange.keystoreAlias exchange.phonePubkey.val := by
        have hlen : cfg.hostPubkey.val.length = pairPubkeyLen := cfg.hostPubkey.property
        rw [Backend.exchangeResult, dif_pos hlen, hkey]
        exact ⟨_, rfl⟩
      obtain ⟨peerName, hresult⟩ := hresult
      simp only [Session.deliver, hresult, ViewModel.onLescResult, hstate]
      exact .asked rfl rfl rfl fun hassociating => absurd hnone hassociating
  | asked hnone hstate hstash hheld =>
      rw [hexchange] at hnone
      cases hnone
  | ended hnone hstate hheld =>
      rw [hexchange] at hnone
      cases hnone

theorem Promised.step (hpromised : Promised cfg seen session phoneDisk) (hsound : Sound cfg session)
    (hstarted : session.backend.exchangeStarted = true) (hphone : onPhone event)
    (hcancel : event = .cancelTapped → ¬ isNegotiating session.vm.state)
    (hrefuse : event = .oobNoTapped → isConfirming session.vm.state → session.vm.associating ≠ [])
    (hstep : SessionStep cfg.prim cfg.oobCode cfg.keystoreKey session event next) :
    Promised cfg seen next phoneDisk := by
  cases hstep with
  | screen hevent hvm => exact hpromised.screen hsound hphone hevent hcancel hrefuse hvm
  | pick hstate => exact absurd hstate hpromised.underway.2
  | pickIgnored hstate => exact hpromised
  | report hsame hevent => exact hpromised.backend hsame.exchange
  | @bonded address =>
      exact hpromised.backend (exchange_onBondedFromReceiver session.backend address).1
  | run hthread =>
      -- the exchange was claimed before, so that no other worker gets beyond the flag
      apply hpromised.backend
      rw [Backend.runPostBondExchange, if_pos hstarted]
  | read hexchange hphase => cases hphone
  | readFailed hexchange hphase => cases hphone
  | write hexchange hphase => cases hphone
  | writeFailed hexchange hphase => cases hphone
  | deliver hexchange hphase =>
      cases (hpromised.phase hexchange).symm.trans hphase
      exact hpromised.deliver hsound hexchange

theorem persistCall_of_asked {record : BondRecord} {emoji : List String}
    (hstash : session.vm.stashedBondKey = some bondKey)
    (hstate : session.vm.state = .oobConfirming emoji)
    (hcall : session.vm.persistCall = some record) : record.bondKey = bondKey := by
  simp only [ViewModel.persistCall, hstate, hstash] at hcall
  split at hcall
  · next heq =>
      cases heq
      cases hcall
      rfl
  · cases hcall

/-- A Yes tap saves the record, or fails and leaves the one an earlier tap saved. -/
theorem Promised.yes {faults : Android.SaveFaults} {record : BondRecord} {vm : ViewModel}
    (hpromised : Promised cfg seen session phoneDisk)
    (hcall : session.vm.persistCall = some record)
    (hsaves : (faults.stopsEarly phoneDisk = true ∧ session.vm.associating ≠ []) ∨
      (faults.stopsEarly phoneDisk = false ∧ faults.renameFailed = false))
    (hvm : ViewModelStep cfg.oobCode session.vm
      (.oobYesTapped (persist cfg phoneDisk record faults).1) vm) :
    Promised cfg (seen ++ [⟨record, session.vm.state⟩]) { session with vm := vm }
      (persist cfg phoneDisk record faults).2 := by
  obtain ⟨emoji, hconfirming⟩ := ViewModel.confirming_of_persistCall hcall
  cases hpromised with
  | negotiating hexchange hphase hkey hstate =>
      rw [hconfirming] at hstate
      cases hstate
  | ended hexchange hstate hheld => simp [hconfirming] at hstate
  | asked hexchange hstate hstash hheld =>
      have hrecord := persistCall_of_asked hstash hstate hcall
      obtain ⟨hearly, hassociating⟩ | ⟨hearly, hrename⟩ := hsaves
      · obtain ⟨message, hfailed⟩ := persist_of_stopsEarly cfg record hearly
        rw [hfailed] at hvm ⊢
        cases hvm with
        | ignored hcalls => simp [ViewModel.calls, hcall] at hcalls
        | persistFailed hcall =>
            exact .ended hexchange (.inr ⟨_, rfl⟩) ((hheld hassociating).append _)
      · obtain ⟨saved, hsaved, hkey⟩ := persist_of_saved cfg record hearly hrename
        rw [hsaved] at hvm ⊢
        have hheld : Held cfg (seen ++ [⟨record, session.vm.state⟩]) (some saved) (sharedKey cfg) :=
          ⟨⟨_, List.mem_append_right seen (List.mem_singleton_self _), hrecord, hstate⟩,
            saved, rfl, hkey.trans hrecord⟩
        cases hvm with
        | ignored hcalls => simp [ViewModel.calls, hcall] at hcalls
        | persist hcall => exact .asked hexchange hstate hstash fun _ => hheld

end Phone

/-! ## The whole run -/

section Run

variable {seen : List Confirmation} {s t : Devices} {event : DevicesEvent}

variable (cfg) in
/-- Before the key is forwarded the devices agree; after that the phone has made a
promise, and the desktop has the key or waits to consume it. -/
structure Inv (seen : List Confirmation) (s : Devices) : Prop where
  sound : Sound cfg s.session
  before : s.forwarded = false → s.queue = [] ∧ Agrees cfg seen s
  after : s.forwarded = true → s.session.backend.exchangeStarted = true ∧
    Promised cfg seen s.session s.phoneDisk ∧
    (s.queue = [phoneKey cfg] ∨ (s.queue = [] ∧ SharesKey cfg s.desktop))

theorem Inv.agrees (hinv : Inv cfg seen s) (hquiet : Quiescent s) : Agrees cfg seen s := by
  cases hforwarded : s.forwarded with
  | false => exact (hinv.before hforwarded).2
  | true =>
      obtain ⟨-, hpromised, hwaits | ⟨-, hshares⟩⟩ := hinv.after hforwarded
      · rw [hquiet.queue] at hwaits
        cases hwaits
      · intro bond hbond bondKey hkey
        have hshared := hshares bond hbond
        rw [hkey] at hshared
        cases hshared
        cases hpromised with
        | negotiating hexchange hphase hkey hstate =>
            rw [hquiet.exchange] at hexchange
            cases hexchange
        | asked hexchange hstate hstash hheld => exact absurd hstate (hquiet.answered _)
        | ended hexchange hstate hheld => exact hheld

theorem Agrees.append (hagrees : Agrees cfg seen s) (more : List Confirmation) :
    Agrees cfg (seen ++ more) s := by
  intro bond hbond bondKey hkey
  exact (hagrees bond hbond bondKey hkey).append more

/-- A save that spares the phone's record keeps the agreement over an older bond. -/
theorem Agrees.persist {record : BondRecord} {faults : Android.SaveFaults} {session : Session}
    (hagrees : Agrees cfg seen s) (hspares : SparesRecord cfg s record faults) :
    Agrees cfg seen { s with
      session := session, phoneDisk := (persist cfg s.phoneDisk record faults).2 } := by
  intro bond hbond bondKey hkey
  have hheld := hagrees bond hbond bondKey hkey
  obtain hnone | hspares := hspares
  · rw [show phoneRecords cfg s.desktop = [] from hnone] at hbond
    cases hbond
  · cases hearly : faults.stopsEarly s.phoneDisk with
    | true =>
        obtain ⟨message, hfailed⟩ := persist_of_stopsEarly cfg record hearly
        simp only [hfailed]
        exact hheld
    | false =>
        obtain hstops | ⟨hrename, hsame⟩ := hspares
        · rw [hearly] at hstops
          cases hstops
        · obtain ⟨saved, hsaved, hsavedKey⟩ := persist_of_saved cfg record hearly hrename
          obtain ⟨old, hold, holdKey⟩ := hheld.recorded
          rw [hold, Option.map_some, holdKey] at hsame
          simp only [hsaved]
          exact ⟨hheld.confirmed, saved, rfl, hsavedKey.trans (Option.some.inj hsame).symm⟩

theorem Inv.phone {event : SessionEvent} {session : Session} (hinv : Inv cfg seen s)
    (hkeeps : KeepsPromise cfg s (.phone event)) (hphone : onPhone event)
    (hsession : SessionStep cfg.prim cfg.oobCode cfg.keystoreKey s.session event session) :
    Inv cfg seen { s with session := session } := by
  refine ⟨hinv.sound.step hsession ?_, hinv.before, fun hforwarded => ?_⟩
  · rintro exchange result - rfl
    cases hphone
  · obtain ⟨hstarted, hpromised, hdesktop⟩ := hinv.after hforwarded
    refine ⟨started_of_step hsession hstarted, ?_, hdesktop⟩
    apply hpromised.step hinv.sound hstarted hphone ?_ ?_ hsession
    · rintro rfl
      exact hkeeps hforwarded
    · rintro rfl
      exact hkeeps hforwarded

theorem Inv.read {exchange : Exchange} {result : Except String Bytes} {session : Session}
    (hinv : Inv cfg seen s) (hexchange : s.session.backend.exchange = some exchange)
    (hanswer : answersRead cfg exchange result)
    (hsession : SessionStep cfg.prim cfg.oobCode cfg.keystoreKey s.session (.hostRead result)
      session) :
    Inv cfg seen { s with session := session } := by
  refine ⟨hinv.sound.step hsession ?_, hinv.before, fun hforwarded => ?_⟩
  · rintro other _ hother ⟨⟩
    rw [hexchange] at hother
    cases hother
    exact hanswer
  · -- a promise is made after the read
    obtain ⟨hstarted, hpromised, hdesktop⟩ := hinv.after hforwarded
    cases hsession with
    | screen hevent hvm => cases hevent
    | report hsame hevent => simp at hevent
    | read hread hphase => cases (hpromised.phase hread).symm.trans hphase
    | readFailed hread hphase => cases (hpromised.phase hread).symm.trans hphase

/-- The write makes the promise. -/
theorem Inv.write {exchange : Exchange} {forwarded : Bool} {result : Except String Unit}
    {session : Session} (hinv : Inv cfg seen s)
    (hkeeps : KeepsPromise cfg s (.phoneWritten forwarded result))
    (hexchange : s.session.backend.exchange = some exchange)
    (hreach : reachesWatcher cfg exchange forwarded)
    (hsession : SessionStep cfg.prim cfg.oobCode cfg.keystoreKey s.session (.phoneWritten result)
      session) :
    Inv cfg seen { s with
      session := session
      queue := if forwarded then s.queue ++ [exchange.phonePubkey] else s.queue
      forwarded := s.forwarded || forwarded } := by
  obtain ⟨hostPubkey, hphase, hwritten⟩ := phase_of_write hsession hexchange
  -- there is one exchange in a visit, and it has not written before
  have hnew : s.forwarded = false := by
    by_contra hforwarded
    obtain ⟨-, hpromised, -⟩ := hinv.after (by simpa using hforwarded)
    cases (hpromised.phase hexchange).symm.trans hphase
  obtain ⟨hqueue, hagrees⟩ := hinv.before hnew
  have hsound : Sound cfg session := hinv.sound.step hsession (by rintro other _ - ⟨⟩)
  have hstarted : session.backend.exchangeStarted = true :=
    started_of_step hsession (hinv.sound.started (by simp [hexchange]))
  cases forwarded with
  | false => exact ⟨hsound, fun _ => ⟨hqueue, hagrees⟩, by simp [hnew]⟩
  | true =>
      obtain ⟨rfl, hnegotiating⟩ := hkeeps rfl
      obtain ⟨code, hstate⟩ := isNegotiating_iff.mp hnegotiating
      have haddress : exchange.address = cfg.desktopAddress := by
        simpa [reachesWatcher] using hreach
      have hgenuine := hinv.sound.genuine exchange hexchange
      have hhost : hostPubkey = cfg.hostPubkey.val := hgenuine.host haddress hostPubkey hphase
      have hkey : exchange.phonePubkey = phoneKey cfg := by rw [hgenuine.minted, haddress, phoneKey]
      have hpromised : Promised cfg seen session s.phoneDisk := by
        rw [hwritten rfl, hhost]
        exact .negotiating rfl rfl hkey hstate
      exact ⟨hsound, by simp, fun _ => ⟨hstarted, hpromised, .inl (by simp [hqueue, hkey])⟩⟩

theorem Inv.step (hinv : Inv cfg seen s) (hkeeps : KeepsPromise cfg s event)
    (hstep : DevicesStep cfg s event t) : Inv cfg (seen ++ s.observe event) t := by
  cases hstep with
  | phone hphone hsession =>
      simp only [Devices.observe, List.append_nil]
      exact hinv.phone hkeeps hphone hsession
  | read hexchange hanswer hsession =>
      simp only [Devices.observe, List.append_nil]
      exact hinv.read hexchange hanswer hsession
  | write hexchange hreach hsession =>
      simp only [Devices.observe, List.append_nil]
      exact hinv.write hkeeps hexchange hreach hsession
  | ignoredYes hcall =>
      simp only [Devices.observe, hcall, Option.toList_none, List.map_nil, List.append_nil]
      exact hinv
  | yes hcall hvm =>
      simp only [Devices.observe, hcall, Option.toList_some, List.map_cons, List.map_nil]
      have hsaves := hkeeps _ hcall
      refine ⟨hinv.sound.screen hvm, fun hforwarded => ?_, fun hforwarded => ?_⟩
      · obtain ⟨hqueue, hagrees⟩ := hinv.before hforwarded
        rw [show s.forwarded = false from hforwarded, if_neg Bool.false_ne_true] at hsaves
        exact ⟨hqueue, (hagrees.append _).persist hsaves⟩
      · obtain ⟨hstarted, hpromised, hdesktop⟩ := hinv.after hforwarded
        rw [show s.forwarded = true from hforwarded, if_pos rfl] at hsaves
        exact ⟨hstarted, hpromised.yes hcall hsaves hvm, hdesktop⟩
  | consume hqueue =>
      simp only [Devices.observe, List.append_nil]
      refine ⟨hinv.sound, fun hforwarded => ?_, fun hforwarded => ?_⟩
      · obtain ⟨hnone, -⟩ := hinv.before hforwarded
        rw [hqueue] at hnone
        cases hnone
      · obtain ⟨hstarted, hpromised, hwaits | ⟨hnone, -⟩⟩ := hinv.after hforwarded
        · rw [hqueue] at hwaits
          cases hwaits
          refine ⟨hstarted, hpromised, .inr ⟨rfl, ?_⟩⟩
          have hsafe := hkeeps.imp_right fun hpersists => hpersists _ (by rw [hqueue]; rfl)
          exact sharesKey_consume hsafe rfl rfl
        · rw [hqueue] at hnone
          cases hnone

variable (cfg) in
/-- The devices agree where the events lead, if nothing is pending there.  The
confirmations of earlier visits count. -/
def AgreesAfter (earlier : List Confirmation) (initial : Devices)
    (events : List DevicesEvent) : Prop :=
  ∀ s, (devices cfg).run initial events = some s → Quiescent s →
    Agrees cfg (earlier ++ (devices cfg).trace Devices.observe initial events) s

/-- Devices that agree at first agree at the end of every visit in which the phone keeps
the promise of a forwarded key. -/
theorem pairing_agreement {earlier : List Confirmation} {initial : Devices}
    {events : List DevicesEvent} (hstart : (devices cfg).start initial)
    (hagrees : Agrees cfg earlier initial)
    (hkeeps : (devices cfg).AllSteps (KeepsPromise cfg) initial events) :
    AgreesAfter cfg earlier initial events := by
  intro s hrun hquiet
  obtain ⟨hsession, hqueue, hforwarded⟩ := hstart
  have hinitial : Inv cfg earlier initial := by
    refine ⟨?_, fun _ => ⟨hqueue, hagrees⟩, fun htrue => ?_⟩
    · rw [hsession]
      exact sound_new
    · rw [hforwarded] at htrue
      cases htrue
  have hinv := (devices cfg).run_trace_invariant_of_allSteps (KeepsPromise cfg) Devices.observe
    (Inv cfg) (fun seen s event t hinv hkeeps hstep => hinv.step hkeeps (Devices.step_sound hstep))
    hinitial hkeeps hrun
  exact hinv.agrees hquiet

def sampleSetting : Setting where
  prim := KnownAnswer.primitives
  oobCode := sampleWords
  keystoreKey := fun _ => KnownAnswer.pubkey
  hostPubkey := KnownAnswer.otherPubkey
  desktopAddress := "AA:BB:CC:DD:EE:FF"
  storageDir := "/data/user/0/com.sy.syauth.android/files"

/-- No bond on either side. -/
def unpaired : Devices := ⟨.new, none, [], false, ⟨.notFound, fun _ => .error "not found"⟩⟩

/-- The phone's key is written to the desktop and consumed there, and the phone asks. -/
def writtenAndConsumed : List DevicesEvent :=
  [.phone .startScanTapped, .phone (.peerPicked ⟨"AA:BB:CC:DD:EE:FF", "laptop"⟩ .alreadyBonded),
    .phone (.workerRuns 0 .minted), .hostRead (.ok KnownAnswer.otherPubkey.val),
    .phoneWritten true (.ok ()), .consume 0 .written false (.ok ()) true, .phone .exchangeReturns]

theorem unpaired_agrees : Agrees sampleSetting [] unpaired := by
  intro bond hbond
  cases hbond

theorem pairing_agreement_confirmed :
    AgreesAfter sampleSetting [] unpaired
      (writtenAndConsumed ++
        [.oobYesTapped ⟨false, none, false, false⟩, .phone (.associated 0 (.ok ()))]) :=
  pairing_agreement ⟨rfl, rfl, rfl⟩ unpaired_agrees (by decide)

/-- The user refuses the code, and the desktop keeps its bond. -/
theorem refused_pairing_bonded :
    (devices sampleSetting).start unpaired ∧ Agrees sampleSetting [] unpaired ∧
      ¬ AgreesAfter sampleSetting [] unpaired (writtenAndConsumed ++ [.phone .oobNoTapped]) := by
  refine ⟨⟨rfl, rfl, rfl⟩, unpaired_agrees, fun hagrees => ?_⟩
  have hheld := hagrees _ rfl ⟨rfl, rfl, rfl, rfl, fun emoji hstate => by cases hstate⟩
    ⟨KnownAnswer.peerId, KnownAnswer.pubkey, pairDefaultBondName, 0, .bonded⟩ (by decide)
    KnownAnswer.derivedKey.val (by decide)
  obtain ⟨record, hrecord, -⟩ := hheld.recorded
  cases hrecord

end Run

end Syauth.Pairing
