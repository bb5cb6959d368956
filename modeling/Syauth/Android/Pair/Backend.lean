import Syauth.Android.Pair.ViewModel
import Syauth.Core.Crypto

/-! # The pairing backend and a pairing session

`RealPairBackend.kt` wired to the view model as the factory in `MainActivity` wires
it: a picked peer and the result of an exchange are passed on, a failed exchange only
completes a deferred that nothing awaits.  The exchange runs on a thread of its own,
one step per operation that the other side or the user can get between.
-/

namespace Syauth.Android.Pair

open Transition

def pairPubkeyLen : Nat := 32
def lescCodeDigits : Nat := 6
def adapterMissingReason : String := "no Bluetooth adapter available on this device"
def peerLookupFailedReason : String := "could not look up BluetoothDevice for the chosen peer"
def gattExchangeMissingReason : String := "no GATT exchange wired"
def keystoreUnavailableReason : String := "Keystore Ed25519 generator unavailable on this device"
def keystoreMintFailedPrefix : String := "Keystore Ed25519 mint failed: "
def keystoreAliasPrefix : String := "syauth.ed25519."
def lescPendingPlaceholder : String := "(awaiting OS pairing request)"

inductive ExchangePhase where
  | minted
  | hostRead (hostPubkey : Bytes)
  | phoneWritten (hostPubkey : Bytes)
  deriving DecidableEq

/-- The exchange a worker is in. -/
structure Exchange where
  address : String
  keystoreAlias : String
  phonePubkey : Pubkey
  phase : ExchangePhase
  deriving DecidableEq

/-- The fields of the backend that change.  `cleanup` has no caller, so that `cleanedUp`
stays false. -/
structure Backend where
  pickedAddress : Option String
  pickedName : String
  lastPairingCode : String
  lescResultDeferred : Option LescResult
  exchangeStarted : Bool
  /-- The addresses of the worker threads that were started and have not run yet. -/
  threads : List String
  exchange : Option Exchange
  deriving DecidableEq

/-- What the platform answers while a peer is picked. -/
inductive PickOutcome where
  | adapterMissing
  | lookupFailed
  | alreadyBonded
  | bondStarted
  | bondRefused (bondState : Int)
  deriving DecidableEq

/-- What a worker meets before its exchange. -/
inductive BeginOutcome where
  | noExchange
  | keystoreUnavailable
  | mintFailed (message : String)
  | minted
  deriving DecidableEq

namespace Backend

def new : Backend := ⟨none, "", lescPendingPlaceholder, none, false, [], none⟩

/-- A deferred is completed once. -/
def complete (backend : Backend) (result : LescResult) : Backend :=
  { backend with lescResultDeferred := backend.lescResultDeferred.or (some result) }

def pickPeer (backend : Backend) (peer : PeerHandle) : PickOutcome → PickPeerResult × Backend
  | .adapterMissing => (.failed adapterMissingReason, backend)
  | .lookupFailed => (.failed peerLookupFailedReason, backend)
  | .alreadyBonded =>
      (.lescStarted backend.lastPairingCode,
        { backend with
          pickedAddress := some peer.id, pickedName := peer.name
          threads := backend.threads ++ [peer.id] })
  | .bondStarted =>
      (.lescStarted backend.lastPairingCode,
        { backend with pickedAddress := some peer.id, pickedName := peer.name })
  | .bondRefused bondState =>
      (.failed ("BluetoothDevice.createBond(TRANSPORT_LE) refused (bondState=" ++
          toString bondState ++ ")"),
        { backend with pickedAddress := some peer.id, pickedName := peer.name })

/-- A bond with a device other than the picked one is ignored, and any is taken before
the first pick. -/
def onBondedFromReceiver (backend : Backend) (address : String) : Backend :=
  if backend.pickedAddress ≠ none ∧ backend.pickedAddress ≠ some address then backend
  else { backend with threads := backend.threads ++ [address] }

def padStart (width : Nat) (text : String) : String :=
  String.ofList (List.replicate (width - text.length) '0') ++ text

def onPairingAccepted (backend : Backend) (passkey : Nat) : Backend :=
  { backend with lastPairingCode := padStart lescCodeDigits (toString passkey) }

def onPairingRejected (backend : Backend) (variant : Int) : Backend :=
  backend.complete (.failed ("OS pairing variant rejected: " ++ toString variant))

def onBondFailed (backend : Backend) : Backend :=
  backend.complete (.failed "OS bond cancelled or failed (BOND_BONDING -> BOND_NONE)")

/-! ## The worker -/

def keystoreAliasFor (address : String) : String :=
  keystoreAliasPrefix ++ String.ofList (address.toList.filter fun c => c ≠ ':')

/-- The first worker to run claims the exchange for good. -/
def runPostBondExchange (keystoreKey : String → Pubkey) (backend : Backend) (address : String)
    (outcome : BeginOutcome) : Backend :=
  if backend.exchangeStarted then backend
  else
    let claimed := { backend with exchangeStarted := true }
    match outcome with
    | .noExchange => claimed.complete (.failed gattExchangeMissingReason)
    | .keystoreUnavailable => claimed.complete (.failed keystoreUnavailableReason)
    | .mintFailed message => claimed.complete (.failed (keystoreMintFailedPrefix ++ message))
    | .minted =>
        { claimed with
          exchange := some ⟨address, keystoreAliasFor address,
            keystoreKey (keystoreAliasFor address), .minted⟩ }

def exchangeFails (backend : Backend) (message : String) : Backend :=
  { backend with exchange := none }.complete
    (.failed ("pair-service exchange failed: " ++ message))

/-- The result of an exchange whose two transfers are done. -/
def exchangeResult (prim : Primitives) (backend : Backend) (exchange : Exchange)
    (hostPubkey : Bytes) :
    LescResult :=
  if hlen : hostPubkey.length = pairPubkeyLen then
    .bonded (bondKeyFromPubkeys prim ⟨hostPubkey, hlen⟩ exchange.phonePubkey).val
      (if backend.pickedName = "" then exchange.address else backend.pickedName)
      exchange.keystoreAlias exchange.phonePubkey.val
  else .failed ("host pubkey wrong length: " ++ toString hostPubkey.length)

/-- The devices a running exchange, or a thread that may still start one, is for. -/
def pending (backend : Backend) : List String :=
  backend.exchange.toList.map (·.address) ++ if backend.exchangeStarted then [] else backend.threads

end Backend

/-! ## A session -/

structure Session where
  vm : ViewModel
  backend : Backend
  deriving DecidableEq

inductive SessionEvent where
  | startScanTapped
  /-- Also the callback of a failed scan. -/
  | cancelTapped
  | peerPicked (peer : PeerHandle) (outcome : PickOutcome)
  | pairingAccepted (passkey : Nat)
  | pairingRejected (variant : Int)
  | bonded (address : String)
  | bondFailed
  | workerRuns (i : Nat) (outcome : BeginOutcome)
  | hostRead (result : Except String Bytes)
  | phoneWritten (result : Except String Unit)
  | exchangeReturns
  | oobYesTapped (persisted : Except String Unit)
  | oobNoTapped
  | associated (i : Nat) (result : Except String Unit)

section

variable (prim : Primitives) (oobCode : Bytes → List String) (keystoreKey : String → Pubkey)

/-- Only a successful result is passed to the view model. -/
def Session.deliver (s : Session) (exchange : Exchange) (hostPubkey : Bytes) : Session :=
  let result := s.backend.exchangeResult prim exchange hostPubkey
  { vm :=
      match result with
      | .bonded _ _ _ _ => s.vm.onLescResult oobCode result
      | .failed _ => s.vm
    backend := { s.backend with exchange := none }.complete result }

def Session.step (s : Session) : SessionEvent → Option Session
  | .startScanTapped => some { s with vm := s.vm.onStartScanTapped }
  | .cancelTapped => some { s with vm := s.vm.onCancelTapped }
  | .peerPicked peer outcome =>
      match s.vm.state with
      | .scanning =>
          let picked := s.backend.pickPeer peer outcome
          some ⟨s.vm.onPeerPicked peer picked.1, picked.2⟩
      | _ => some s
  | .pairingAccepted passkey => some { s with backend := s.backend.onPairingAccepted passkey }
  | .pairingRejected variant => some { s with backend := s.backend.onPairingRejected variant }
  | .bonded address => some { s with backend := s.backend.onBondedFromReceiver address }
  | .bondFailed => some { s with backend := s.backend.onBondFailed }
  | .workerRuns i outcome =>
      match s.backend.threads[i]? with
      | none => none
      | some address =>
          let started := { s.backend with threads := s.backend.threads.eraseIdx i }
          some { s with backend := started.runPostBondExchange keystoreKey address outcome }
  | .hostRead result =>
      match s.backend.exchange with
      | some ⟨address, keystoreAlias, phonePubkey, .minted⟩ =>
          match result with
          | .error message => some { s with backend := s.backend.exchangeFails message }
          | .ok hostPubkey =>
              some { s with backend :=
                { s.backend with
                  exchange := some ⟨address, keystoreAlias, phonePubkey, .hostRead hostPubkey⟩ } }
      | _ => none
  | .phoneWritten result =>
      match s.backend.exchange with
      | some ⟨address, keystoreAlias, phonePubkey, .hostRead hostPubkey⟩ =>
          match result with
          | .error message => some { s with backend := s.backend.exchangeFails message }
          | .ok () =>
              some { s with backend :=
                { s.backend with
                  exchange :=
                    some ⟨address, keystoreAlias, phonePubkey, .phoneWritten hostPubkey⟩ } }
      | _ => none
  | .exchangeReturns =>
      match s.backend.exchange with
      | some ⟨address, keystoreAlias, phonePubkey, .phoneWritten hostPubkey⟩ =>
          some (s.deliver prim oobCode
            ⟨address, keystoreAlias, phonePubkey, .phoneWritten hostPubkey⟩ hostPubkey)
      | _ => none
  | .oobYesTapped persisted => some { s with vm := s.vm.onOobYesTapped persisted }
  | .oobNoTapped => some { s with vm := s.vm.onOobNoTapped }
  | .associated i result => (s.vm.onAssociated i result).map fun vm => { s with vm := vm }

def Session.new : Session := ⟨.new, .new⟩

/-- One visit of the pairing screen. -/
def session : System Session SessionEvent where
  start s := s = .new
  step := Session.step prim oobCode keystoreKey

end

/-! ## What one step can do -/

/-- The events of the screen and of the companion manager, which concern the view model
alone. -/
def SessionEvent.onScreen : SessionEvent → Option ViewModelEvent
  | .startScanTapped => some .startScanTapped
  | .cancelTapped => some .cancelTapped
  | .oobYesTapped persisted => some (.oobYesTapped persisted)
  | .oobNoTapped => some .oobNoTapped
  | .associated i result => some (.associated i result)
  | _ => none

/-- The backends differ in what they report only. -/
structure Backend.SameWork (backend next : Backend) : Prop where
  pickedAddress : next.pickedAddress = backend.pickedAddress
  exchangeStarted : next.exchangeStarted = backend.exchangeStarted
  threads : next.threads = backend.threads
  exchange : next.exchange = backend.exchange

theorem Backend.sameWork_complete (backend : Backend) (result : LescResult) :
    backend.SameWork (backend.complete result) := ⟨rfl, rfl, rfl, rfl⟩

theorem Backend.sameWork_onPairingAccepted (backend : Backend) (passkey : Nat) :
    backend.SameWork (backend.onPairingAccepted passkey) := by
  unfold Backend.onPairingAccepted
  exact ⟨rfl, rfl, rfl, rfl⟩

inductive SessionStep (prim : Primitives) (oobCode : Bytes → List String)
    (keystoreKey : String → Pubkey) (s : Session) : SessionEvent → Session → Prop
  | screen {event : SessionEvent} {vmEvent : ViewModelEvent} {vm : ViewModel}
      (hevent : event.onScreen = some vmEvent) (hvm : ViewModelStep oobCode s.vm vmEvent vm) :
      SessionStep prim oobCode keystoreKey s event { s with vm := vm }
  | pick {peer : PeerHandle} {outcome : PickOutcome} (hstate : s.vm.state = .scanning) :
      SessionStep prim oobCode keystoreKey s (.peerPicked peer outcome)
        ⟨{ s.vm with
            pickedPeer := some peer
            state := ViewModel.pickedState (s.backend.pickPeer peer outcome).1 },
          (s.backend.pickPeer peer outcome).2⟩
  | pickIgnored {peer : PeerHandle} {outcome : PickOutcome} (hstate : s.vm.state ≠ .scanning) :
      SessionStep prim oobCode keystoreKey s (.peerPicked peer outcome) s
  | report {event : SessionEvent} {backend : Backend} (hsame : s.backend.SameWork backend)
      (hevent : (∃ passkey, event = .pairingAccepted passkey) ∨
        (∃ variant, event = .pairingRejected variant) ∨ event = .bondFailed) :
      SessionStep prim oobCode keystoreKey s event { s with backend := backend }
  | bonded {address : String} :
      SessionStep prim oobCode keystoreKey s (.bonded address)
        { s with backend := s.backend.onBondedFromReceiver address }
  | run {i : Nat} {outcome : BeginOutcome} {address : String}
      (hthread : s.backend.threads[i]? = some address) :
      SessionStep prim oobCode keystoreKey s (.workerRuns i outcome)
        { s with
          backend :=
            { s.backend with threads := s.backend.threads.eraseIdx i }.runPostBondExchange
              keystoreKey address outcome }
  | read {exchange : Exchange} {hostPubkey : Bytes} (hexchange : s.backend.exchange = some exchange)
      (hphase : exchange.phase = .minted) :
      SessionStep prim oobCode keystoreKey s (.hostRead (.ok hostPubkey))
        { s with backend := { s.backend with
            exchange := some { exchange with phase := .hostRead hostPubkey } } }
  | readFailed {exchange : Exchange} {message : String}
      (hexchange : s.backend.exchange = some exchange)
      (hphase : exchange.phase = .minted) :
      SessionStep prim oobCode keystoreKey s (.hostRead (.error message))
        { s with backend := s.backend.exchangeFails message }
  | write {exchange : Exchange} {hostPubkey : Bytes}
      (hexchange : s.backend.exchange = some exchange)
      (hphase : exchange.phase = .hostRead hostPubkey) :
      SessionStep prim oobCode keystoreKey s (.phoneWritten (.ok ()))
        { s with backend := { s.backend with
            exchange := some { exchange with phase := .phoneWritten hostPubkey } } }
  | writeFailed {exchange : Exchange} {hostPubkey : Bytes} {message : String}
      (hexchange : s.backend.exchange = some exchange)
      (hphase : exchange.phase = .hostRead hostPubkey) :
      SessionStep prim oobCode keystoreKey s (.phoneWritten (.error message))
        { s with backend := s.backend.exchangeFails message }
  | deliver {exchange : Exchange} {hostPubkey : Bytes}
      (hexchange : s.backend.exchange = some exchange)
      (hphase : exchange.phase = .phoneWritten hostPubkey) :
      SessionStep prim oobCode keystoreKey s .exchangeReturns
        (s.deliver prim oobCode exchange hostPubkey)

theorem Session.step_sound {prim : Primitives} {oobCode : Bytes → List String}
    {keystoreKey : String → Pubkey} {s t : Session} {event : SessionEvent}
    (hstep : s.step prim oobCode keystoreKey event = some t) :
    SessionStep prim oobCode keystoreKey s event t := by
  cases event with
  | startScanTapped =>
      cases hstep
      exact .screen rfl (ViewModel.step_sound rfl)
  | cancelTapped =>
      cases hstep
      exact .screen rfl (ViewModel.step_sound rfl)
  | peerPicked peer outcome =>
      simp only [Session.step] at hstep
      split at hstep
      · next hstate =>
          cases hstep
          simp only [ViewModel.onPeerPicked, hstate]
          exact .pick hstate
      · next hstate =>
          cases hstep
          exact .pickIgnored hstate
  | pairingAccepted passkey =>
      cases hstep
      exact .report (s.backend.sameWork_onPairingAccepted passkey) (.inl ⟨passkey, rfl⟩)
  | pairingRejected variant =>
      cases hstep
      exact .report (s.backend.sameWork_complete _) (.inr (.inl ⟨variant, rfl⟩))
  | bonded address =>
      cases hstep
      exact .bonded
  | bondFailed =>
      cases hstep
      exact .report (s.backend.sameWork_complete _) (.inr (.inr rfl))
  | workerRuns i outcome =>
      simp only [Session.step] at hstep
      split at hstep
      · cases hstep
      · next address hthread =>
          cases hstep
          exact .run hthread
  | hostRead result =>
      simp only [Session.step] at hstep
      split at hstep
      · next address keystoreAlias phonePubkey hexchange =>
          cases result with
          | error message =>
              cases hstep
              exact .readFailed hexchange rfl
          | ok hostPubkey =>
              cases hstep
              exact .read hexchange rfl
      · cases hstep
  | phoneWritten result =>
      simp only [Session.step] at hstep
      split at hstep
      · next address keystoreAlias phonePubkey hostPubkey hexchange =>
          cases result with
          | error message =>
              cases hstep
              exact .writeFailed hexchange rfl
          | ok done =>
              cases hstep
              exact .write hexchange rfl
      · cases hstep
  | exchangeReturns =>
      simp only [Session.step] at hstep
      split at hstep
      · next address keystoreAlias phonePubkey hostPubkey hexchange =>
          cases hstep
          exact .deliver hexchange rfl
      · cases hstep
  | oobYesTapped persisted =>
      cases hstep
      exact .screen rfl (ViewModel.step_sound rfl)
  | oobNoTapped =>
      cases hstep
      exact .screen rfl (ViewModel.step_sound rfl)
  | associated i result =>
      obtain ⟨vm, hvm, rfl⟩ := Option.map_eq_some_iff.mp hstep
      exact .screen rfl (ViewModel.step_sound hvm)

end Syauth.Android.Pair
