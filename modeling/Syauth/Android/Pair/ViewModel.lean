import Syauth.Core.Frame
import Syauth.Transition.System

/-! # The pairing view model

`PairingViewModel.kt` with the types of `pair/api`.  Every handler is one step here, as it
is when the other thread stays away from it; `Threads` takes the handlers apart.  A launched
association stays behind as an entry of `associating` until the companion manager answers it.
-/

namespace Syauth.Android.Pair

open Transition

structure PeerHandle where
  id : String
  name : String
  deriving DecidableEq

inductive PickPeerResult where
  | lescStarted (code : String)
  | lescUnsupported (adapterName : String)
  | failed (reason : String)
  deriving DecidableEq

inductive LescResult where
  | bonded (bondKey : Bytes) (peerName keystoreAlias : String) (phonePubkey : Bytes)
  | failed (reason : String)
  deriving DecidableEq

/-- What the pair flow hands to the persister. -/
structure BondRecord where
  peerId : String
  peerName : String
  bondKey : Bytes
  keystoreAlias : String
  phonePubkey : Bytes
  deriving DecidableEq

inductive PairingState where
  | idle
  | scanning
  | lescNegotiating (code : String)
  | oobConfirming (emoji : List String)
  | bonded (name : String)
  | failed (reason : String)
  deriving DecidableEq

namespace PairingReasons

def adapterNoLescPrefix : String := "adapter "
def adapterNoLescSuffix : String := " does not support LE Secure Connections"
def oobMismatch : String := "OOB code did not match — peer might be a relay attacker"
def persistPrefix : String := "could not persist bond: "
def associatePrefix : String := "companion-device association rejected: "

end PairingReasons

structure ViewModel where
  state : PairingState
  pickedPeer : Option PeerHandle
  stashedBondKey : Option Bytes
  stashedKeystoreAlias : String
  stashedPhonePubkey : Bytes
  associating : List PeerHandle
  deriving DecidableEq

namespace ViewModel

def new : ViewModel := ⟨.idle, none, none, "", [], []⟩

def onStartScanTapped (vm : ViewModel) : ViewModel :=
  match vm.state with
  | .idle => { vm with state := .scanning }
  | _ => vm

def onCancelTapped (vm : ViewModel) : ViewModel :=
  match vm.state with
  | .scanning | .lescNegotiating _ => { vm with pickedPeer := none, state := .idle }
  | _ => vm

/-- The state the answer of the backend leads to. -/
def pickedState : PickPeerResult → PairingState
  | .lescStarted code => .lescNegotiating code
  | .lescUnsupported adapterName =>
      .failed (PairingReasons.adapterNoLescPrefix ++ adapterName ++
        PairingReasons.adapterNoLescSuffix)
  | .failed reason => .failed reason

def onPeerPicked (vm : ViewModel) (peer : PeerHandle) (result : PickPeerResult) : ViewModel :=
  match vm.state with
  | .scanning => { vm with pickedPeer := some peer, state := pickedState result }
  | _ => vm

def onLescResult (oobCode : Bytes → List String) (vm : ViewModel)
    (result : LescResult) : ViewModel :=
  match vm.state with
  | .lescNegotiating _ =>
      match result with
      | .bonded bondKey peerName keystoreAlias phonePubkey =>
          { vm with
            pickedPeer :=
              match vm.pickedPeer with
              | some peer => some { peer with name := peerName }
              | none => some ⟨peerName, peerName⟩
            stashedBondKey := some bondKey
            stashedKeystoreAlias := keystoreAlias
            stashedPhonePubkey := phonePubkey
            state := .oobConfirming (oobCode bondKey) }
      | .failed reason => { vm with state := .failed reason }
  | _ => vm

/-- The record a Yes tap passes to `BondPersister.persist`. -/
def persistCall (vm : ViewModel) : Option BondRecord :=
  match vm.state with
  | .oobConfirming _ =>
      match vm.pickedPeer, vm.stashedBondKey with
      | some peer, some bondKey =>
          some ⟨peer.id, peer.name, bondKey, vm.stashedKeystoreAlias, vm.stashedPhonePubkey⟩
      | _, _ => none
  | _ => none

/-- The association is launched for the peer that was just persisted. -/
def onOobYesTapped (vm : ViewModel) (persisted : Except String Unit) : ViewModel :=
  match vm.persistCall with
  | none => vm
  | some record =>
      match persisted with
      | .error message => { vm with state := .failed (PairingReasons.persistPrefix ++ message) }
      | .ok () => { vm with associating := vm.associating ++ [⟨record.peerId, record.peerName⟩] }

/-- The end of `requestAssociationAndTransition`, which looks at no state. -/
def onAssociated (vm : ViewModel) (i : Nat) (result : Except String Unit) : Option ViewModel :=
  match vm.associating[i]? with
  | none => none
  | some peer =>
      some { vm with
        associating := vm.associating.eraseIdx i
        state :=
          match result with
          | .ok () => .bonded peer.name
          | .error reason => .failed (PairingReasons.associatePrefix ++ reason) }

def onOobNoTapped (vm : ViewModel) : ViewModel :=
  match vm.state with
  | .oobConfirming _ => { vm with state := .failed PairingReasons.oobMismatch }
  | _ => vm

end ViewModel

inductive ViewModelEvent where
  | startScanTapped
  | cancelTapped
  | peerPicked (peer : PeerHandle) (result : PickPeerResult)
  | lescResult (result : LescResult)
  | oobYesTapped (persisted : Except String Unit)
  | oobNoTapped
  | associated (i : Nat) (result : Except String Unit)

def ViewModel.step (oobCode : Bytes → List String) (vm : ViewModel) :
    ViewModelEvent → Option ViewModel
  | .startScanTapped => some vm.onStartScanTapped
  | .cancelTapped => some vm.onCancelTapped
  | .peerPicked peer result => some (vm.onPeerPicked peer result)
  | .lescResult result => some (vm.onLescResult oobCode result)
  | .oobYesTapped persisted => some (vm.onOobYesTapped persisted)
  | .oobNoTapped => some vm.onOobNoTapped
  | .associated i result => vm.onAssociated i result

/-- The view model under any events of its screen, its backend and the companion manager. -/
def viewModel (oobCode : Bytes → List String) : System ViewModel ViewModelEvent where
  start vm := vm = .new
  step := ViewModel.step oobCode

/-- A code of four words, to evaluate the view model with. -/
def sampleWords (_ : Bytes) : List String := ["apple", "brick", "cloud", "drum"]

/-- The calls of the view model to its collaborators that have an effect outside. -/
inductive ViewModelCall where
  | persist (record : BondRecord) (shown : PairingState)
  /-- A No tap that took effect. -/
  | refuse
  | removeBond (peerId : String)
  deriving DecidableEq

/-- `removeBondBestEffort`. -/
def ViewModel.removeBond (vm : ViewModel) : List ViewModelCall :=
  vm.pickedPeer.toList.map fun peer => .removeBond peer.id

def ViewModel.calls (vm : ViewModel) : ViewModelEvent → List ViewModelCall
  | .lescResult (.failed _) =>
      match vm.state with
      | .lescNegotiating _ => vm.removeBond
      | _ => []
  | .oobYesTapped persisted =>
      match vm.persistCall with
      | none => []
      | some record =>
          match persisted with
          | .error _ => .persist record vm.state :: vm.removeBond
          | .ok () => [.persist record vm.state]
  | .oobNoTapped =>
      match vm.state with
      | .oobConfirming _ => .refuse :: vm.removeBond
      | _ => []
  | .associated i (.error _) =>
      match vm.associating[i]? with
      | none => []
      | some _ => vm.removeBond
  | _ => []

/-! ## What one step can do -/

/-- The transitions of the view model.  An event that is ignored makes no call. -/
inductive ViewModelStep (oobCode : Bytes → List String) (vm : ViewModel) :
    ViewModelEvent → ViewModel → Prop
  | ignored {event : ViewModelEvent} (hcalls : vm.calls event = []) :
      ViewModelStep oobCode vm event vm
  | scan (hstate : vm.state = .idle) :
      ViewModelStep oobCode vm .startScanTapped { vm with state := .scanning }
  | cancel (hstate : vm.state = .scanning ∨ ∃ code, vm.state = .lescNegotiating code) :
      ViewModelStep oobCode vm .cancelTapped { vm with pickedPeer := none, state := .idle }
  | pick {peer : PeerHandle} {result : PickPeerResult} (hstate : vm.state = .scanning) :
      ViewModelStep oobCode vm (.peerPicked peer result)
        { vm with pickedPeer := some peer, state := ViewModel.pickedState result }
  | exchange {code : String} {bondKey phonePubkey : Bytes} {peerName keystoreAlias : String}
      (hstate : vm.state = .lescNegotiating code) :
      ViewModelStep oobCode vm (.lescResult (.bonded bondKey peerName keystoreAlias phonePubkey))
        { vm with
          pickedPeer := some ⟨(vm.pickedPeer.map (·.id)).getD peerName, peerName⟩
          stashedBondKey := some bondKey
          stashedKeystoreAlias := keystoreAlias
          stashedPhonePubkey := phonePubkey
          state := .oobConfirming (oobCode bondKey) }
  | exchangeFailed {code reason : String} (hstate : vm.state = .lescNegotiating code) :
      ViewModelStep oobCode vm (.lescResult (.failed reason)) { vm with state := .failed reason }
  | persist {record : BondRecord} (hcall : vm.persistCall = some record) :
      ViewModelStep oobCode vm (.oobYesTapped (.ok ()))
        { vm with associating := vm.associating ++ [⟨record.peerId, record.peerName⟩] }
  | persistFailed {record : BondRecord} {message : String} (hcall : vm.persistCall = some record) :
      ViewModelStep oobCode vm (.oobYesTapped (.error message))
        { vm with state := .failed (PairingReasons.persistPrefix ++ message) }
  | refuse {emoji : List String} (hstate : vm.state = .oobConfirming emoji) :
      ViewModelStep oobCode vm .oobNoTapped { vm with state := .failed PairingReasons.oobMismatch }
  | associated {i : Nat} {result : Except String Unit} {peer : PeerHandle}
      (hawaited : vm.associating[i]? = some peer) :
      ViewModelStep oobCode vm (.associated i result)
        { vm with
          associating := vm.associating.eraseIdx i
          state :=
            match result with
            | .ok () => .bonded peer.name
            | .error reason => .failed (PairingReasons.associatePrefix ++ reason) }

variable {oobCode : Bytes → List String} {vm next : ViewModel} {event : ViewModelEvent}

theorem ViewModel.confirming_of_persistCall {record : BondRecord}
    (hcall : vm.persistCall = some record) : ∃ emoji, vm.state = .oobConfirming emoji := by
  unfold ViewModel.persistCall at hcall
  split at hcall
  · next emoji hstate => exact ⟨emoji, hstate⟩
  · cases hcall

theorem ViewModel.step_sound (hstep : vm.step oobCode event = some next) :
    ViewModelStep oobCode vm event next := by
  cases event with
  | startScanTapped =>
      simp only [ViewModel.step, ViewModel.onStartScanTapped] at hstep
      split at hstep
      · next hstate =>
          cases hstep
          exact .scan hstate
      · cases hstep
        exact .ignored rfl
  | cancelTapped =>
      simp only [ViewModel.step, ViewModel.onCancelTapped] at hstep
      split at hstep
      · next hstate =>
          cases hstep
          exact .cancel (.inl hstate)
      · next code hstate =>
          cases hstep
          exact .cancel (.inr ⟨code, hstate⟩)
      · cases hstep
        exact .ignored rfl
  | peerPicked peer result =>
      simp only [ViewModel.step, ViewModel.onPeerPicked] at hstep
      split at hstep
      · next hstate =>
          cases hstep
          exact .pick hstate
      · cases hstep
        exact .ignored rfl
  | lescResult result =>
      simp only [ViewModel.step, ViewModel.onLescResult] at hstep
      split at hstep
      · next code hstate =>
          cases result with
          | bonded bondKey peerName keystoreAlias phonePubkey =>
              cases hstep
              cases hpeer : vm.pickedPeer with
              | none => simpa [hpeer] using ViewModelStep.exchange hstate
              | some peer => simpa [hpeer] using ViewModelStep.exchange hstate
          | failed reason =>
              cases hstep
              exact .exchangeFailed hstate
      · next hstate =>
          cases hstep
          refine .ignored ?_
          cases result with
          | bonded bondKey peerName keystoreAlias phonePubkey => rfl
          | failed reason =>
              simp only [ViewModel.calls]
  | oobYesTapped persisted =>
      simp only [ViewModel.step, ViewModel.onOobYesTapped] at hstep
      cases hcall : vm.persistCall with
      | none =>
          rw [hcall] at hstep
          cases hstep
          exact .ignored (by simp only [ViewModel.calls, hcall])
      | some record =>
          rw [hcall] at hstep
          cases persisted with
          | error message =>
              cases hstep
              exact .persistFailed hcall
          | ok done =>
              cases hstep
              exact .persist hcall
  | oobNoTapped =>
      simp only [ViewModel.step, ViewModel.onOobNoTapped] at hstep
      split at hstep
      · next emoji hstate =>
          cases hstep
          exact .refuse hstate
      · next hstate =>
          cases hstep
          refine .ignored ?_
          simp only [ViewModel.calls]
  | associated i result =>
      simp only [ViewModel.step, ViewModel.onAssociated] at hstep
      split at hstep
      · cases hstep
      · next peer hawaited =>
          cases hstep
          exact .associated hawaited

end Syauth.Android.Pair
