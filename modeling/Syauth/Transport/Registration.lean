import Syauth.Core.Crypto
import Syauth.Transition.System
import Syauth.Transport.Peripheral
import Mathlib.Data.List.AList

/-! # The GATT application of the persistent peripheral

`PersistentPeripheral` of `crates/syauth-transport/src/peripheral.rs`: what it
registers with BlueZ when it is constructed and when a peer is added or removed.
The application handle stands for the registration itself: a successful
`serve_gatt_application` registers the application it is given, and dropping the
handle unregisters it.
-/

namespace Syauth.Transport

/-- A UUID of the range the repository has fixed, by its last two bytes. -/
def fixedUuid (high low : UInt8) : Uuid :=
  ⟨[0x5a, 0x4e, 0x8e, 0x3c, 0x1c, 0x4c, 0x4a, 0x17, 0x9c, 0x81, 0xd5, 0x18, 0xa5, 0x5a, high, low],
    rfl⟩

def syauthChallengeCharUuid : Uuid := fixedUuid 0x00 0x02
def syauthResponseCharUuid : Uuid := fixedUuid 0x00 0x03
def syauthPairServiceUuid : Uuid := fixedUuid 0x01 0x01
def syauthPairHostPubkeyCharUuid : Uuid := fixedUuid 0x01 0x02
def syauthPairPhonePubkeyCharUuid : Uuid := fixedUuid 0x01 0x03

/-- A local characteristic: the bytes a read returns, and the accesses it allows. -/
structure Characteristic where
  uuid : Uuid
  read : Option Bytes := none
  notify : Bool := false
  write : Bool := false
  writeWithoutResponse : Bool := false
  deriving DecidableEq

structure Service where
  uuid : Uuid
  primary : Bool
  characteristics : List Characteristic
  deriving DecidableEq

/-- The services of a `bluer` application. -/
abbrev Application := List Service

def buildPairService (hostPubkey : Pubkey) : Service where
  uuid := syauthPairServiceUuid
  primary := true
  characteristics :=
    [{ uuid := syauthPairHostPubkeyCharUuid, read := some hostPubkey.val },
      { uuid := syauthPairPhonePubkeyCharUuid, write := true, writeWithoutResponse := true }]

/-- The fields of the peripheral that its registration depends on.  An entry of `peers`
keeps the key it was added with, in place of the channels it holds in the source. -/
structure PersistentPeripheral where
  hostPubkey : Pubkey
  appHandle : Option Application
  pairWatcher : Bool
  peers : AList fun _ : String => BondKey

namespace PersistentPeripheral

variable (prim : Primitives)

def peerServiceUuid (bondKey : BondKey) : Uuid := sessionUuidFor prim bondKey 0

def peerService (bondKey : BondKey) : Service where
  uuid := peerServiceUuid prim bondKey
  primary := true
  characteristics :=
    [{ uuid := syauthChallengeCharUuid, notify := true },
      { uuid := syauthResponseCharUuid, write := true, writeWithoutResponse := true }]

/-! ## Operations -/

def dropAppHandle (p : PersistentPeripheral) : PersistentPeripheral :=
  { p with appHandle := none }

def storeAppHandle (app : Application) (p : PersistentPeripheral) : PersistentPeripheral :=
  { p with appHandle := some app }

/-- `serve_gatt_application`, with the handle stored on success.  The first argument is
what BlueZ answers.  Kicking the connected peers afterwards can only log a warning. -/
def serveGattApplication (served : Except String Unit) (app : Application)
    (p : PersistentPeripheral) : Except PeripheralError Unit × PersistentPeripheral :=
  match served with
  | .error err => (.error (.backend ("serve_gatt_application: " ++ err)), p)
  | .ok () => (.ok (), p.storeAppHandle app)

/-- `rebuild_application`: the pair service and the given ones. -/
def rebuildApplication (served : Except String Unit) (peerServices : List Service)
    (p : PersistentPeripheral) : Except PeripheralError Unit × PersistentPeripheral :=
  let services := buildPairService p.hostPubkey :: peerServices
  let aborted := { p with pairWatcher := false }
  match aborted.dropAppHandle.serveGattApplication served services with
  | (.error err, p') => (.error err, p')
  | (.ok (), p') => (.ok (), { p' with pairWatcher := true })

/-- `PersistentPeripheral::new`.  `opened` is how the steps before the registration end:
an error of the adapter, the agent or the generator, or the host key that was drawn. -/
def new (opened : Except PeripheralError Pubkey) (served : Except String Unit) :
    Except PeripheralError PersistentPeripheral :=
  match opened with
  | .error err => .error err
  | .ok hostPubkey =>
      match rebuildApplication served [] ⟨hostPubkey, none, false, ∅⟩ with
      | (.error err, _) => .error err
      | (.ok (), p) => .ok p

def buildAndRegisterPeer (served : Except String Unit) (bondKey : BondKey)
    (p : PersistentPeripheral) : Except PeripheralError Unit × PersistentPeripheral :=
  p.serveGattApplication served [peerService prim bondKey]

def insertPeer (peerId : String) (bondKey : BondKey) (p : PersistentPeripheral) :
    PersistentPeripheral :=
  { p with peers := p.peers.insert peerId bondKey }

def addPeer (served : Except String Unit) (peerId : String) (bondKey : BondKey)
    (p : PersistentPeripheral) : Except PeripheralError Unit × PersistentPeripheral :=
  if peerId ∈ p.peers then (.error (.peerAlreadyAdded peerId), p)
  else
    match p.dropAppHandle.buildAndRegisterPeer prim served bondKey with
    | (.error err, p') => (.error err, p')
    | (.ok (), p') => (.ok (), p'.insertPeer peerId bondKey)

def erasePeer (peerId : String) (p : PersistentPeripheral) : PersistentPeripheral :=
  { p with peers := p.peers.erase peerId }

def removePeer (peerId : String) (p : PersistentPeripheral) :
    Except PeripheralError Unit × PersistentPeripheral :=
  if peerId ∈ p.peers then (.ok (), (p.erasePeer peerId).dropAppHandle)
  else (.error (.unknownPeer peerId), p)

/-! ## Runs of successful calls -/

inductive Call where
  | addPeer (served : Except String Unit) (peerId : String) (bondKey : BondKey)
  | removePeer (peerId : String)

def call (p : PersistentPeripheral) : Call → Except PeripheralError Unit × PersistentPeripheral
  | .addPeer served peerId bondKey => p.addPeer prim served peerId bondKey
  | .removePeer peerId => p.removePeer peerId

/-- The peripheral under calls that all return `Ok`. -/
def successes : Transition.System PersistentPeripheral Call where
  start p := ∃ opened served, new opened served = .ok p
  step p c :=
    match p.call prim c with
    | (.ok (), next) => some next
    | (.error _, _) => none

/-- What BlueZ has registered. -/
def registered (p : PersistentPeripheral) : Application := p.appHandle.getD []

def peerServices (p : PersistentPeripheral) : List Service :=
  p.peers.entries.map fun entry => peerService prim entry.2

/-- The pair service and one service for each peer of the map are registered, and
no other. -/
def RegisteredExactly (p : PersistentPeripheral) : Prop :=
  p.registered.Perm (buildPairService p.hostPubkey :: p.peerServices prim)

variable {prim} {p next : PersistentPeripheral}

theorem RegisteredExactly.length_eq (hexact : p.RegisteredExactly prim) :
    p.registered.length = p.peers.entries.length + 1 := by
  have hlength := List.Perm.length_eq hexact
  rw [hlength, List.length_cons, peerServices, List.length_map]

theorem new_registeredExactly {opened : Except PeripheralError Pubkey}
    {served : Except String Unit} (hnew : new opened served = .ok p) :
    p.RegisteredExactly prim := by
  cases opened with
  | error err => cases hnew
  | ok hostPubkey =>
      cases served with
      | error err => cases hnew
      | ok _ =>
          cases hnew
          exact List.Perm.refl _

/-- The cases of a successful call.  Neither of them rebuilds the application from the
peers of the map. -/
theorem successes_step_cases {c : Call} (hstep : (successes prim).step p c = some next) :
    (∃ served peerId bondKey, c = .addPeer served peerId bondKey ∧ peerId ∉ p.peers ∧
      next = { p with
        appHandle := some [peerService prim bondKey], peers := p.peers.insert peerId bondKey }) ∨
    (∃ peerId, c = .removePeer peerId ∧ peerId ∈ p.peers ∧
      next = { p with appHandle := none, peers := p.peers.erase peerId }) := by
  cases c with
  | addPeer served peerId bondKey =>
      simp only [successes, call, addPeer] at hstep
      split_ifs at hstep with hmem
      cases served with
      | error err => cases hstep
      | ok _ =>
          cases hstep
          exact .inl ⟨_, peerId, bondKey, rfl, hmem, rfl⟩
  | removePeer peerId =>
      simp only [successes, call, removePeer] at hstep
      split_ifs at hstep with hmem
      cases hstep
      exact .inr ⟨peerId, rfl, hmem, rfl⟩

/-- A successful call leaves fewer services registered than the map asks for. -/
theorem not_registeredExactly_of_step {c : Call}
    (hstep : (successes prim).step p c = some next) : ¬ next.RegisteredExactly prim := by
  intro hexact
  have hlength := hexact.length_eq
  obtain ⟨served, peerId, bondKey, -, hfresh, rfl⟩ | ⟨peerId, -, -, rfl⟩ :=
    successes_step_cases hstep
  · rw [AList.entries_insert_of_notMem hfresh, List.length_cons] at hlength
    have hone : (registered { p with
        appHandle := some [peerService prim bondKey],
        peers := p.peers.insert peerId bondKey }).length = 1 := rfl
    omega
  · have hzero : (registered { p with
        appHandle := none, peers := p.peers.erase peerId }).length = 0 := rfl
    omega

theorem registeredExactly_run_iff {calls : List Call} (hexact : p.RegisteredExactly prim)
    (hrun : (successes prim).run p calls = some next) :
    next.RegisteredExactly prim ↔ calls = [] := by
  constructor
  · intro hnext
    rcases List.eq_nil_or_concat calls with hnil | ⟨earlier, last, hlast⟩
    · exact hnil
    · rw [hlast, List.concat_eq_append, Transition.System.run_append_eq_some] at hrun
      obtain ⟨middle, -, hrest⟩ := hrun
      obtain ⟨final, hstep, hfinal⟩ := (successes prim).run_cons_eq_some.mp hrest
      cases hfinal
      exact absurd hnext (not_registeredExactly_of_step hstep)
  · rintro rfl
    cases hrun
    exact hexact

/-- A failing `add_peer` has dropped the registration, unless it failed on the check of
the map or there was none. -/
theorem appHandle_of_addPeer_error {served : Except String Unit} {peerId : String}
    {bondKey : BondKey} {err : PeripheralError}
    (hadd : p.addPeer prim served peerId bondKey = (.error err, next)) :
    next.appHandle = p.appHandle ↔ peerId ∈ p.peers ∨ p.appHandle = none := by
  unfold addPeer at hadd
  split_ifs at hadd with hmem
  · cases hadd
    simp only [hmem, true_or]
  · cases served with
    | ok _ => cases hadd
    | error text =>
        cases hadd
        simp only [hmem, false_or, dropAppHandle]
        exact eq_comm

/-- After successful calls the registration is the intended one exactly as long as none was
made, and a failing `add_peer` leaves it alone exactly when the peer was in the map or
nothing was registered. -/
theorem registration_kept_iff (prim : Primitives) :
    (∀ opened served p calls next, new opened served = .ok p →
      (successes prim).run p calls = some next →
      (next.RegisteredExactly prim ↔ calls = [])) ∧
    (∀ p served peerId bondKey err next,
      addPeer prim served peerId bondKey p = (.error err, next) →
      (next.appHandle = p.appHandle ↔ peerId ∈ p.peers ∨ p.appHandle = none)) := by
  constructor
  · intro opened served p calls next hnew hrun
    exact registeredExactly_run_iff (new_registeredExactly hnew) hrun
  · intro p served peerId bondKey err next hadd
    exact appHandle_of_addPeer_error hadd

/-! ## Two phones -/

/-- The service UUID of the phone with the key of the first known-answer vector. -/
def knownServiceUuid : Uuid :=
  ⟨[238, 232, 158, 91, 39, 96, 50, 28, 231, 157, 185, 113, 230, 127, 98, 142], by decide⟩

/-- The service UUID of a phone with the key `derivedKey`. -/
def derivedServiceUuid : Uuid :=
  ⟨[247, 19, 232, 85, 18, 94, 60, 224, 94, 61, 198, 175, 213, 112, 138, 179], by decide⟩

/-- Primitives that derive the two UUIDs as the real ones do. -/
def twoPhonePrimitives : Primitives :=
  { KnownAnswer.primitives with
    hkdfSha256 := fun ikm info len =>
      if hlen : len = sessionUuidBytes then
        if ikm = KnownAnswer.bondKey.val ∧ info = hkdfInfoSessionV1 ++ beBytesI64 0 then
          some ⟨knownServiceUuid.val, by rw [hlen]; exact knownServiceUuid.property⟩
        else if ikm = KnownAnswer.derivedKey.val ∧ info = hkdfInfoSessionV1 ++ beBytesI64 0 then
          some ⟨derivedServiceUuid.val, by rw [hlen]; exact derivedServiceUuid.property⟩
        else some (Octets.zero len)
      else KnownAnswer.primitives.hkdfSha256 ikm info len }

/-- The peripheral after construction with the host key `otherPubkey`. -/
def fresh : PersistentPeripheral :=
  ⟨KnownAnswer.otherPubkey, some [buildPairService KnownAnswer.otherPubkey], true, ∅⟩

def twoAdds : List Call :=
  [.addPeer (.ok ()) KnownAnswer.peerId KnownAnswer.bondKey,
    .addPeer (.ok ()) KnownAnswer.otherPeerId KnownAnswer.derivedKey]

/-- The peripheral with both phones. -/
def twoPhones : PersistentPeripheral :=
  { fresh with
    appHandle := some [peerService twoPhonePrimitives KnownAnswer.derivedKey]
    peers := (fresh.peers.insert KnownAnswer.peerId KnownAnswer.bondKey).insert
      KnownAnswer.otherPeerId KnownAnswer.derivedKey }

theorem run_twoAdds : (successes twoPhonePrimitives).run fresh twoAdds = some twoPhones := rfl

theorem registration_kept_iff_twoAdds :
    (new (.ok KnownAnswer.otherPubkey) (.ok ()) = .ok fresh ∧
      (successes twoPhonePrimitives).run fresh twoAdds = some twoPhones ∧
      (twoPhones.RegisteredExactly twoPhonePrimitives ↔ twoAdds = [])) ∧
    (twoPhones.addPeer twoPhonePrimitives (.error "already exists") "third"
          KnownAnswer.bondKey =
        (.error (.backend "serve_gatt_application: already exists"), twoPhones.dropAppHandle) ∧
      (twoPhones.dropAppHandle.appHandle = twoPhones.appHandle ↔
        "third" ∈ twoPhones.peers ∨ twoPhones.appHandle = none)) :=
  ⟨⟨rfl, run_twoAdds,
      (registration_kept_iff twoPhonePrimitives).1 (.ok KnownAnswer.otherPubkey) (.ok ()) fresh
        twoAdds twoPhones rfl run_twoAdds⟩,
    ⟨rfl,
      (registration_kept_iff twoPhonePrimitives).2 twoPhones (.error "already exists") "third"
        KnownAnswer.bondKey _ _ rfl⟩⟩

/-- Once the second phone is added, only its own service is registered, and a third
`add_peer` that BlueZ refuses unregisters that one too. -/
theorem twoAdds_lose_registration :
    new (.ok KnownAnswer.otherPubkey) (.ok ()) = .ok fresh ∧
      (successes twoPhonePrimitives).run fresh twoAdds = some twoPhones ∧
      twoPhones.peers.keys = [KnownAnswer.otherPeerId, KnownAnswer.peerId] ∧
      twoPhones.registered.map Service.uuid = [derivedServiceUuid] ∧
      ¬ twoPhones.RegisteredExactly twoPhonePrimitives ∧
      twoPhones.addPeer twoPhonePrimitives (.error "already exists") "third"
          KnownAnswer.bondKey =
        (.error (.backend "serve_gatt_application: already exists"), twoPhones.dropAppHandle) ∧
      twoPhones.dropAppHandle.appHandle ≠ twoPhones.appHandle := by
  refine ⟨rfl, run_twoAdds, rfl, by decide, ?_, rfl, by decide⟩
  intro hexact
  exact absurd hexact.length_eq (by decide)

end PersistentPeripheral

end Syauth.Transport
