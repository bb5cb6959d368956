import Syauth.Android.BondStore
import Syauth.Android.Pair.Backend
import Syauth.Presenced.PairConsumer

/-! # The two devices of a pairing

A visit of the pairing screen on the phone together with the pair watcher and the pair
consumer of the daemon.  The phone's key crosses over by the write of the running
exchange, and each side keeps what it commits in a file of its own.
-/

namespace Syauth.Pairing

open Android.Pair Presenced Transition

/-- What does not change during a pairing. -/
structure Setting where
  prim : Primitives
  oobCode : Bytes → List String
  keystoreKey : String → Pubkey
  hostPubkey : Pubkey
  /-- The address under which the phone sees the desktop. -/
  desktopAddress : String
  storageDir : String

variable (cfg : Setting)

/-! ## The phone's persister -/

/-- The record `DiskBondPersister.persist` makes of one of the pair flow.  The
placeholder of a missing alias is the empty one. -/
def fullRecord (record : BondRecord) : Android.BondRecord where
  peerId := record.peerId
  hostName := record.peerName
  bondKey := record.bondKey
  keystoreAlias := record.keystoreAlias
  phonePubkey :=
    if record.phonePubkey.length = pairPubkeyLen then record.phonePubkey
    else List.replicate pairPubkeyLen 0

/-- `DiskBondPersister.persist`, which goes on to `persistFull`. -/
def persist (disk : Option Android.BondRecord) (record : BondRecord) (faults : Android.SaveFaults) :
    Except String Unit × Option Android.BondRecord :=
  match Android.BondStore.save cfg.storageDir disk (fullRecord record) faults with
  | (.ok (), disk) => (.ok (), disk)
  | (.error message, disk) => (.error ("could not save bond record to disk: " ++ message), disk)

theorem persist_of_stopsEarly {disk : Option Android.BondRecord} (record : BondRecord)
    {faults : Android.SaveFaults} (hearly : faults.stopsEarly disk = true) :
    ∃ message, persist cfg disk record faults = (.error message, disk) := by
  obtain ⟨message, hfailed⟩ :=
    Android.BondStore.save_of_stopsEarly cfg.storageDir (fullRecord record) hearly
  rw [persist, hfailed]
  exact ⟨_, rfl⟩

theorem persist_of_saved {disk : Option Android.BondRecord} (record : BondRecord)
    {faults : Android.SaveFaults} (hearly : faults.stopsEarly disk = false)
    (hrename : faults.renameFailed = false) :
    ∃ saved, persist cfg disk record faults = (.ok (), some saved) ∧
      saved.bondKey = record.bondKey := by
  rw [persist, Android.BondStore.save_of_renamed cfg.storageDir (fullRecord record) hearly hrename]
  exact ⟨fullRecord record, rfl, rfl⟩

/-! ## The system -/

structure Devices where
  session : Session
  /-- `syauth-bond.toml` of the phone. -/
  phoneDisk : Option Android.BondRecord
  /-- The keys that the pair watcher has forwarded and the consumer has not taken. -/
  queue : List Pubkey
  /-- Whether the pair watcher has forwarded the key of this visit. -/
  forwarded : Bool
  desktop : PairDisk

inductive DevicesEvent where
  /-- Anything on the phone but the three below. -/
  | phone (event : SessionEvent)
  | hostRead (result : Except String Bytes)
  /-- The phone may get an error for a key that was forwarded, and the watcher may lose
  a key that was acknowledged. -/
  | phoneWritten (forwarded : Bool) (result : Except String Unit)
  | oobYesTapped (faults : Android.SaveFaults)
  | consume (now : Int) (keyWrite : KeyWriteOutcome) (readFault : Bool)
      (saveOutcome : Except BondError Unit) (reloadSent : Bool)

/-- The event concerns the phone alone. -/
def onPhone : SessionEvent → Bool
  | .hostRead _ | .phoneWritten _ | .oobYesTapped _ => false
  | _ => true

/-- The desktop's characteristic answers with the host key. -/
def answersRead (exchange : Exchange) : Except String Bytes → Bool
  | .ok bytes => exchange.address ≠ cfg.desktopAddress || bytes = cfg.hostPubkey.val
  | .error _ => true

/-- The watcher sees the writes to the desktop only. -/
def reachesWatcher (exchange : Exchange) (forwarded : Bool) : Bool :=
  !forwarded || exchange.address = cfg.desktopAddress

def Devices.onSession (s : Devices) (event : SessionEvent) : Option Devices :=
  (s.session.step cfg.prim cfg.oobCode cfg.keystoreKey event).map fun session =>
    { s with session := session }

def Devices.step (s : Devices) : DevicesEvent → Option Devices
  | .phone event => if onPhone event then s.onSession cfg event else none
  | .hostRead result =>
      match s.session.backend.exchange with
      | none => none
      | some exchange =>
          if answersRead cfg exchange result then s.onSession cfg (.hostRead result) else none
  | .phoneWritten forwarded result =>
      match s.session.backend.exchange with
      | none => none
      | some exchange =>
          if reachesWatcher cfg exchange forwarded then
            (s.onSession cfg (.phoneWritten result)).map fun next =>
              { next with
                queue := if forwarded then s.queue ++ [exchange.phonePubkey] else s.queue
                forwarded := s.forwarded || forwarded }
          else none
  | .oobYesTapped faults =>
      match s.session.vm.persistCall with
      | none => some s
      | some record =>
          let persisted := persist cfg s.phoneDisk record faults
          (s.onSession cfg (.oobYesTapped persisted.1)).map fun next =>
            { next with phoneDisk := persisted.2 }
  | .consume now keyWrite readFault saveOutcome reloadSent =>
      match s.queue with
      | [] => none
      | phonePubkey :: queue =>
          let event : PairEvent :=
            ⟨cfg.hostPubkey, phonePubkey, now, keyWrite, readFault, saveOutcome, reloadSent⟩
          some { s with queue := queue, desktop := (consumePairEvent cfg.prim s.desktop event).2 }

/-- The keystore keeps one key for each desktop, and answers with it at every pairing. -/
def phoneKey : Pubkey := cfg.keystoreKey (Backend.keystoreAliasFor cfg.desktopAddress)

/-- The bonded records of the phone in `bonds.toml`. -/
def phoneRecords (desktop : PairDisk) : List Bond :=
  match desktop.bonds with
  | .parsed file => file.bonds.filter fun bond => bond.status = .bonded ∧ bond.pubkey = phoneKey cfg
  | _ => []

theorem mem_phoneRecords {desktop : PairDisk} {bond : Bond} :
    bond ∈ phoneRecords cfg desktop ↔ ∃ file, desktop.bonds = .parsed file ∧ bond ∈ file.bonds ∧
      bond.status = .bonded ∧ bond.pubkey = phoneKey cfg := by
  unfold phoneRecords
  cases desktop.bonds with
  | parsed file => simp
  | notFound => simp
  | ioError => simp
  | parseError => simp

/-- A visit starts with whatever earlier ones left on the two disks. -/
def devices : System Devices DevicesEvent where
  start s := s.session = .new ∧ s.queue = [] ∧ s.forwarded = false
  step := Devices.step cfg

/-! ## What one step can do -/

inductive DevicesStep (s : Devices) : DevicesEvent → Devices → Prop
  | phone {event : SessionEvent} {session : Session} (hphone : onPhone event)
      (hsession : SessionStep cfg.prim cfg.oobCode cfg.keystoreKey s.session event session) :
      DevicesStep s (.phone event) { s with session := session }
  | read {exchange : Exchange} {result : Except String Bytes} {session : Session}
      (hexchange : s.session.backend.exchange = some exchange)
      (hanswer : answersRead cfg exchange result)
      (hsession : SessionStep cfg.prim cfg.oobCode cfg.keystoreKey s.session (.hostRead result)
        session) :
      DevicesStep s (.hostRead result) { s with session := session }
  | write {exchange : Exchange} {forwarded : Bool} {result : Except String Unit} {session : Session}
      (hexchange : s.session.backend.exchange = some exchange)
      (hreach : reachesWatcher cfg exchange forwarded)
      (hsession : SessionStep cfg.prim cfg.oobCode cfg.keystoreKey s.session (.phoneWritten result)
        session) :
      DevicesStep s (.phoneWritten forwarded result)
        { s with
          session := session
          queue := if forwarded then s.queue ++ [exchange.phonePubkey] else s.queue
          forwarded := s.forwarded || forwarded }
  | ignoredYes {faults : Android.SaveFaults} (hcall : s.session.vm.persistCall = none) :
      DevicesStep s (.oobYesTapped faults) s
  | yes {faults : Android.SaveFaults} {record : BondRecord} {vm : ViewModel}
      (hcall : s.session.vm.persistCall = some record)
      (hvm : ViewModelStep cfg.oobCode s.session.vm
        (.oobYesTapped (persist cfg s.phoneDisk record faults).1) vm) :
      DevicesStep s (.oobYesTapped faults)
        { s with
          session := { s.session with vm := vm }
          phoneDisk := (persist cfg s.phoneDisk record faults).2 }
  | consume {phonePubkey : Pubkey} {queue : List Pubkey} {now : Int} {keyWrite : KeyWriteOutcome}
      {readFault : Bool} {saveOutcome : Except BondError Unit} {reloadSent : Bool}
      (hqueue : s.queue = phonePubkey :: queue) :
      DevicesStep s (.consume now keyWrite readFault saveOutcome reloadSent)
        { s with
          queue := queue
          desktop := (consumePairEvent cfg.prim s.desktop
            ⟨cfg.hostPubkey, phonePubkey, now, keyWrite, readFault, saveOutcome, reloadSent⟩).2 }

variable {cfg}

theorem Devices.onSession_sound {s t : Devices} {event : SessionEvent}
    (hstep : s.onSession cfg event = some t) :
    ∃ session, t = { s with session := session } ∧
      SessionStep cfg.prim cfg.oobCode cfg.keystoreKey s.session event session := by
  obtain ⟨session, hsession, rfl⟩ := Option.map_eq_some_iff.mp hstep
  exact ⟨session, rfl, Session.step_sound hsession⟩

theorem Devices.step_sound {s t : Devices} {event : DevicesEvent}
    (hstep : s.step cfg event = some t) :
    DevicesStep cfg s event t := by
  cases event with
  | phone event =>
      simp only [Devices.step] at hstep
      split at hstep
      · next hphone =>
          obtain ⟨session, rfl, hsession⟩ := Devices.onSession_sound hstep
          exact .phone hphone hsession
      · cases hstep
  | hostRead result =>
      simp only [Devices.step] at hstep
      split at hstep
      · cases hstep
      · next exchange hexchange =>
          split at hstep
          · next hanswer =>
              obtain ⟨session, rfl, hsession⟩ := Devices.onSession_sound hstep
              exact .read hexchange hanswer hsession
          · cases hstep
  | phoneWritten forwarded result =>
      simp only [Devices.step] at hstep
      split at hstep
      · cases hstep
      · next exchange hexchange =>
          split at hstep
          · next hreach =>
              obtain ⟨next, hnext, rfl⟩ := Option.map_eq_some_iff.mp hstep
              obtain ⟨session, rfl, hsession⟩ := Devices.onSession_sound hnext
              exact .write hexchange hreach hsession
          · cases hstep
  | oobYesTapped faults =>
      simp only [Devices.step] at hstep
      split at hstep
      · next hcall =>
          cases hstep
          exact .ignoredYes hcall
      · next record hcall =>
          cases hstep
          exact .yes hcall (ViewModel.step_sound rfl)
  | consume now keyWrite readFault saveOutcome reloadSent =>
      simp only [Devices.step] at hstep
      split at hstep
      · cases hstep
      · next phonePubkey queue hqueue =>
          cases hstep
          exact .consume hqueue

end Syauth.Pairing
