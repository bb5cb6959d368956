import Syauth.Presenced.Peers

/-! # The consumer of pair events

`pair_event_consumer` of `crates/syauth-presenced/src/runtime.rs` and the two
functions that write for it.  An event carries what the peripheral forwarded and
the outcomes of the file operations made for it.
-/

namespace Syauth.Presenced

variable (prim : Primitives)

def pairDefaultBondName : String := "phone (paired via daemon)"

/-- How writing a key file ends: `fs::write` truncates first, so that a failure
can leave any content. -/
inductive KeyWriteOutcome where
  | written
  | dirFailed
  | writeFailed (left : Except String Bytes)

def persistPairBondKey (keysDir : KeysDir) (peerId : String) (bondKey : BondKey)
    (outcome : KeyWriteOutcome) : Bool × KeysDir :=
  let path := peerId ++ bondKeyFileExt
  match outcome with
  | .written => (true, Function.update keysDir path (.ok bondKey.1))
  | .dirFailed => (false, keysDir)
  | .writeFailed left => (false, Function.update keysDir path left)

/-- The change `persist_pair_bond_record` makes between its load and its save. -/
def replaceRecord (store : BondStore) (bond : Bond) : Except BondError BondStore :=
  if store.list.any fun b => b.peerId = bond.peerId then do
    let removed ← store.remove bond.peerId
    removed.add bond
  else
    store.add bond

def persistPairBondRecord (disk : BondFileRead) (bond : Bond) (readFault : Bool)
    (saveOutcome : Except BondError Unit) : Except BondError Unit × BondFileRead :=
  match BondStore.load prim (if readFault then .ioError else disk) with
  | .error err => (.error err, disk)
  | .ok store =>
      match replaceRecord store bond with
      | .error err => (.error err, disk)
      | .ok store => store.save saveOutcome disk

/-- One `(host_pubkey, phone_pubkey)` of the channel with what happens while it is consumed. -/
structure PairEvent where
  hostPubkey : Pubkey
  phonePubkey : Pubkey
  now : Int
  keyWrite : KeyWriteOutcome
  readFault : Bool
  saveOutcome : Except BondError Unit
  reloadSent : Bool

def PairEvent.peerId (event : PairEvent) : String := peerIdFromPubkey prim event.phonePubkey

def PairEvent.bondKey (event : PairEvent) : BondKey :=
  bondKeyFromPubkeys prim event.hostPubkey event.phonePubkey

def PairEvent.bond (event : PairEvent) : Bond where
  peerId := event.peerId prim
  pubkey := event.phonePubkey
  name := pairDefaultBondName
  createdAt := event.now
  status := .bonded

/-- What the consumer writes to. -/
structure PairDisk where
  bonds : BondFileRead
  keys : KeysDir

/-- The log line an event ends with. -/
inductive PairOutcome where
  | keyWriteFailed
  | recordWriteFailed (err : BondError)
  | reloadSignalFailed
  | reloadRequested
  deriving DecidableEq

/-- One turn of the loop of `pair_event_consumer`. -/
def consumePairEvent (disk : PairDisk) (event : PairEvent) : PairOutcome × PairDisk :=
  match persistPairBondKey disk.keys (event.peerId prim) (event.bondKey prim) event.keyWrite with
  | (false, keys) => (.keyWriteFailed, { disk with keys := keys })
  | (true, keys) =>
      match persistPairBondRecord prim disk.bonds (event.bond prim) event.readFault
          event.saveOutcome with
      | (.error err, bonds) => (.recordWriteFailed err, ⟨bonds, keys⟩)
      | (.ok (), bonds) =>
          (if event.reloadSent then .reloadRequested else .reloadSignalFailed, ⟨bonds, keys⟩)

def pairEventConsumer (disk : PairDisk) (events : List PairEvent) : PairDisk :=
  events.foldl (fun disk event => (consumePairEvent prim disk event).2) disk

/-! ## Replacing a record -/

/-- At most one record has the identifier. -/
def SingleRecord (store : BondStore) (peerId : String) : Prop :=
  store.bonds.countP (fun bond => bond.peerId = peerId) ≤ 1

instance (store : BondStore) (peerId : String) : Decidable (SingleRecord store peerId) :=
  inferInstanceAs (Decidable (_ ≤ _))

theorem remove_eq_eraseP {store : BondStore} {peerId : String}
    (hmem : store.bonds.any fun bond => bond.peerId = peerId) :
    store.remove peerId = .ok ⟨store.bonds.eraseP fun bond => bond.peerId = peerId⟩ := by
  have hsome : (store.findIndex peerId).isSome := by
    rw [BondStore.findIndex, List.findIdx?_isSome]
    exact hmem
  obtain ⟨i, hindex⟩ := Option.isSome_iff_exists.mp hsome
  have hfind : store.bonds.findIdx? (fun bond => decide (bond.peerId = peerId)) = some i := hindex
  rw [BondStore.remove, hindex, List.eraseP_eq_eraseIdx, hfind]

theorem any_eraseP_iff {bonds : List Bond} {test : Bond → Bool} :
    (bonds.eraseP test).any test ↔ ¬ bonds.countP test ≤ 1 := by
  induction bonds with
  | nil => simp
  | cons bond rest ih =>
      by_cases htest : test bond
      · -- the erased record is the head, and any that passes after it is a second one
        simp [htest]
      · simpa [htest] using ih

theorem add_eraseP_eq (store : BondStore) (bond : Bond) :
    BondStore.add ⟨store.bonds.eraseP fun b => b.peerId = bond.peerId⟩ bond =
      if SingleRecord store bond.peerId then
        .ok ⟨(store.bonds.eraseP fun b => b.peerId = bond.peerId) ++ [bond]⟩
      else .error (.alreadyBonded bond.peerId) := by
  rw [BondStore.add, BondStore.findIndex, List.findIdx?_isSome]
  by_cases hsingle : SingleRecord store bond.peerId
  · rw [if_pos hsingle, if_neg]
    exact fun hany => any_eraseP_iff.mp hany hsingle
  · rw [if_neg hsingle, if_pos]
    exact any_eraseP_iff.mpr hsingle

/-- The first record of the identifier makes way for the new one, and a second one
refuses it. -/
theorem replaceRecord_eq (store : BondStore) (bond : Bond) :
    replaceRecord store bond =
      if SingleRecord store bond.peerId then
        .ok ⟨(store.bonds.eraseP fun b => b.peerId = bond.peerId) ++ [bond]⟩
      else .error (.alreadyBonded bond.peerId) := by
  rw [← add_eraseP_eq, replaceRecord]
  split
  · next hmem =>
      rw [remove_eq_eraseP hmem]
      rfl
  · next hmem =>
      rw [List.eraseP_of_forall_not]
      simpa [BondStore.list] using hmem

/-- What the record's write needs: a file that loads, at most one record of the
phone, and a save that succeeds. -/
structure RecordWritable (disk : BondFileRead) (peerId : String) (readFault : Bool)
    (saveOutcome : Except BondError Unit) (store : BondStore) : Prop where
  load_eq : BondStore.load prim disk = .ok store
  single : SingleRecord store peerId
  read : readFault = false
  save : saveOutcome = .ok ()

theorem persistPairBondRecord_of_writable {disk : BondFileRead} (bond : Bond) {readFault : Bool}
    {saveOutcome : Except BondError Unit} {store : BondStore}
    (hwritable : RecordWritable prim disk bond.peerId readFault saveOutcome store) :
    persistPairBondRecord prim disk bond readFault saveOutcome =
      (.ok (), BondStore.saved ⟨(store.bonds.eraseP fun b => b.peerId = bond.peerId)
        ++ [bond]⟩) := by
  obtain ⟨hload, hsingle, rfl, rfl⟩ := hwritable
  simp only [persistPairBondRecord, Bool.false_eq_true, if_false, hload, replaceRecord_eq,
    if_pos hsingle, BondStore.save]

theorem persistPairBondRecord_of_not_writable {disk : BondFileRead} (bond : Bond) {readFault : Bool}
    {saveOutcome : Except BondError Unit}
    (hwritable : ∀ store, ¬ RecordWritable prim disk bond.peerId readFault saveOutcome store) :
    ∃ err, persistPairBondRecord prim disk bond readFault saveOutcome = (.error err, disk) := by
  unfold persistPairBondRecord
  cases readFault with
  | true => exact ⟨.io, rfl⟩
  | false =>
      simp only [Bool.false_eq_true, if_false, replaceRecord_eq]
      cases hload : BondStore.load prim disk with
      | error err => exact ⟨err, rfl⟩
      | ok store =>
          by_cases hsingle : SingleRecord store bond.peerId
          · cases saveOutcome with
            | error err => exact ⟨err, by simp only [if_pos hsingle, BondStore.save]⟩
            | ok done => exact absurd ⟨hload, hsingle, rfl, rfl⟩ (hwritable store)
          · exact ⟨.alreadyBonded bond.peerId, by simp only [if_neg hsingle]⟩

/-! ## What a run of pair events leaves in the file -/

/-- The file holds a `Bonded` record of the identifier. -/
def HasBonded (read : BondFileRead) (peerId : String) : Prop :=
  ∃ file, read = .parsed file ∧ ∃ bond ∈ file.bonds, bond.peerId = peerId ∧ bond.status = .bonded

/-- The event reaches `bonds.toml`: its key file is written and then its record. -/
def Persists (disk : PairDisk) (event : PairEvent) : Prop :=
  event.keyWrite matches .written ∧
    ∃ store, RecordWritable prim disk.bonds (event.peerId prim) event.readFault
      event.saveOutcome store

instance (disk : PairDisk) (event : PairEvent) : Decidable (Persists prim disk event) :=
  match hload : BondStore.load prim disk.bonds with
  | .error err => .isFalse fun ⟨_, store, hwritable⟩ => by
      rw [hwritable.load_eq] at hload
      cases hload
  | .ok store =>
      decidable_of_iff (event.keyWrite matches .written ∧ SingleRecord store (event.peerId prim) ∧
          event.readFault = false ∧ event.saveOutcome = .ok ()) <| by
        constructor
        · rintro ⟨hkey, hsingle, hread, hsave⟩
          exact ⟨hkey, store, hload, hsingle, hread, hsave⟩
        · rintro ⟨hkey, other, hwritable⟩
          cases hwritable.load_eq.symm.trans hload
          exact ⟨hkey, hwritable.single, hwritable.read, hwritable.save⟩

/-- Some event of the sequence is for the identifier and reaches the disk. -/
def PersistsFor (peerId : String) : PairDisk → List PairEvent → Prop
  | _, [] => False
  | disk, event :: events =>
      (event.peerId prim = peerId ∧ Persists prim disk event) ∨
        PersistsFor peerId (consumePairEvent prim disk event).2 events

theorem consumePairEvent_of_not_persists {disk : PairDisk} {event : PairEvent}
    (hpersists : ¬ Persists prim disk event) :
    (consumePairEvent prim disk event).2.bonds = disk.bonds := by
  unfold consumePairEvent
  cases hkey : event.keyWrite with
  | dirFailed => rfl
  | writeFailed left => rfl
  | written =>
      obtain ⟨err, herr⟩ := persistPairBondRecord_of_not_writable prim (event.bond prim)
        fun store hwritable => hpersists ⟨by rw [hkey], store, hwritable⟩
      simp only [persistPairBondKey, herr]

theorem consumePairEvent_of_writable {disk : PairDisk} {event : PairEvent} {store : BondStore}
    (hkey : event.keyWrite matches .written)
    (hwritable : RecordWritable prim disk.bonds (event.peerId prim) event.readFault
      event.saveOutcome store) :
    (consumePairEvent prim disk event).2.bonds =
      BondStore.saved ⟨(store.bonds.eraseP fun b => b.peerId = event.peerId prim) ++
        [event.bond prim]⟩ := by
  have hrecord := persistPairBondRecord_of_writable prim (event.bond prim) hwritable
  unfold consumePairEvent
  cases hwrite : event.keyWrite with
  | dirFailed => rw [hwrite] at hkey; cases hkey
  | writeFailed left => rw [hwrite] at hkey; cases hkey
  | written =>
      simp only [persistPairBondKey, hrecord]
      rfl

theorem consumePairEvent_keys_of_written {disk : PairDisk} {event : PairEvent}
    (hkey : event.keyWrite matches .written) :
    (consumePairEvent prim disk event).2.keys =
      Function.update disk.keys (event.peerId prim ++ bondKeyFileExt)
        (.ok (event.bondKey prim).1) := by
  unfold consumePairEvent
  cases hwrite : event.keyWrite with
  | dirFailed => rw [hwrite] at hkey; cases hkey
  | writeFailed left => rw [hwrite] at hkey; cases hkey
  | written =>
      simp only [persistPairBondKey]
      split
      · rfl
      · rfl

theorem hasBonded_iff_of_load {read : BondFileRead} {store : BondStore} {peerId : String}
    (hload : BondStore.load prim read = .ok store) :
    HasBonded read peerId ↔ ∃ bond ∈ store.bonds, bond.peerId = peerId ∧ bond.status = .bonded := by
  obtain ⟨rfl, rfl⟩ | ⟨file, rfl, hbonds⟩ := BondStore.load_cases hload
  · simp [HasBonded, BondStore.empty]
  · simp [HasBonded, hbonds]

theorem hasBonded_saved {store : BondStore} {peerId : String} :
    HasBonded store.saved peerId ↔
      ∃ bond ∈ store.bonds, bond.peerId = peerId ∧ bond.status = .bonded := by
  simp [HasBonded, BondStore.saved]

theorem hasBonded_consumePairEvent (disk : PairDisk) (event : PairEvent) (peerId : String) :
    HasBonded (consumePairEvent prim disk event).2.bonds peerId ↔
      HasBonded disk.bonds peerId ∨ (event.peerId prim = peerId ∧ Persists prim disk event) := by
  by_cases hpersists : Persists prim disk event
  · obtain ⟨hkey, store, hwritable⟩ := hpersists
    rw [consumePairEvent_of_writable prim hkey hwritable, hasBonded_saved,
      hasBonded_iff_of_load prim hwritable.load_eq]
    by_cases hsame : event.peerId prim = peerId
    · -- the new record is of this phone, whatever the old one was
      refine iff_of_true ⟨event.bond prim, ?_, hsame, rfl⟩ (.inr ⟨hsame, hkey, store, hwritable⟩)
      apply List.mem_append_right
      exact List.mem_singleton_self _
    · -- the records of other phones are those of before
      simp only [hsame, false_and, or_false, List.mem_append, List.mem_singleton]
      constructor
      · rintro ⟨bond, hmem | rfl, hpeer, hstatus⟩
        · exact ⟨bond, List.mem_of_mem_eraseP hmem, hpeer, hstatus⟩
        · exact absurd hpeer hsame
      · rintro ⟨bond, hmem, rfl, hstatus⟩
        refine ⟨bond, .inl ((List.mem_eraseP_of_neg ?_).mpr hmem), rfl, hstatus⟩
        simpa using fun heq => hsame heq.symm
  · rw [consumePairEvent_of_not_persists prim hpersists]
    simp [hpersists]

/-- A `Bonded` record of a phone after any sequence of pair events was there before it,
or was written by an event of that phone. -/
theorem hasBonded_pairEventConsumer_iff (disk : PairDisk) (events : List PairEvent)
    (peerId : String) :
    HasBonded (pairEventConsumer prim disk events).bonds peerId ↔
      HasBonded disk.bonds peerId ∨ PersistsFor prim peerId disk events := by
  induction events generalizing disk with
  | nil => simp [pairEventConsumer, PersistsFor]
  | cons event events ih =>
      have hrest := ih (consumePairEvent prim disk event).2
      rw [hasBonded_consumePairEvent, or_assoc] at hrest
      exact hrest

def revokedRecord : Bond :=
  ⟨KnownAnswer.peerId, KnownAnswer.pubkey, "pixel", 0, .revoked "phone-lost"⟩

def revokedDisk : PairDisk := ⟨.parsed ⟨1, [revokedRecord]⟩, fun _ => .error "not found"⟩

def repairEvent : PairEvent where
  hostPubkey := KnownAnswer.pubkey
  phonePubkey := KnownAnswer.pubkey
  now := 1
  keyWrite := .written
  readFault := false
  saveOutcome := .ok ()
  reloadSent := true

/-- A phone whose only record is revoked pairs once more. -/
theorem revoked_phone_bonded_again :
    ¬ ∀ (prim : Primitives) (disk : PairDisk) (events : List PairEvent) (peerId : String)
        (file : BondFile) (bond : Bond) (reason : String),
        disk.bonds = .parsed file → file.bonds = [bond] → bond.peerId = peerId →
        bond.status = .revoked reason →
        ¬ HasBonded (pairEventConsumer prim disk events).bonds peerId := by
  intro hclaim
  apply hclaim KnownAnswer.primitives revokedDisk [repairEvent] KnownAnswer.peerId
    ⟨1, [revokedRecord]⟩ revokedRecord "phone-lost" rfl rfl rfl rfl
  exact ⟨⟨1, [PairEvent.bond KnownAnswer.primitives repairEvent]⟩, by decide, _,
    List.mem_singleton_self _, by decide, rfl⟩

end Syauth.Presenced
