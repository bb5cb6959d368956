import Syauth.Presenced.Daemon

/-! # The peer map of a cold start

`maybe_spawn_orchestrator` of `crates/syauth-presenced/src/runtime.rs` seeds the live
map with one record; the reload pipeline folds over all of them.  Both are compared by
what a lookup in the map gives.
-/

namespace Syauth.Presenced

open Transport

/-- `first_active`: the first record with status `Bonded`. -/
def firstActive (store : BondStore) : Option Bond :=
  store.list.find? fun bond => bond.status = .bonded

/-- The seed peers of the orchestrator, or `none` where the daemon serves only the socket.
The inputs are what opening the adapter, reading the key files and `add_peer` give. -/
def maybeSpawnOrchestrator (prim : Primitives) (read : BondFileRead) (adapter : Except String Unit)
    (keysDir : KeysDir) (addPeer : String → Except PeripheralError Unit) :
    Option (List (Bond × BondKey)) :=
  match BondStore.load prim read with
  | .error _ => none
  | .ok store =>
      match adapter with
      | .error _ => none
      | .ok () =>
          match firstActive store with
          | none => some []
          | some bond =>
              match loadBondKey keysDir bond.peerId with
              | .error _ => some []
              | .ok key =>
                  match addPeer bond.peerId with
                  | .error _ => none
                  | .ok () => some [(bond, key)]

/-- The state the daemon serves its socket from. -/
def coldStart (prim : Primitives) (read : BondFileRead) (adapter : Except String Unit)
    (keysDir : KeysDir) (addPeer : String → Except PeripheralError Unit) (audited : Bool)
    (startedAt : SystemTime) : State :=
  match maybeSpawnOrchestrator prim read adapter keysDir addPeer with
  | some seed => State.init seed audited true startedAt
  | none => State.init [] audited false startedAt

theorem coldStart_start (prim : Primitives) (read : BondFileRead) (adapter : Except String Unit)
    (keysDir : KeysDir) (addPeer : String → Except PeripheralError Unit) (audited : Bool)
    (startedAt : SystemTime) :
    (daemon prim).start (coldStart prim read adapter keysDir addPeer audited startedAt) := by
  unfold coldStart
  split
  · exact ⟨_, _, _, _, rfl⟩
  · exact ⟨_, _, _, _, rfl⟩

/-- The identifiers, bond keys and public keys of a peer map, without the cells. -/
def Live.view (live : Live) (peerId : String) : Option (BondKey × Option Pubkey) :=
  (live.peers.lookup peerId).map fun entry => (entry.bondKey, entry.phonePubkey)

variable {prim : Primitives} {read : BondFileRead} {store : BondStore} {keysDir : KeysDir}
variable {peerId : String} {key : BondKey} {pubkey : Option Pubkey}

/-! ## The seed -/

/-- The seed of a store whose `add_peer` calls succeed. -/
def seedPeers (keysDir : KeysDir) (store : BondStore) : List (Bond × BondKey) :=
  match firstActive store with
  | none => []
  | some bond =>
      match loadBondKey keysDir bond.peerId with
      | .error _ => []
      | .ok key => [(bond, key)]

theorem maybeSpawnOrchestrator_of_load {addPeer : String → Except PeripheralError Unit}
    (hload : BondStore.load prim read = .ok store) (hadd : ∀ peerId, addPeer peerId = .ok ()) :
    maybeSpawnOrchestrator prim read (.ok ()) keysDir addPeer = some (seedPeers keysDir store) := by
  unfold maybeSpawnOrchestrator seedPeers
  simp only [hload, hadd]
  cases firstActive store with
  | none => rfl
  | some bond =>
      simp only
      cases loadBondKey keysDir bond.peerId <;> rfl

theorem view_seed_eq_some :
    (Live.withPeers (seedPeers keysDir store)).view peerId = some (key, pubkey) ↔
      ∃ first, firstActive store = some first ∧ first.peerId = peerId ∧
        loadBondKey keysDir peerId = .ok key ∧ some first.pubkey = pubkey := by
  unfold seedPeers
  cases firstActive store with
  | none => simp [Live.withPeers, Live.empty, Live.view]
  | some first =>
      simp only
      by_cases hid : first.peerId = peerId
      · subst hid
        cases hload : loadBondKey keysDir first.peerId with
        | error err => simp [Live.withPeers, Live.empty, Live.view]
        | ok loaded => simp [Live.withPeers, Live.view]
      · have hlookup : ∀ entry : PeerEntry,
            (AList.singleton first.peerId entry : PeerMap).lookup peerId = none := by
          intro entry
          rw [← AList.insert_empty]
          exact AList.lookup_insert_ne (Ne.symm hid)
        cases loadBondKey keysDir first.peerId with
        | error err => simp [Live.withPeers, Live.empty, Live.view, hid]
        | ok loaded => simp [Live.withPeers, Live.empty, Live.view, hid, hlookup]

/-! ## The reload of an empty map -/

variable {order : IterOrder} {removeResult addPeer : String → Except PeripheralError Unit}

theorem peripheralSucceeds_empty (hadd : ∀ peerId, addPeer peerId = .ok ()) :
    PeripheralSucceeds order keysDir removeResult addPeer store Live.empty := by
  constructor
  · intro removed hremoved
    exact absurd (mem_toRemove.mp hremoved).1 (AList.notMem_empty removed)
  · intro added _
    exact hadd added

theorem view_reload_eq_some (hadd : ∀ peerId, addPeer peerId = .ok ()) :
    (reloadBonds order keysDir removeResult addPeer store Live.empty).view peerId =
        some (key, pubkey) ↔
      (∃ bond, ActiveRecord store peerId bond) ∧ loadBondKey keysDir peerId = .ok key ∧
        (store.list.find? fun bond => bond.peerId = peerId).map (·.pubkey) = pubkey := by
  have hok : PeripheralSucceeds order keysDir removeResult addPeer store Live.empty :=
    peripheralSucceeds_empty hadd
  by_cases heligible : Eligible keysDir store peerId
  · obtain ⟨loaded, first, cell, hload, hfirst, hlookup⟩ :=
      lookup_reloadBonds_of_new hok (AList.notMem_empty peerId) heligible
    have hactive := heligible.1
    simp [Live.view, hlookup, hload, hfirst, hactive]
  · have hlookup := lookup_reloadBonds_of_not_eligible hok heligible
    simp only [Live.view, hlookup, Option.map_none, reduceCtorEq, false_iff, not_and]
    intro hactive hload
    exact absurd ⟨hactive, key, hload⟩ heligible

/-! ## The two maps -/

/-- The store that holds the seeding record and nothing else. -/
def firstActiveOnly (store : BondStore) : BondStore :=
  ⟨(firstActive store).toList⟩

theorem isRevoked_of_firstActive {first : Bond} (hfirst : firstActive store = some first) :
    first.isRevoked = false := by
  have hstatus : first.status = .bonded := by simpa using List.find?_some hfirst
  unfold Bond.isRevoked
  rw [hstatus]

theorem activeRecord_firstActive {first : Bond} (hfirst : firstActive store = some first) :
    ActiveRecord store first.peerId first :=
  ⟨List.mem_of_find?_eq_some hfirst, isRevoked_of_firstActive hfirst, rfl⟩

theorem view_seed_eq_reload (hadd : ∀ peerId, addPeer peerId = .ok ()) :
    (Live.withPeers (seedPeers keysDir store)).view =
      (reloadBonds order keysDir removeResult addPeer (firstActiveOnly store) Live.empty).view := by
  funext peerId
  ext ⟨key, pubkey⟩
  rw [view_seed_eq_some, view_reload_eq_some hadd]
  cases hfirst : firstActive store with
  | none => simp [ActiveRecord, firstActiveOnly, hfirst, BondStore.list]
  | some first =>
      have hactive := isRevoked_of_firstActive hfirst
      by_cases hid : first.peerId = peerId
      · simp [ActiveRecord, firstActiveOnly, hfirst, BondStore.list, hid, hactive]
      · simp [ActiveRecord, firstActiveOnly, hfirst, BondStore.list, hid]

/-- Every active record with a key that loads is one of the seeding peer, and the first
record of that peer in the file has its public key. -/
def SeedCovers (keysDir : KeysDir) (store : BondStore) : Prop :=
  ∀ peerId, Eligible keysDir store peerId →
    ∃ first, firstActive store = some first ∧ first.peerId = peerId ∧
      (store.list.find? fun bond => bond.peerId = peerId).map (·.pubkey) = some first.pubkey

theorem view_seed_eq_full_reload_iff (hadd : ∀ peerId, addPeer peerId = .ok ()) :
    (Live.withPeers (seedPeers keysDir store)).view =
        (reloadBonds order keysDir removeResult addPeer store Live.empty).view ↔
      SeedCovers keysDir store := by
  constructor
  · rintro hsame peerId ⟨hactive, key, hload⟩
    have hseed : (Live.withPeers (seedPeers keysDir store)).view peerId =
        some (key, (store.list.find? fun bond => bond.peerId = peerId).map (·.pubkey)) := by
      rw [hsame]
      exact (view_reload_eq_some hadd).mpr ⟨hactive, hload, rfl⟩
    obtain ⟨first, hfirst, hid, -, hpubkey⟩ := view_seed_eq_some.mp hseed
    exact ⟨first, hfirst, hid, hpubkey.symm⟩
  · intro hcovers
    funext peerId
    ext ⟨key, pubkey⟩
    rw [view_seed_eq_some, view_reload_eq_some hadd]
    constructor
    · rintro ⟨first, hfirst, rfl, hload, rfl⟩
      have hactive := activeRecord_firstActive hfirst
      obtain ⟨first', hfirst', -, hpubkey⟩ := hcovers first.peerId ⟨⟨first, hactive⟩, key, hload⟩
      obtain rfl : first = first' := Option.some.inj (hfirst.symm.trans hfirst')
      exact ⟨⟨first, hactive⟩, hload, hpubkey⟩
    · rintro ⟨hactive, hload, rfl⟩
      obtain ⟨first, hfirst, hid, hpubkey⟩ := hcovers peerId ⟨hactive, key, hload⟩
      exact ⟨first, hfirst, hid, hload, hpubkey.symm⟩

/-- A cold start with a usable adapter leaves the map that a reload of the first `Bonded`
record alone builds from nothing.  It is the map of the whole store exactly when no
other peer is eligible. -/
theorem cold_start_reloads_first_active (prim : Primitives) (read : BondFileRead)
    (keysDir : KeysDir) (order : IterOrder)
    (removeResult addPeer : String → Except PeripheralError Unit)
    (hadd : ∀ peerId, addPeer peerId = .ok ()) :
    match BondStore.load prim read with
    | .error _ => maybeSpawnOrchestrator prim read (.ok ()) keysDir addPeer = none
    | .ok store =>
        ∃ seed, maybeSpawnOrchestrator prim read (.ok ()) keysDir addPeer = some seed ∧
          (Live.withPeers seed).view =
            (reloadBonds order keysDir removeResult addPeer (firstActiveOnly store)
              Live.empty).view ∧
          ((Live.withPeers seed).view =
              (reloadBonds order keysDir removeResult addPeer store Live.empty).view ↔
            SeedCovers keysDir store) := by
  split
  · next err hload =>
      unfold maybeSpawnOrchestrator
      rw [hload]
  · next store hload =>
      exact ⟨seedPeers keysDir store, maybeSpawnOrchestrator_of_load hload hadd,
        view_seed_eq_reload hadd, view_seed_eq_full_reload_iff hadd⟩

/-! ## Two phones -/

def otherBond : Bond :=
  ⟨KnownAnswer.otherPeerId, KnownAnswer.otherPubkey, "Tablet", 0, .bonded⟩

def twoBonds : BondFileRead := .parsed ⟨1, [knownBond, otherBond]⟩

/-- A key file for every identifier. -/
def fullKeysDir : KeysDir := fun _ => .ok KnownAnswer.bondKey.val

theorem cold_start_reloads_first_active_twoBonds :
    match BondStore.load KnownAnswer.primitives twoBonds with
    | .error _ =>
        maybeSpawnOrchestrator KnownAnswer.primitives twoBonds (.ok ()) fullKeysDir
          succeeding = none
    | .ok store =>
        ∃ seed, maybeSpawnOrchestrator KnownAnswer.primitives twoBonds (.ok ()) fullKeysDir
            succeeding = some seed ∧
          (Live.withPeers seed).view =
            (reloadBonds .declared fullKeysDir succeeding succeeding (firstActiveOnly store)
              Live.empty).view ∧
          ((Live.withPeers seed).view =
              (reloadBonds .declared fullKeysDir succeeding succeeding store Live.empty).view ↔
            SeedCovers fullKeysDir store) :=
  cold_start_reloads_first_active KnownAnswer.primitives twoBonds fullKeysDir .declared succeeding
    succeeding fun _ => rfl

/-- The second phone is live after a reload and not after a cold start. -/
theorem twoBonds_cold_start_ne_reload :
    ∃ store seed, BondStore.load KnownAnswer.primitives twoBonds = .ok store ∧
      maybeSpawnOrchestrator KnownAnswer.primitives twoBonds (.ok ()) fullKeysDir succeeding =
        some seed ∧
      (Live.withPeers seed).view ≠
        (reloadBonds .declared fullKeysDir succeeding succeeding store Live.empty).view := by
  refine ⟨⟨[knownBond, otherBond]⟩, [(knownBond, KnownAnswer.bondKey)], by decide, by decide, ?_⟩
  intro hsame
  exact absurd (congrFun hsame KnownAnswer.otherPeerId) (by decide)

end Syauth.Presenced
