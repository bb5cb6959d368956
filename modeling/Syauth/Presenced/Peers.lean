import Syauth.Core.Bond
import Syauth.Presenced.Challenge
import Mathlib.Data.List.AList

/-! # The live peer map and its reload

The part of `crates/syauth-presenced/src/orchestrator.rs` that owns the peer
map: construction, lookup and the reconciliation of the map with a bond store.
The `Arc`s inside an entry are an index into a heap of cells, so that a task
that has cloned them keeps the old cells when the entry is replaced.
-/

namespace Syauth.Presenced

open Transport

abbrev CellId := Nat
abbrev CallId := Nat

structure PeerLiveness where
  lastChallengeAt : Option SystemTime
  lastConnectAt : Option SystemTime
  deriving DecidableEq

/-- What the `Arc`s of one entry point to.  The semaphore has one permit. -/
structure PeerCell where
  nonceCache : NonceCache
  slotHolder : Option CallId
  liveness : PeerLiveness
  deriving DecidableEq

def PeerCell.new : PeerCell := ⟨NonceCache.new, none, ⟨none, none⟩⟩

structure PeerEntry where
  bondKey : BondKey
  phonePubkey : Option Pubkey
  cell : CellId
  deriving DecidableEq

abbrev PeerMap := AList fun _ : String => PeerEntry

/-- The peer map together with the heap its entries point into. -/
structure Live where
  peers : PeerMap
  cells : CellId → PeerCell
  nextCell : CellId

namespace Live

def empty : Live := ⟨∅, fun _ => PeerCell.new, 0⟩

/-- Insert `PeerEntry::new(bond_key, Some(pubkey))`, whose cells are freshly allocated. -/
def insertPeer (live : Live) (peerId : String) (bondKey : BondKey) (pubkey : Pubkey) : Live where
  peers := live.peers.insert peerId ⟨bondKey, some pubkey, live.nextCell⟩
  cells := Function.update live.cells live.nextCell PeerCell.new
  nextCell := live.nextCell + 1

def removePeer (live : Live) (peerId : String) : Live :=
  { live with peers := live.peers.erase peerId }

def updateCell (live : Live) (cell : CellId) (f : PeerCell → PeerCell) : Live :=
  { live with cells := Function.update live.cells cell (f (live.cells cell)) }

/-- The map an orchestrator starts with. -/
def withPeers (peers : List (Bond × BondKey)) : Live :=
  peers.foldl (fun live peer => live.insertPeer peer.1.peerId peer.2 peer.1.pubkey) empty

@[simp]
theorem peers_insertPeer (live : Live) (peerId : String) (bondKey : BondKey) (pubkey : Pubkey) :
    (live.insertPeer peerId bondKey pubkey).peers =
      live.peers.insert peerId ⟨bondKey, some pubkey, live.nextCell⟩ := rfl

@[simp]
theorem peers_removePeer (live : Live) (peerId : String) :
    (live.removePeer peerId).peers = live.peers.erase peerId := rfl

end Live

/-! ## Lookup -/

/-- The snapshot a challenge works on: keys by value, cells by reference. -/
structure PeerState where
  phonePubkey : Pubkey
  bondKey : BondKey
  cell : CellId
  deriving DecidableEq

def lookupPeer (live : Live) (peerId : String) : Option PeerState :=
  (live.peers.lookup peerId).bind fun entry =>
    entry.phonePubkey.map fun pubkey => ⟨pubkey, entry.bondKey, entry.cell⟩

theorem lookupPeer_eq_some {live : Live} {peerId : String} {peer : PeerState} :
    lookupPeer live peerId = some peer ↔
      live.peers.lookup peerId = some ⟨peer.bondKey, some peer.phonePubkey, peer.cell⟩ := by
  unfold lookupPeer
  rw [Option.bind_eq_some_iff]
  constructor
  · rintro ⟨⟨bondKey, phonePubkey, cell⟩, hentry, hpeer⟩
    obtain ⟨pubkey, rfl, rfl⟩ := Option.map_eq_some_iff.mp hpeer
    exact hentry
  · intro hentry
    exact ⟨_, hentry, rfl⟩

theorem lookupPeer_eq_none {live : Live} {peerId : String} (habsent : peerId ∉ live.peers) :
    lookupPeer live peerId = none := by
  unfold lookupPeer
  rw [AList.lookup_eq_none.mpr habsent]
  rfl

/-! ## Reload -/

def bondKeyFileExt : String := ".bin"

inductive KeyLoadError where
  | read (err : String)
  | wrongLength (got : Nat)
  deriving DecidableEq

/-- The result of reading each file of the keys directory, by file name. -/
abbrev KeysDir := String → Except String Bytes

def loadBondKey (keysDir : KeysDir) (peerId : String) : Except KeyLoadError BondKey :=
  match keysDir (peerId ++ bondKeyFileExt) with
  | .error err => .error (.read err)
  | .ok bytes =>
      if hlen : bytes.length = bondKeyBytes then .ok ⟨bytes, hlen⟩
      else .error (.wrongLength bytes.length)

abbrev KeySet := AList fun _ : String => BondKey

/-- A key file that does not load is skipped. -/
def insertLoadedKey (keysDir : KeysDir) (out : KeySet) (bond : Bond) : KeySet :=
  match loadBondKey keysDir bond.peerId with
  | .ok key => out.insert bond.peerId key
  | .error _ => out

def computeNewSet (keysDir : KeysDir) (store : BondStore) : KeySet :=
  (store.list.filter fun bond => !bond.isRevoked).foldl (insertLoadedKey keysDir) ∅

/-- The order in which a hash set is iterated: any rearrangement of its elements. -/
structure IterOrder where
  arrange : List String → List String
  perm : ∀ ids, (arrange ids).Perm ids

def IterOrder.declared : IterOrder := ⟨id, fun ids => List.Perm.refl ids⟩

theorem IterOrder.mem_arrange (order : IterOrder) {ids : List String} {peerId : String} :
    peerId ∈ order.arrange ids ↔ peerId ∈ ids :=
  (order.perm ids).mem_iff

/-- The identifiers to add and those to remove. -/
def computeDiff (order : IterOrder) (live : Live) (newSet : KeySet) : List String × List String :=
  (order.arrange (newSet.keys.filter fun peerId => peerId ∉ live.peers.keys),
    order.arrange (live.peers.keys.filter fun peerId => peerId ∉ newSet.keys))

/-- A failing `remove_peer` of the peripheral leaves the entry in the map. -/
def doRemovePeer (live : Live) (peerId : String) (result : Except PeripheralError Unit) : Live :=
  match result with
  | .ok () => live.removePeer peerId
  | .error _ => live

/-- The public key is that of the first record with the identifier, revoked or not. -/
def doAddPeer (store : BondStore) (live : Live) (peerId : String) (key : BondKey)
    (result : Except PeripheralError Unit) : Live :=
  match (store.list.find? fun bond => bond.peerId = peerId).map (·.pubkey) with
  | none => live
  | some pubkey =>
      match result with
      | .ok () => live.insertPeer peerId key pubkey
      | .error _ => live

/-- One turn of the adding loop. -/
def addFromSet (store : BondStore) (newSet : KeySet) (live : Live) (peerId : String)
    (result : Except PeripheralError Unit) : Live :=
  match newSet.lookup peerId with
  | none => live
  | some key => doAddPeer store live peerId key result

/-- A turn of the adding loop leaves the map alone or inserts a fresh entry. -/
theorem addFromSet_cases (store : BondStore) (newSet : KeySet) (live : Live) (peerId : String)
    (result : Except PeripheralError Unit) :
    addFromSet store newSet live peerId result = live ∨
      ∃ key pubkey, result = .ok () ∧
        addFromSet store newSet live peerId result = live.insertPeer peerId key pubkey := by
  unfold addFromSet doAddPeer
  split
  · exact .inl rfl
  · next key hkey =>
      split
      · exact .inl rfl
      · next pubkey hpubkey =>
          split
          · exact .inr ⟨key, pubkey, rfl, rfl⟩
          · exact .inl rfl

/-- `reload_bonds_with_trigger` up to its log line, with the results of the
peripheral calls it makes for each identifier. -/
def reloadBonds (order : IterOrder) (keysDir : KeysDir)
    (removeResult addResult : String → Except PeripheralError Unit)
    (store : BondStore) (live : Live) : Live :=
  let newSet := computeNewSet keysDir store
  let diff := computeDiff order live newSet
  let removed :=
    diff.2.foldl (fun live peerId => doRemovePeer live peerId (removeResult peerId)) live
  diff.1.foldl (fun live peerId => addFromSet store newSet live peerId (addResult peerId)) removed

end Syauth.Presenced
