import Syauth.Core.Crypto
import Mathlib.Data.List.Basic

/-! # The bond store

`crates/syauth-core/src/bond.rs`.  The TOML text itself is read and written by a
third-party crate; the disk holds the parsed file, and the outcomes of the
individual file operations are inputs.
-/

namespace Syauth

def bondSchemaVersionLatest : Nat := 1

inductive BondStatus where
  | bonded
  | revoked (reason : String)
  deriving DecidableEq, Repr

/-- One recorded phone. -/
structure Bond where
  peerId : String
  pubkey : Pubkey
  name : String
  createdAt : Int
  status : BondStatus
  deriving DecidableEq

def Bond.isRevoked (bond : Bond) : Bool :=
  match bond.status with
  | .revoked _ => true
  | .bonded => false

/-- The on-disk document. -/
structure BondFile where
  schemaVersion : Nat
  bonds : List Bond
  deriving DecidableEq

/-- What reading and parsing `bonds.toml` gives. -/
inductive BondFileRead where
  | notFound
  | ioError
  | parseError
  | parsed (file : BondFile)
  deriving DecidableEq

inductive BondError where
  | io
  | parse
  | serialize
  | unsupportedSchemaVersion (found supportedUpTo : Nat)
  | alreadyBonded (peerId : String)
  | unknownPeer (peerId : String)
  | parentDirTooPermissive (mode : Nat)
  | peerIdMismatch (found expected : String)
  deriving DecidableEq, Repr

/-- The in-memory store, in declaration order. -/
structure BondStore where
  bonds : List Bond
  deriving DecidableEq

namespace BondStore

def empty : BondStore := ⟨[]⟩

def list (store : BondStore) : List Bond := store.bonds

/-- The first record whose identifier is not derived from its public key stops the load. -/
def load (prim : Primitives) (read : BondFileRead) : Except BondError BondStore :=
  match read with
  | .notFound => .ok empty
  | .ioError => .error .io
  | .parseError => .error .parse
  | .parsed file =>
      if file.schemaVersion > bondSchemaVersionLatest then
        .error (.unsupportedSchemaVersion file.schemaVersion bondSchemaVersionLatest)
      else
        match file.bonds.find? fun bond => bond.peerId ≠ peerIdFromPubkey prim bond.pubkey with
        | some bond => .error (.peerIdMismatch bond.peerId (peerIdFromPubkey prim bond.pubkey))
        | none => .ok ⟨file.bonds⟩

theorem load_cases {prim : Primitives} {read : BondFileRead} {store : BondStore}
    (hload : load prim read = .ok store) :
    (read = .notFound ∧ store = empty) ∨
      ∃ file, read = .parsed file ∧ store.bonds = file.bonds := by
  cases read with
  | notFound =>
      cases hload
      exact .inl ⟨rfl, rfl⟩
  | ioError => cases hload
  | parseError => cases hload
  | parsed file =>
      simp only [load] at hload
      split at hload
      · cases hload
      · split at hload
        · cases hload
        · cases hload
          exact .inr ⟨file, rfl, rfl⟩

/-- A store that loads has derived identifiers. -/
theorem peerId_of_load {prim : Primitives} {read : BondFileRead} {store : BondStore} {bond : Bond}
    (hload : load prim read = .ok store) (hmem : bond ∈ store.bonds) :
    bond.peerId = peerIdFromPubkey prim bond.pubkey := by
  cases read with
  | notFound =>
      cases hload
      cases hmem
  | ioError => cases hload
  | parseError => cases hload
  | parsed file =>
      simp only [load] at hload
      split at hload
      · cases hload
      · split at hload
        · cases hload
        · next hnone =>
            cases hload
            simpa using List.find?_eq_none.mp hnone bond hmem

def findIndex (store : BondStore) (peerId : String) : Option Nat :=
  store.bonds.findIdx? fun bond => bond.peerId = peerId

def add (store : BondStore) (bond : Bond) : Except BondError BondStore :=
  if (store.findIndex bond.peerId).isSome then
    .error (.alreadyBonded bond.peerId)
  else
    .ok ⟨store.bonds ++ [bond]⟩

def remove (store : BondStore) (peerId : String) : Except BondError BondStore :=
  match store.findIndex peerId with
  | some i => .ok ⟨store.bonds.eraseIdx i⟩
  | none => .error (.unknownPeer peerId)

/-- The bond with its status replaced, unless it is revoked already. -/
def revokeBond (reason : String) (bond : Bond) : Bond :=
  if bond.isRevoked then bond else { bond with status := .revoked reason }

@[simp]
theorem peerId_revokeBond (reason : String) (bond : Bond) :
    (revokeBond reason bond).peerId = bond.peerId := by
  unfold revokeBond
  split
  · rfl
  · rfl

@[simp]
theorem isRevoked_revokeBond (reason : String) (bond : Bond) :
    (revokeBond reason bond).isRevoked := by
  unfold revokeBond
  split
  · assumption
  · rfl

def markRevoked (store : BondStore) (peerId reason : String) : Except BondError BondStore :=
  match store.findIndex peerId with
  | some i => .ok ⟨store.bonds.modify i (revokeBond reason)⟩
  | none => .error (.unknownPeer peerId)

/-- The file a successful `save` leaves; the rename replaces the old file whole. -/
def saved (store : BondStore) : BondFileRead :=
  .parsed ⟨bondSchemaVersionLatest, store.bonds⟩

/-- `save` with the outcome of its file operations: a failure leaves the old file. -/
def save (store : BondStore) (outcome : Except BondError Unit) (disk : BondFileRead) :
    Except BondError Unit × BondFileRead :=
  match outcome with
  | .ok () => (.ok (), store.saved)
  | .error err => (.error err, disk)

end BondStore

end Syauth
