import Syauth.Core.BondLaws

/-! # The commands that change the bond store

`apply_revoke` of `crates/syauth-cli/src/revoke.rs` and the part of
`run_pair_with_io` of `crates/syauth-cli/src/pair.rs` between its load and its
save.
-/

namespace Syauth.Cli

inductive RevokeOutcome where
  | revoked (id reason : String)
  | alreadyRevoked (id existingReason : String)
  deriving DecidableEq

inductive RevokeError where
  | unknownId (id : String)
  | bond (err : BondError)
  deriving DecidableEq

def lookupStatus (store : BondStore) (id : String) : Except RevokeError BondStatus :=
  match store.list.find? fun b => b.peerId = id with
  | some b => .ok b.status
  | none => .error (.unknownId id)

def applyRevoke (store : BondStore) (id reason : String) :
    Except RevokeError (RevokeOutcome × BondStore) :=
  match lookupStatus store id with
  | .error err => .error err
  | .ok (.revoked existingReason) => .ok (.alreadyRevoked id existingReason, store)
  | .ok .bonded =>
      match store.markRevoked id reason with
      | .error err => .error (.bond err)
      | .ok store => .ok (.revoked id reason, store)

inductive PairError where
  | bond (err : BondError)
  | peerAlreadyBonded (peerId : String)
  | io
  deriving DecidableEq

/-- The record of the paired phone goes into the store, over an older one with `--force`. -/
def addPaired (store : BondStore) (bond : Bond) (force : Bool) : Except PairError BondStore :=
  match store.add bond with
  | .ok store => .ok store
  | .error (.alreadyBonded existing) =>
      if force then
        match store.remove existing with
        | .error err => .error (.bond err)
        | .ok store =>
            match store.add bond with
            | .error err => .error (.bond err)
            | .ok store => .ok store
      else .error (.peerAlreadyBonded existing)
  | .error other => .error (.bond other)

/-- The new record is the last, and nothing else changes but that under `--force` it takes the
place of the phone's only other record. -/
inductive Recorded (store : BondStore) (bond : Bond) (force : Bool) (next : BondStore) : Prop where
  | added (hnew : bond.peerId ∉ store.bonds.map Bond.peerId)
      (hnext : next.bonds = store.bonds ++ [bond])
  | replaced {before after : List Bond} {old : Bond} (hforce : force = true)
      (hstore : store.bonds = before ++ old :: after) (hold : old.peerId = bond.peerId)
      (hnew : bond.peerId ∉ (before ++ after).map Bond.peerId)
      (hnext : next.bonds = before ++ after ++ [bond])

theorem recorded_of_addPaired {store next : BondStore} {bond : Bond} {force : Bool}
    (hadded : addPaired store bond force = .ok next) : Recorded store bond force next := by
  unfold addPaired at hadded
  split at hadded
  · next hadd =>
      cases hadded
      obtain ⟨hnew, hnext⟩ := BondStore.add_eq_ok hadd
      exact .added hnew hnext
  · next existing hadd =>
      obtain rfl : existing = bond.peerId := by
        simpa using BondStore.add_eq_error hadd
      split at hadded
      · next hforce =>
          split at hadded
          · cases hadded
          · next removed hremove =>
              split at hadded
              · cases hadded
              · next hagain =>
                  cases hadded
                  obtain ⟨before, old, after, hstore, hold, hleft⟩ :=
                    BondStore.remove_eq_ok hremove
                  obtain ⟨hnew, hnext⟩ := BondStore.add_eq_ok hagain
                  rw [hleft] at hnew hnext
                  exact .replaced hforce hstore hold hnew hnext
      · cases hadded
  · cases hadded

theorem Recorded.mem {store next : BondStore} {bond : Bond} {force : Bool}
    (hrecorded : Recorded store bond force next) : bond ∈ next.bonds := by
  cases hrecorded with
  | added hnew hnext | replaced hforce hstore hold hnew hnext =>
      rw [hnext]
      exact List.mem_concat_self

end Syauth.Cli
