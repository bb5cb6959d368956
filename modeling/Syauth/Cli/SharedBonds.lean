import Syauth.Cli.Commands
import Syauth.Presenced.PairConsumer
import Syauth.Transition.ReadModifyWrite

/-! # Three writers of one `bonds.toml`

The daemon's `persist_pair_bond_record`, `syauth revoke` and `syauth pair` each
load the file, change the store in memory and save it, in their own processes.
The save renames a new file over the old one and looks at nothing else.
-/

namespace Syauth.Cli

open Transition Presenced

/-- One run of one of the writers. -/
inductive BondOp where
  | persist (bond : Bond)
  | revoke (id reason : String)
  | pair (bond : Bond) (force : Bool)
  deriving DecidableEq

inductive BondOpError where
  | bond (err : BondError)
  | revoke (err : RevokeError)
  | pair (err : PairError)
  deriving DecidableEq

/-- What a writer makes of a loaded store: the store to save, or nothing to save. -/
def BondOp.change (store : BondStore) : BondOp → Except BondOpError (Option BondStore)
  | .persist bond =>
      match replaceRecord store bond with
      | .error err => .error (.bond err)
      | .ok store => .ok (some store)
  | .revoke id reason =>
      match applyRevoke store id reason with
      | .error err => .error (.revoke err)
      | .ok (.revoked _ _, store) => .ok (some store)
      | .ok (.alreadyRevoked _ _, _) => .ok none
  | .pair bond force =>
      match addPaired store bond force with
      | .error err => .error (.pair err)
      | .ok store => .ok (some store)

/-- A writer as a change of the file. -/
def BondOp.update (prim : Primitives) (op : BondOp) :
    ReadModifyWrite.Update BondFileRead BondOpError := fun read =>
  match BondStore.load prim read with
  | .error err => .error (.bond err)
  | .ok store => (op.change store).map (Option.map BondStore.saved)

/-- Any number of writers on one file. -/
def writers {ι : Type} [DecidableEq ι] (prim : Primitives) (ops : ι → BondOp)
    (file : BondFileRead) :
    System (ReadModifyWrite.State BondFileRead ι) (ReadModifyWrite.Event ι) :=
  ReadModifyWrite.system (fun i => (ops i).update prim) file

/-- The outcome of running writers one after another. -/
def oneAfterAnother {ι : Type} (prim : Primitives) (ops : ι → BondOp) (order : List ι)
    (file : BondFileRead) : Option BondFileRead :=
  ReadModifyWrite.serial (fun i => (ops i).update prim) order file

/-! ## What a revocation leaves -/

def firstRecord (bonds : List Bond) (peerId : String) : Option Bond :=
  bonds.find? fun bond => bond.peerId = peerId

/-- The record `syauth revoke` and `syauth list` find first for the identifier is revoked. -/
def RevokedIn (read : BondFileRead) (peerId : String) : Prop :=
  ∃ file, read = .parsed file ∧ ∃ bond, firstRecord file.bonds peerId = some bond ∧ bond.isRevoked

/-- The identifier whose record a writer replaces. -/
def BondOp.pairs : BondOp → Option String
  | .persist bond => some bond.peerId
  | .revoke _ _ => none
  | .pair bond _ => some bond.peerId

section Records

variable {bonds : List Bond} {peerId other : String}

theorem firstRecord_cons (bond : Bond) :
    firstRecord (bond :: bonds) peerId =
      if bond.peerId = peerId then some bond else firstRecord bonds peerId := by
  by_cases hpeer : bond.peerId = peerId
  · simp [firstRecord, hpeer]
  · simp [firstRecord, hpeer]

theorem firstRecord_drop {before after : List Bond} {bond : Bond} (hne : bond.peerId ≠ peerId) :
    firstRecord (before ++ bond :: after) peerId = firstRecord (before ++ after) peerId := by
  simp [firstRecord, List.find?_append, hne]

theorem firstRecord_append_singleton {bond : Bond} (hne : bond.peerId ≠ peerId) :
    firstRecord (bonds ++ [bond]) peerId = firstRecord bonds peerId := by
  simp [firstRecord, List.find?_append, hne]

theorem firstRecord_modify {i : Nat} (reason : String)
    (hindex : bonds.findIdx? (fun bond => bond.peerId = other) = some i) :
    firstRecord (bonds.modify i (BondStore.revokeBond reason)) peerId =
      if other = peerId then (firstRecord bonds peerId).map (BondStore.revokeBond reason)
      else firstRecord bonds peerId := by
  induction bonds generalizing i with
  | nil => cases hindex
  | cons bond rest ih =>
      rw [List.findIdx?_cons] at hindex
      -- the record marked is the first of its identifier, which is also the one looked up
      by_cases hother : bond.peerId = other
      · simp only [hother, decide_true, if_true] at hindex
        cases hindex
        rw [List.modify_zero_cons, firstRecord_cons, firstRecord_cons, BondStore.peerId_revokeBond,
          hother]
        by_cases hsame : other = peerId
        · simp [hsame]
        · simp [hsame]
      · simp only [hother, decide_false, Bool.false_eq_true, if_false] at hindex
        obtain ⟨j, hj, rfl⟩ := Option.map_eq_some_iff.mp hindex
        rw [List.modify_succ_cons, firstRecord_cons, firstRecord_cons, ih hj]
        by_cases hsame : other = peerId
        · simp [hsame, hsame ▸ hother]
        · simp [hsame]

variable {store next : BondStore}

theorem firstRecord_add {bond : Bond} (hadd : store.add bond = .ok next)
    (hne : bond.peerId ≠ peerId) :
    firstRecord next.bonds peerId = firstRecord store.bonds peerId := by
  obtain ⟨-, hnext⟩ := BondStore.add_eq_ok hadd
  rw [hnext, firstRecord_append_singleton hne]

theorem firstRecord_remove (hremove : store.remove other = .ok next) (hne : other ≠ peerId) :
    firstRecord next.bonds peerId = firstRecord store.bonds peerId := by
  obtain ⟨before, bond, after, hbonds, hpeer, hnext⟩ := BondStore.remove_eq_ok hremove
  rw [hnext, hbonds, firstRecord_drop (hpeer ▸ hne)]

theorem firstRecord_markRevoked {reason : String}
    (hmark : store.markRevoked other reason = .ok next) :
    firstRecord next.bonds peerId =
      if other = peerId then (firstRecord store.bonds peerId).map (BondStore.revokeBond reason)
      else firstRecord store.bonds peerId := by
  unfold BondStore.markRevoked at hmark
  split at hmark
  · next i hindex =>
      cases hmark
      exact firstRecord_modify reason hindex
  · cases hmark

end Records

section Change

variable {op : BondOp} {store next : BondStore} {peerId : String} {bond : Bond}

theorem firstRecord_replaceRecord {new : Bond} (hreplace : replaceRecord store new = .ok next)
    (hne : new.peerId ≠ peerId) :
    firstRecord next.bonds peerId = firstRecord store.bonds peerId := by
  unfold replaceRecord at hreplace
  split at hreplace
  · cases hremove : store.remove new.peerId with
    | error err =>
        rw [hremove] at hreplace
        cases hreplace
    | ok removed =>
        rw [hremove] at hreplace
        rw [firstRecord_add hreplace hne, firstRecord_remove hremove hne]
  · exact firstRecord_add hreplace hne

theorem firstRecord_addPaired {new : Bond} {force : Bool}
    (hpaired : addPaired store new force = .ok next) (hne : new.peerId ≠ peerId) :
    firstRecord next.bonds peerId = firstRecord store.bonds peerId := by
  cases recorded_of_addPaired hpaired with
  | added hnew hnext => rw [hnext, firstRecord_append_singleton hne]
  | replaced hforce hstore hold hnew hnext =>
      -- with `--force` the record in the way is the one of the new phone itself
      rw [hnext, hstore, firstRecord_append_singleton hne, firstRecord_drop (hold ▸ hne)]

/-- What `syauth revoke` does when it returns success. -/
theorem BondOp.change_revoke_cases {id reason : String} {written : Option BondStore}
    (hchange : (BondOp.revoke id reason).change store = .ok written) :
    ∃ bond, firstRecord store.bonds id = some bond ∧
      ((written = none ∧ bond.isRevoked) ∨
        ∃ next, written = some next ∧ store.markRevoked id reason = .ok next) := by
  simp only [BondOp.change, applyRevoke, lookupStatus] at hchange
  cases hfirst : store.list.find? fun b => b.peerId = id with
  | none =>
      rw [hfirst] at hchange
      cases hchange
  | some bond =>
      rw [hfirst] at hchange
      refine ⟨bond, hfirst, ?_⟩
      cases hstatus : bond.status with
      | revoked existing =>
          simp only [hstatus] at hchange
          cases hchange
          exact .inl ⟨rfl, by simp [Bond.isRevoked, hstatus]⟩
      | bonded =>
          simp only [hstatus] at hchange
          cases hmark : store.markRevoked id reason with
          | error err =>
              rw [hmark] at hchange
              cases hchange
          | ok next =>
              rw [hmark] at hchange
              cases hchange
              exact .inr ⟨next, rfl, rfl⟩

/-- The record of an identifier that no pairing writes stays revoked. -/
theorem BondOp.change_keeps_revoked (hpairs : op.pairs ≠ some peerId)
    (hchange : op.change store = .ok (some next))
    (hfirst : firstRecord store.bonds peerId = some bond) (hrevoked : bond.isRevoked) :
    ∃ bond, firstRecord next.bonds peerId = some bond ∧ bond.isRevoked := by
  cases op with
  | persist new =>
      simp only [BondOp.change] at hchange
      split at hchange
      · cases hchange
      · next replaced hreplace =>
          cases hchange
          have hne : new.peerId ≠ peerId := by simpa [BondOp.pairs] using hpairs
          exact ⟨bond, by rw [firstRecord_replaceRecord hreplace hne, hfirst], hrevoked⟩
  | revoke id reason =>
      -- marking a record again keeps it revoked, with the first reason
      obtain ⟨-, -, ⟨hnone, -⟩ | ⟨marked, hmarked, hmark⟩⟩ := BondOp.change_revoke_cases hchange
      · cases hnone
      cases hmarked
      rw [firstRecord_markRevoked hmark, hfirst]
      by_cases hsame : id = peerId
      · exact ⟨_, if_pos hsame, BondStore.isRevoked_revokeBond reason bond⟩
      · exact ⟨_, if_neg hsame, hrevoked⟩
  | pair new force =>
      simp only [BondOp.change] at hchange
      split at hchange
      · cases hchange
      · next paired hpaired =>
          cases hchange
          have hne : new.peerId ≠ peerId := by simpa [BondOp.pairs] using hpairs
          exact ⟨bond, by rw [firstRecord_addPaired hpaired hne, hfirst], hrevoked⟩

/-- A revocation that returns success has found the record revoked or makes it so. -/
theorem BondOp.change_revoke_revokes {id reason : String} {written : Option BondStore}
    (hchange : (BondOp.revoke id reason).change store = .ok written) :
    ∃ bond, firstRecord (written.getD store).bonds id = some bond ∧ bond.isRevoked := by
  obtain ⟨bond, hfirst, ⟨rfl, hrevoked⟩ | ⟨next, rfl, hmark⟩⟩ := BondOp.change_revoke_cases hchange
  · exact ⟨bond, hfirst, hrevoked⟩
  · refine ⟨BondStore.revokeBond reason bond, ?_, BondStore.isRevoked_revokeBond reason bond⟩
    rw [Option.getD_some, firstRecord_markRevoked hmark, if_pos rfl, hfirst]
    rfl

end Change

/-! ## One after another -/

section Serial

variable {ι : Type} {prim : Primitives} {ops : ι → BondOp}

theorem revokedIn_iff_of_load {read : BondFileRead} {store : BondStore} {peerId : String}
    (hload : BondStore.load prim read = .ok store) :
    RevokedIn read peerId ↔
      ∃ bond, firstRecord store.bonds peerId = some bond ∧ bond.isRevoked := by
  obtain ⟨rfl, rfl⟩ | ⟨file, rfl, hbonds⟩ := BondStore.load_cases hload
  · simp [RevokedIn, BondStore.empty, firstRecord]
  · simp [RevokedIn, hbonds]

theorem oneAfterAnother_cons {i : ι} {order : List ι} {file final : BondFileRead}
    (hfinal : oneAfterAnother prim ops (i :: order) file = some final) :
    ∃ store written, BondStore.load prim file = .ok store ∧ (ops i).change store = .ok written ∧
      oneAfterAnother prim ops order ((written.map BondStore.saved).getD file) = some final := by
  simp only [oneAfterAnother, ReadModifyWrite.serial, BondOp.update] at hfinal
  cases hload : BondStore.load prim file with
  | error err => simp [hload] at hfinal
  | ok store =>
      cases hchange : (ops i).change store with
      | error err => simp [hload, hchange, Except.map] at hfinal
      | ok written =>
          cases written with
          | none =>
              simp only [hload, hchange, Except.map, Option.map_none] at hfinal
              exact ⟨store, none, rfl, hchange, hfinal⟩
          | some next =>
              simp only [hload, hchange, Except.map, Option.map_some] at hfinal
              exact ⟨store, some next, rfl, hchange, hfinal⟩

theorem revokedIn_of_oneAfterAnother {order : List ι} {file final : BondFileRead} {peerId : String}
    (hpairs : ∀ i ∈ order, (ops i).pairs ≠ some peerId) (hrevoked : RevokedIn file peerId)
    (hfinal : oneAfterAnother prim ops order file = some final) : RevokedIn final peerId := by
  induction order generalizing file with
  | nil =>
      cases hfinal
      exact hrevoked
  | cons i order ih =>
      obtain ⟨store, written, hload, hchange, hrest⟩ := oneAfterAnother_cons hfinal
      refine ih (fun j hj => hpairs j (List.mem_cons_of_mem i hj)) ?_ hrest
      cases written with
      | none => exact hrevoked
      | some next =>
          obtain ⟨bond, hfirst, hbond⟩ := (revokedIn_iff_of_load hload).mp hrevoked
          obtain ⟨kept, hkept, hkeptRevoked⟩ := BondOp.change_keeps_revoked
            (hpairs i List.mem_cons_self) hchange hfirst hbond
          exact ⟨_, rfl, kept, hkept, hkeptRevoked⟩

/-- A revocation lasts when the writers after it pair other phones. -/
theorem revokedIn_of_append {before after : List ι} {file final : BondFileRead} {i : ι}
    {id reason : String} (hop : ops i = .revoke id reason)
    (hpairs : ∀ j ∈ after, (ops j).pairs ≠ some id)
    (hfinal : oneAfterAnother prim ops (before ++ i :: after) file = some final) :
    RevokedIn final id := by
  induction before generalizing file with
  | nil =>
      obtain ⟨store, written, hload, hchange, hrest⟩ := oneAfterAnother_cons hfinal
      rw [hop] at hchange
      obtain ⟨bond, hfirst, hbond⟩ := BondOp.change_revoke_revokes hchange
      apply revokedIn_of_oneAfterAnother hpairs ?_ hrest
      cases written with
      | none => exact (revokedIn_iff_of_load hload).mpr ⟨bond, hfirst, hbond⟩
      | some next => exact ⟨_, rfl, bond, hfirst, hbond⟩
  | cons j before ih =>
      obtain ⟨store, written, hload, hchange, hrest⟩ := oneAfterAnother_cons hfinal
      exact ih hrest

end Serial

/-! ## Side by side -/

/-- When every save finds the file its writer loaded, the file is that of the writers
run one after another, and a revocation lasts until its phone is paired again. -/
theorem writers_serializable {ι : Type} [DecidableEq ι] (prim : Primitives) (ops : ι → BondOp)
    (file : BondFileRead) {initial final : ReadModifyWrite.State BondFileRead ι}
    {events : List (ReadModifyWrite.Event ι)}
    (hstart : (writers prim ops file).start initial)
    (hguard : (writers prim ops file).AllSteps ReadModifyWrite.WritesLoaded initial events)
    (hrun : (writers prim ops file).run initial events = some final) :
    ∃ order : List ι, order.Nodup ∧ (∀ i, i ∈ order ↔ (final.clients i).Applied) ∧
      oneAfterAnother prim ops order file = some final.value ∧
      ∀ before i after id reason, order = before ++ i :: after → ops i = .revoke id reason →
        (∀ j ∈ after, (ops j).pairs ≠ some id) → RevokedIn final.value id := by
  have hserial := ReadModifyWrite.serialized_run hstart hguard hrun
  refine ⟨_, hserial.nodup, hserial.mem_iff, hserial.serial_eq, ?_⟩
  intro before i after id reason horder hop hpairs
  have hfinal : oneAfterAnother prim ops _ file = some final.value := hserial.serial_eq
  rw [horder] at hfinal
  exact revokedIn_of_append hop hpairs hfinal

/-- One writer revokes the known phone while the daemon pairs another one. -/
def revokeAndPersist : Bool → BondOp
  | false => .revoke KnownAnswer.peerId "phone-lost"
  | true => .persist
      ⟨KnownAnswer.otherPeerId, KnownAnswer.otherPubkey, pairDefaultBondName, 1, .bonded⟩

def bondedFile : BondFileRead :=
  .parsed ⟨1, [⟨KnownAnswer.peerId, KnownAnswer.pubkey, "pixel", 0, .bonded⟩]⟩

theorem writers_serializable_in_turn :
    ∃ final, (writers KnownAnswer.primitives revokeAndPersist bondedFile).run
        ⟨bondedFile, fun _ => .idle⟩ [.load false false true, .write false false true,
          .load true false true, .write true false true] = some final ∧
      ∃ order : List Bool, order.Nodup ∧ (∀ i, i ∈ order ↔ (final.clients i).Applied) ∧
        oneAfterAnother KnownAnswer.primitives revokeAndPersist order bondedFile =
          some final.value ∧
        ∀ before i after id reason, order = before ++ i :: after →
          revokeAndPersist i = .revoke id reason →
          (∀ j ∈ after, (revokeAndPersist j).pairs ≠ some id) → RevokedIn final.value id := by
  have hsome : ((writers KnownAnswer.primitives revokeAndPersist bondedFile).run
      ⟨bondedFile, fun _ => .idle⟩ [.load false false true, .write false false true,
        .load true false true, .write true false true]).isSome := by
    decide
  obtain ⟨final, hrun⟩ := Option.isSome_iff_exists.mp hsome
  exact ⟨final, hrun, writers_serializable KnownAnswer.primitives revokeAndPersist bondedFile rfl
    (by decide) hrun⟩

/-- The daemon loads before the revocation is saved and saves after it. -/
theorem revocation_overwritten :
    ¬ ∀ (prim : Primitives) (ops : Bool → BondOp) (file : BondFileRead)
        (initial final : ReadModifyWrite.State BondFileRead Bool)
        (events : List (ReadModifyWrite.Event Bool)),
        (writers prim ops file).start initial →
        (writers prim ops file).run initial events = some final →
        (∀ i, final.clients i = .applied true) →
        ∃ order : List Bool, order.Nodup ∧ (∀ i, i ∈ order) ∧
          oneAfterAnother prim ops order file = some final.value := by
  intro hclaim
  let events : List (ReadModifyWrite.Event Bool) := [.load true false true, .load false false true,
    .write false false true, .write true false true]
  have hend : ((writers KnownAnswer.primitives revokeAndPersist bondedFile).run
      ⟨bondedFile, fun _ => .idle⟩ events).map (fun final =>
        (final.clients false, final.clients true, final.value)) =
      some (.applied true, .applied true, .parsed ⟨1,
        [⟨KnownAnswer.peerId, KnownAnswer.pubkey, "pixel", 0, .bonded⟩,
          ⟨KnownAnswer.otherPeerId, KnownAnswer.otherPubkey, pairDefaultBondName, 1,
            .bonded⟩]⟩) := by
    decide
  obtain ⟨final, hrun, hfinal⟩ := Option.map_eq_some_iff.mp hend
  simp only [Prod.mk.injEq] at hfinal
  obtain ⟨hrevoker, hpersister, hvalue⟩ := hfinal
  obtain ⟨order, -, hmem, hserial⟩ := hclaim _ _ _ _ final events rfl hrun (by
    rintro (_ | _)
    · exact hrevoker
    · exact hpersister)
  obtain ⟨before, after, rfl⟩ := List.append_of_mem (hmem false)
  have hrevoked : RevokedIn final.value KnownAnswer.peerId := by
    have hop : revokeAndPersist false = .revoke KnownAnswer.peerId "phone-lost" := rfl
    refine revokedIn_of_append hop ?_ hserial
    rintro (_ | _) -
    · decide
    · decide
  rw [hvalue] at hrevoked
  obtain ⟨file, hread, bond, hfirst, hbond⟩ := hrevoked
  cases hread
  cases hfirst
  exact absurd hbond (by decide)

end Syauth.Cli
