import Syauth.Core.Bond
import Syauth.Transition.System
import Mathlib.Data.List.Nodup

/-! # What a bond store keeps

The operations of `BondStore` look up the first record of an identifier.  That is the
only one as long as the identifiers are distinct: `add` refuses a second record, while
`load` takes over whatever the file holds.
-/

namespace Syauth

open Transition

/-- The records written in a file, none when there is no readable one. -/
def BondFileRead.records : BondFileRead → List Bond
  | .parsed file => file.bonds
  | .notFound | .ioError | .parseError => []

/-- One call on a loaded store. -/
inductive StoreOp where
  | add (bond : Bond)
  | remove (peerId : String)
  | markRevoked (peerId reason : String)

namespace BondStore

variable {store next : BondStore} {peerId reason : String} {bond : Bond}

/-- A call with its result and the store it leaves. -/
def perform (store : BondStore) (op : StoreOp) : Except BondError Unit × BondStore :=
  match op with
  | .add bond => settle (store.add bond)
  | .remove peerId => settle (store.remove peerId)
  | .markRevoked peerId reason => settle (store.markRevoked peerId reason)
where
  settle : Except BondError BondStore → Except BondError Unit × BondStore
    | .ok changed => (.ok (), changed)
    | .error err => (.error err, store)

/-- A loaded store under calls that add records with derived identifiers only, as every
caller builds them. -/
def calls (prim : Primitives) : System BondStore StoreOp where
  start store := ∃ read, load prim read = .ok store
  step store op :=
    match op with
    | .add bond =>
        if bond.peerId = peerIdFromPubkey prim bond.pubkey then some (store.perform op).2 else none
    | .remove _ | .markRevoked _ _ => some (store.perform op).2

/-! ## What each call does -/

theorem findIndex_eq_some {i : Nat} (hindex : store.findIndex peerId = some i) :
    ∃ before bond after, store.bonds = before ++ bond :: after ∧ before.length = i ∧
      bond.peerId = peerId ∧ ∀ other ∈ before, other.peerId ≠ peerId := by
  obtain ⟨hi, hfound, hearlier⟩ := List.findIdx?_eq_some_iff_getElem.mp hindex
  refine ⟨store.bonds.take i, store.bonds[i], store.bonds.drop (i + 1), ?_, ?_, ?_, ?_⟩
  · rw [← List.drop_eq_getElem_cons hi, List.take_append_drop]
  · exact List.length_take_of_le (Nat.le_of_lt hi)
  · exact of_decide_eq_true hfound
  · intro other hother
    obtain ⟨j, hj, rfl⟩ := List.getElem_of_mem hother
    rw [List.length_take, Nat.lt_min] at hj
    rw [List.getElem_take]
    simpa using hearlier j hj.1

theorem findIndex_eq_none (hindex : store.findIndex peerId = none) :
    peerId ∉ store.bonds.map Bond.peerId := by
  intro hmem
  obtain ⟨bond, hbond, rfl⟩ := List.mem_map.mp hmem
  simpa using List.findIdx?_eq_none_iff.mp hindex bond hbond

theorem add_eq_ok (hadd : store.add bond = .ok next) :
    bond.peerId ∉ store.bonds.map Bond.peerId ∧ next.bonds = store.bonds ++ [bond] := by
  unfold add at hadd
  split at hadd
  · cases hadd
  · next hnone =>
      cases hadd
      exact ⟨findIndex_eq_none (Option.not_isSome_iff_eq_none.mp hnone), rfl⟩

theorem add_eq_error {err : BondError} (hadd : store.add bond = .error err) :
    err = .alreadyBonded bond.peerId := by
  unfold add at hadd
  split at hadd
  · cases hadd
    rfl
  · cases hadd

/-- The status of the record that is there does not count. -/
theorem add_of_mem (hmem : bond.peerId ∈ store.bonds.map Bond.peerId) :
    store.add bond = .error (.alreadyBonded bond.peerId) := by
  cases hadd : store.add bond with
  | ok next => exact absurd hmem (add_eq_ok hadd).1
  | error err => rw [add_eq_error hadd]

theorem remove_eq_ok (hremove : store.remove peerId = .ok next) :
    ∃ before bond after, store.bonds = before ++ bond :: after ∧ bond.peerId = peerId ∧
      next.bonds = before ++ after := by
  unfold remove at hremove
  split at hremove
  · next i hindex =>
      cases hremove
      obtain ⟨before, bond, after, hbonds, rfl, hpeer, -⟩ := findIndex_eq_some hindex
      refine ⟨before, bond, after, hbonds, hpeer, ?_⟩
      rw [hbonds, List.eraseIdx_append_of_length_le (Nat.le_refl _), Nat.sub_self]
      rfl
  · cases hremove

theorem markRevoked_eq_ok (hmark : store.markRevoked peerId reason = .ok next) :
    ∃ before bond after, store.bonds = before ++ bond :: after ∧ bond.peerId = peerId ∧
      next.bonds = before ++ revokeBond reason bond :: after := by
  unfold markRevoked at hmark
  split at hmark
  · next i hindex =>
      cases hmark
      obtain ⟨before, bond, after, hbonds, rfl, hpeer, -⟩ := findIndex_eq_some hindex
      refine ⟨before, bond, after, hbonds, hpeer, ?_⟩
      have hi : before.length < store.bonds.length := by simp [hbonds]
      rw [List.modify_eq_take_cons_drop hi]
      simp [hbonds]
  · cases hmark

/-- The cases of a call. -/
inductive Effect (store : BondStore) : StoreOp → BondStore → Prop where
  | refused (op : StoreOp) : Effect store op store
  | added {bond : Bond} {next : BondStore} (hnew : bond.peerId ∉ store.bonds.map Bond.peerId)
      (hnext : next.bonds = store.bonds ++ [bond]) : Effect store (.add bond) next
  | removed {peerId : String} {before after : List Bond} {bond : Bond} {next : BondStore}
      (hbonds : store.bonds = before ++ bond :: after) (hnext : next.bonds = before ++ after) :
      Effect store (.remove peerId) next
  | revoked {peerId reason : String} {before after : List Bond} {bond : Bond} {next : BondStore}
      (hbonds : store.bonds = before ++ bond :: after)
      (hnext : next.bonds = before ++ revokeBond reason bond :: after) :
      Effect store (.markRevoked peerId reason) next

theorem settle_cases (store : BondStore) (result : Except BondError BondStore) :
    (∃ err, result = .error err ∧ perform.settle store result = (.error err, store)) ∨
      ∃ next, result = .ok next ∧ perform.settle store result = (.ok (), next) := by
  cases result with
  | error err => exact .inl ⟨err, rfl, rfl⟩
  | ok next => exact .inr ⟨next, rfl, rfl⟩

theorem effect_perform (store : BondStore) (op : StoreOp) :
    Effect store op (store.perform op).2 := by
  cases op with
  | add bond =>
      obtain ⟨err, -, hsettle⟩ | ⟨next, hadd, hsettle⟩ := store.settle_cases (store.add bond)
      · rw [perform, hsettle]
        exact .refused _
      · rw [perform, hsettle]
        obtain ⟨hnew, hnext⟩ := add_eq_ok hadd
        exact .added hnew hnext
  | remove peerId =>
      obtain ⟨err, -, hsettle⟩ | ⟨next, hremove, hsettle⟩ :=
        store.settle_cases (store.remove peerId)
      · rw [perform, hsettle]
        exact .refused _
      · rw [perform, hsettle]
        obtain ⟨before, bond, after, hbonds, -, hnext⟩ := remove_eq_ok hremove
        exact .removed hbonds hnext
  | markRevoked peerId reason =>
      obtain ⟨err, -, hsettle⟩ | ⟨next, hmark, hsettle⟩ :=
        store.settle_cases (store.markRevoked peerId reason)
      · rw [perform, hsettle]
        exact .refused _
      · rw [perform, hsettle]
        obtain ⟨before, bond, after, hbonds, -, hnext⟩ := markRevoked_eq_ok hmark
        exact .revoked hbonds hnext

theorem step_calls {prim : Primitives} {op : StoreOp}
    (hstep : (calls prim).step store op = some next) :
    Effect store op next ∧
      ∀ bond, op = .add bond → bond.peerId = peerIdFromPubkey prim bond.pubkey := by
  cases op with
  | add bond =>
      simp only [calls] at hstep
      split at hstep
      · next hderived =>
          cases hstep
          refine ⟨effect_perform store _, ?_⟩
          rintro other ⟨⟩
          exact hderived
      · cases hstep
  | remove | markRevoked =>
      cases hstep
      exact ⟨effect_perform store _, fun bond hadd => (nomatch hadd)⟩

/-! ## Distinct identifiers -/

theorem nodup_step {op : StoreOp} (hnodup : (store.bonds.map Bond.peerId).Nodup)
    (heffect : Effect store op next) : (next.bonds.map Bond.peerId).Nodup := by
  cases heffect with
  | refused => exact hnodup
  | added hnew hnext =>
      rw [hnext, List.map_append, List.map_singleton, List.nodup_append_comm]
      exact List.nodup_cons.mpr ⟨hnew, hnodup⟩
  | removed hbonds hnext =>
      rw [hbonds] at hnodup
      rw [hnext]
      refine hnodup.sublist (List.Sublist.map _ ?_)
      exact List.Sublist.append_left (List.sublist_cons_self _ _) _
  | revoked hbonds hnext =>
      rw [hbonds] at hnodup
      rw [hnext]
      simpa only [List.map_append, List.map_cons, peerId_revokeBond] using hnodup

/-! ## Records -/

/-- Where the records of a store come from. -/
theorem mem_of_effect {op : StoreOp} {record : Bond} (heffect : Effect store op next)
    (hrecord : record ∈ next.bonds) :
    record ∈ store.bonds ∨ op = .add record ∨
      ∃ bond ∈ store.bonds, ∃ reason, record = revokeBond reason bond := by
  cases heffect with
  | refused => exact .inl hrecord
  | added hnew hnext =>
      rw [hnext] at hrecord
      rcases List.mem_append.mp hrecord with hold | hlast
      · exact .inl hold
      · rw [List.mem_singleton.mp hlast]
        exact .inr (.inl rfl)
  | removed hbonds hnext =>
      rw [hnext] at hrecord
      rw [hbonds]
      rcases List.mem_append.mp hrecord with hold | hold
      · exact .inl (List.mem_append_left _ hold)
      · exact .inl (List.mem_append_right _ (List.mem_cons_of_mem _ hold))
  | revoked hbonds hnext =>
      rw [hnext] at hrecord
      rw [hbonds]
      rcases List.mem_append.mp hrecord with hold | hold
      · exact .inl (List.mem_append_left _ hold)
      · rcases List.mem_cons.mp hold with rfl | htail
        · exact .inr (.inr ⟨_, List.mem_append_right _ List.mem_cons_self, _, rfl⟩)
        · exact .inl (List.mem_append_right _ (List.mem_cons_of_mem _ htail))

/-- Every record has the identifier of its public key. -/
def Derived (prim : Primitives) (store : BondStore) : Prop :=
  ∀ bond ∈ store.bonds, bond.peerId = peerIdFromPubkey prim bond.pubkey

theorem pubkey_revokeBond (reason : String) (bond : Bond) :
    (revokeBond reason bond).pubkey = bond.pubkey := by
  unfold revokeBond
  split
  · rfl
  · rfl

theorem Derived.step {prim : Primitives} {op : StoreOp} (hderived : Derived prim store)
    (hstep : (calls prim).step store op = some next) : Derived prim next := by
  obtain ⟨heffect, hadd⟩ := step_calls hstep
  intro record hrecord
  obtain hold | rfl | ⟨bond, hbond, reason, rfl⟩ := mem_of_effect heffect hrecord
  · exact hderived record hold
  · exact hadd record rfl
  · rw [peerId_revokeBond, pubkey_revokeBond]
    exact hderived bond hbond

/-- No record of the identifier is active. -/
def Shut (peerId : String) (store : BondStore) : Prop :=
  ∀ bond ∈ store.bonds, bond.peerId = peerId → bond.isRevoked

theorem Shut.step {op : StoreOp} (hshut : Shut peerId store) (heffect : Effect store op next)
    (hadd : ∀ bond, op = .add bond → bond.peerId ≠ peerId) : Shut peerId next := by
  intro record hrecord hpeer
  obtain hold | rfl | ⟨bond, hbond, reason, rfl⟩ := mem_of_effect heffect hrecord
  · exact hshut record hold hpeer
  · exact absurd hpeer (hadd record rfl)
  · exact isRevoked_revokeBond reason bond

/-- In a store with distinct identifiers the record that is marked is the only one. -/
theorem shut_of_markRevoked (hnodup : (store.bonds.map Bond.peerId).Nodup)
    (hmark : store.markRevoked peerId reason = .ok next) : Shut peerId next := by
  obtain ⟨before, bond, after, hbonds, rfl, hnext⟩ := markRevoked_eq_ok hmark
  rw [hbonds, List.map_append, List.map_cons, List.nodup_middle, List.nodup_cons] at hnodup
  intro record hrecord hpeer
  rw [hnext] at hrecord
  have hother : ∀ other ∈ before ++ after, other.peerId ≠ bond.peerId := by
    intro other hother heq
    apply hnodup.1
    rw [← List.map_append, ← heq]
    exact List.mem_map_of_mem hother
  rcases List.mem_append.mp hrecord with hold | hold
  · exact absurd hpeer (hother record (List.mem_append_left _ hold))
  · rcases List.mem_cons.mp hold with rfl | htail
    · exact isRevoked_revokeBond reason bond
    · exact absurd hpeer (hother record (List.mem_append_right _ htail))

/-- Marking a revoked record again does not touch it. -/
theorem markRevoked_of_shut (hshut : Shut peerId store)
    (hmark : store.markRevoked peerId reason = .ok next) : next = store := by
  obtain ⟨before, bond, after, hbonds, hpeer, hnext⟩ := markRevoked_eq_ok hmark
  have hmem : bond ∈ store.bonds := by
    rw [hbonds]
    exact List.mem_append_right _ List.mem_cons_self
  have hsame : revokeBond reason bond = bond := if_pos (hshut bond hmem hpeer)
  obtain ⟨bonds⟩ := store
  obtain ⟨bonds'⟩ := next
  rw [hsame, ← hbonds] at hnext
  exact congrArg BondStore.mk hnext

/-! ## Runs -/

variable {prim : Primitives} {ops : List StoreOp} {final : BondStore}

theorem nodup_run (hnodup : (store.bonds.map Bond.peerId).Nodup)
    (hrun : (calls prim).run store ops = some final) : (final.bonds.map Bond.peerId).Nodup :=
  (calls prim).run_invariant (fun store => (store.bonds.map Bond.peerId).Nodup)
    (fun _ _ _ hnodup hstep => nodup_step hnodup (step_calls hstep).1) hnodup hrun

theorem derived_run (hderived : Derived prim store)
    (hrun : (calls prim).run store ops = some final) : Derived prim final :=
  (calls prim).run_invariant (Derived prim)
    (fun _ _ _ hderived hstep => hderived.step hstep) hderived hrun

theorem shut_run (hshut : Shut peerId store)
    (hadd : ∀ bond, .add bond ∈ ops → bond.peerId ≠ peerId)
    (hrun : (calls prim).run store ops = some final) : Shut peerId final := by
  refine (calls prim).run_invariant_of_allSteps
    (fun _ op => ∀ bond, op = .add bond → bond.peerId ≠ peerId) (Shut peerId)
    (fun _ _ _ hshut hguard hstep => hshut.step (step_calls hstep).1 hguard) hshut ?_ hrun
  apply (calls prim).allSteps_of_forall
  rintro op hop _ bond rfl
  exact hadd bond hop

/-- What is to hold of a store over every sequence of calls. -/
structure Lawful (prim : Primitives) (store : BondStore) : Prop where
  distinct : ∀ ops final, (calls prim).run store ops = some final →
    (final.bonds.map Bond.peerId).Nodup
  derived : ∀ ops final, (calls prim).run store ops = some final → Derived prim final
  revoked_kept : ∀ ops middle peerId reason revoked later final,
    (calls prim).run store ops = some middle → middle.markRevoked peerId reason = .ok revoked →
    (calls prim).run revoked later = some final →
    (∀ bond, .add bond ∈ later → bond.peerId ≠ peerId) →
    ∀ bond ∈ final.bonds, bond.peerId = peerId → bond.status ≠ .bonded
  first_reason : ∀ ops middle peerId first reason again,
    (calls prim).run store ops = some middle →
    (∃ bond ∈ middle.bonds, bond.peerId = peerId ∧ bond.status = .revoked first) →
    middle.markRevoked peerId reason = .ok again →
    ∀ bond ∈ again.bonds, bond.peerId = peerId → bond.status = .revoked first
  refused_unchanged : ∀ ops middle op err, (calls prim).run store ops = some middle →
    (middle.perform op).1 = .error err → (middle.perform op).2 = middle

theorem perform_error {op : StoreOp} {err : BondError}
    (herror : (store.perform op).1 = .error err) : (store.perform op).2 = store := by
  have hsettle : ∀ result : Except BondError BondStore,
      (perform.settle store result).1 = .error err → (perform.settle store result).2 = store := by
    intro result hfailed
    obtain ⟨_, -, hsettled⟩ | ⟨next, -, hsettled⟩ := store.settle_cases result
    · rw [hsettled]
    · rw [hsettled] at hfailed
      cases hfailed
  cases op with
  | add bond => exact hsettle _ herror
  | remove peerId => exact hsettle _ herror
  | markRevoked peerId reason => exact hsettle _ herror

theorem status_ne_bonded (hrevoked : bond.isRevoked) : bond.status ≠ .bonded := by
  intro hbonded
  rw [Bond.isRevoked, hbonded] at hrevoked
  cases hrevoked

/-- Records of one identifier are one record. -/
theorem eq_of_nodup (hnodup : (store.bonds.map Bond.peerId).Nodup) {record : Bond}
    (hbond : bond ∈ store.bonds) (hrecord : record ∈ store.bonds)
    (hpeer : record.peerId = bond.peerId) : record = bond :=
  List.inj_on_of_nodup_map hnodup hrecord hbond hpeer

theorem markRevoked_again (hnodup : (store.bonds.map Bond.peerId).Nodup) {first : String}
    (hbond : bond ∈ store.bonds) (hpeer : bond.peerId = peerId)
    (hstatus : bond.status = .revoked first)
    (hmark : store.markRevoked peerId reason = .ok next) :
    ∀ record ∈ next.bonds, record.peerId = peerId → record.status = .revoked first := by
  subst hpeer
  have honly : ∀ record ∈ store.bonds, record.peerId = bond.peerId → record = bond :=
    fun record hrecord => eq_of_nodup hnodup hbond hrecord
  have hshut : Shut bond.peerId store := by
    intro record hrecord hsame
    rw [honly record hrecord hsame, Bond.isRevoked, hstatus]
  rw [markRevoked_of_shut hshut hmark]
  intro record hrecord hsame
  rw [honly record hrecord hsame]
  exact hstatus

/-- What was saved is loaded, in the same order. -/
theorem load_saved {prim : Primitives} (hderived : Derived prim store) :
    load prim store.saved = .ok store := by
  have hnone : store.bonds.find? (fun bond => bond.peerId ≠ peerIdFromPubkey prim bond.pubkey) =
      none := by
    rw [List.find?_eq_none]
    intro bond hbond
    simpa using hderived bond hbond
  simp only [load, saved, hnone]
  rfl

theorem bonds_of_load {prim : Primitives} {read : BondFileRead}
    (hload : load prim read = .ok store) : store.bonds = read.records := by
  rcases load_cases hload with ⟨rfl, rfl⟩ | ⟨file, rfl, hbonds⟩
  · rfl
  · exact hbonds

/-- A loaded store keeps its laws exactly when the file has one record for each identifier. -/
theorem lawful_iff_distinct_records (prim : Primitives) (read : BondFileRead) (store : BondStore)
    (hload : load prim read = .ok store) :
    Lawful prim store ↔ (read.records.map Bond.peerId).Nodup := by
  rw [← bonds_of_load hload]
  constructor
  · intro hlawful
    exact hlawful.distinct [] store rfl
  · intro hnodup
    have hderived : Derived prim store := fun bond hbond => peerId_of_load hload hbond
    constructor
    · intro ops final hrun
      exact nodup_run hnodup hrun
    · intro ops final hrun
      exact derived_run hderived hrun
    · intro ops middle peerId reason revoked later final hrun hmark hlater hadd bond hbond hpeer
      have hshut := shut_of_markRevoked (nodup_run hnodup hrun) hmark
      exact status_ne_bonded (shut_run hshut hadd hlater bond hbond hpeer)
    · rintro ops middle peerId first reason again hrun ⟨bond, hbond, hpeer, hstatus⟩ hmark
      exact markRevoked_again (nodup_run hnodup hrun) hbond hpeer hstatus hmark
    · intro ops middle op err hrun herror
      exact perform_error herror

/-- A file with an active and a revoked record. -/
def twoPhones : BondFileRead :=
  .parsed ⟨1, [⟨KnownAnswer.peerId, KnownAnswer.pubkey, "Pixel 8", 0, .bonded⟩,
    ⟨KnownAnswer.otherPeerId, KnownAnswer.otherPubkey, "Tablet", 0, .revoked "lost"⟩]⟩

/-- One phone is revoked, and the record of the other one is replaced by a new one. -/
def replacedRecord : List StoreOp :=
  [.markRevoked KnownAnswer.peerId "stolen", .remove KnownAnswer.otherPeerId,
    .add ⟨KnownAnswer.otherPeerId, KnownAnswer.otherPubkey, "Tablet", 1, .bonded⟩]

theorem lawful_iff_distinct_records_twoPhones :
    ∃ store final, load KnownAnswer.primitives twoPhones = .ok store ∧
      Lawful KnownAnswer.primitives store ∧
      (calls KnownAnswer.primitives).run store replacedRecord = some final ∧
      final.bonds.map Bond.status = [.revoked "stolen", .bonded] ∧
      (final.bonds.map Bond.peerId).Nodup := by
  have hlawful := (lawful_iff_distinct_records KnownAnswer.primitives twoPhones _ rfl).mpr
    (by decide)
  exact ⟨_, _, rfl, hlawful, rfl, rfl, hlawful.distinct replacedRecord _ rfl⟩

/-- A file with two active records of one phone. -/
def twinRecords : BondFileRead :=
  .parsed ⟨1, [⟨KnownAnswer.peerId, KnownAnswer.pubkey, "Pixel 8", 0, .bonded⟩,
    ⟨KnownAnswer.peerId, KnownAnswer.pubkey, "Pixel 8", 1, .bonded⟩]⟩

/-- The file loads, its identifiers are not distinct, and revoking the phone leaves the
second record active. -/
theorem twinRecords_survive_revocation :
    ∃ store revoked, load KnownAnswer.primitives twinRecords = .ok store ∧
      ¬ (store.bonds.map Bond.peerId).Nodup ∧
      store.markRevoked KnownAnswer.peerId "phone lost" = .ok revoked ∧
      (∃ bond ∈ revoked.bonds, bond.peerId = KnownAnswer.peerId ∧ bond.status = .bonded) ∧
      ¬ Lawful KnownAnswer.primitives store := by
  refine ⟨_, _, rfl, by decide, rfl, ?_, ?_⟩
  · exact ⟨_, List.mem_cons_of_mem _ List.mem_cons_self, rfl, rfl⟩
  · intro hlawful
    exact absurd (hlawful.distinct [] _ rfl) (by decide)

end BondStore

end Syauth
