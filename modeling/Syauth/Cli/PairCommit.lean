import Syauth.Cli.Commands
import Syauth.Presenced.PairConsumer

/-! # Record and key file of a pairing

The commit of `run_pair_with_io` of `crates/syauth-cli/src/pair.rs` saves the record
and then writes the key file; the daemon's `pair_event_consumer` writes the key file
and then saves the record.  Neither takes its first write back when the second fails.
-/

namespace Syauth.Cli

open Presenced

/-- How `write_pam_bond_key` ends.  `fs::write` truncates first, and a failing `chmod`
comes after the content is written. -/
inductive PamKeyOutcome where
  | written
  | dirFailed
  | writeFailed (left : Except String Bytes)
  | modeFailed

/-- One commit with what happens while it runs: the two lines on the terminal, the file
operations, and whether `--force` was given. -/
structure PairCommit where
  peerPubkey : Pubkey
  bondKey : BondKey
  name : String
  now : Int
  force : Bool
  readFault : Bool
  replacedLine : Bool
  saveOutcome : Except BondError Unit
  keyWrite : PamKeyOutcome
  bondedLine : Bool

/-- `build_bond`: the record of the chosen peer. -/
def PairCommit.bond (prim : Primitives) (run : PairCommit) : Bond where
  peerId := peerIdFromPubkey prim run.peerPubkey
  pubkey := run.peerPubkey
  name := run.name
  createdAt := run.now
  status := .bonded

def writePamBondKey (keysDir : KeysDir) (peerId : String) (bondKey : BondKey)
    (outcome : PamKeyOutcome) : Except PairError Unit × KeysDir :=
  let path := peerId ++ bondKeyFileExt
  match outcome with
  | .written => (.ok (), Function.update keysDir path (.ok bondKey.val))
  | .dirFailed => (.error .io, keysDir)
  | .writeFailed left => (.error .io, Function.update keysDir path left)
  | .modeFailed => (.error .io, Function.update keysDir path (.ok bondKey.val))

/-- The last phase of `run_pair_with_io`, from the load of the store on. -/
def commitPair (prim : Primitives) (disk : PairDisk) (run : PairCommit) :
    Except PairError Unit × PairDisk :=
  let bond := run.bond prim
  match BondStore.load prim (if run.readFault then .ioError else disk.bonds) with
  | .error err => (.error (.bond err), disk)
  | .ok store =>
      match addPaired store bond run.force with
      | .error err => (.error err, disk)
      | .ok added =>
          -- The line about the replaced record is written before the save.
          if (store.findIndex bond.peerId).isSome && !run.replacedLine then (.error .io, disk)
          else
            match added.save run.saveOutcome disk.bonds with
            | (.error err, bonds) => (.error (.bond err), { disk with bonds := bonds })
            | (.ok (), bonds) =>
                match writePamBondKey disk.keys bond.peerId run.bondKey run.keyWrite with
                | (.error err, keys) => (.error err, ⟨bonds, keys⟩)
                | (.ok (), keys) =>
                    if run.bondedLine then (.ok (), ⟨bonds, keys⟩) else (.error .io, ⟨bonds, keys⟩)

/-! ## Both paths -/

/-- A pairing of the daemon or of the command line. -/
inductive PairPath where
  | daemon (event : PairEvent)
  | cli (run : PairCommit)

/-- The record and the key are both on disk; the reload signal comes after them. -/
def completed : PairOutcome → Bool
  | .reloadRequested | .reloadSignalFailed => true
  | .keyWriteFailed | .recordWriteFailed _ => false

/-- What a key write leaves in the file, if it gets that far. -/
def keyLeft (bondKey : BondKey) : KeyWriteOutcome → Option (Except String Bytes)
  | .written => some (.ok bondKey.val)
  | .dirFailed => none
  | .writeFailed left => some left

def pamKeyLeft (bondKey : BondKey) : PamKeyOutcome → Option (Except String Bytes)
  | .written | .modeFailed => some (.ok bondKey.val)
  | .dirFailed => none
  | .writeFailed left => some left

/-- The commit gets as far as saving a store. -/
def Saves (prim : Primitives) (disk : PairDisk) (run : PairCommit) (added : BondStore) : Prop :=
  run.readFault = false ∧ run.saveOutcome = .ok () ∧
    ∃ store, BondStore.load prim disk.bonds = .ok store ∧
      addPaired store (run.bond prim) run.force = .ok added ∧
      ((store.findIndex (run.bond prim).peerId).isSome = true → run.replacedLine = true)

/-- The commit ends well once the store is saved. -/
def PairCommit.Ends (run : PairCommit) : Prop :=
  run.keyWrite matches .written ∧ run.bondedLine = true

namespace PairPath

variable (prim : Primitives)

/-- Whether the pairing completes, and the disk after it. -/
def run (disk : PairDisk) : PairPath → Bool × PairDisk
  | .daemon event =>
      let result := consumePairEvent prim disk event
      (completed result.1, result.2)
  | .cli run =>
      match commitPair prim disk run with
      | (.ok (), disk) => (true, disk)
      | (.error _, disk) => (false, disk)

def peerId : PairPath → String
  | .daemon event => event.peerId prim
  | .cli run => (run.bond prim).peerId

def bondKey : PairPath → BondKey
  | .daemon event => event.bondKey prim
  | .cli run => run.bondKey

def keyFile (path : PairPath) : String := path.peerId prim ++ bondKeyFileExt

/-- A pairing that does not complete changes neither file, and one that does leaves a
`Bonded` record with its own key. -/
structure LeavesAgreement (disk : PairDisk) (path : PairPath) : Prop where
  unchanged : (path.run prim disk).1 = false →
    (path.run prim disk).2.bonds = disk.bonds ∧
      (path.run prim disk).2.keys (path.keyFile prim) = disk.keys (path.keyFile prim)
  agrees : (path.run prim disk).1 = true →
    HasBonded (path.run prim disk).2.bonds (path.peerId prim) ∧
      (path.run prim disk).2.keys (path.keyFile prim) = .ok (path.bondKey prim).val

/-- The first write happens, the second does not, and the first one changed something. -/
def Spoils (disk : PairDisk) (path : PairPath) : Prop :=
  match path with
  | .daemon event =>
      ¬ Persists prim disk event ∧
        ∃ content, keyLeft (event.bondKey prim) event.keyWrite = some content ∧
          disk.keys (path.keyFile prim) ≠ content
  | .cli run =>
      ∃ added, Saves prim disk run added ∧ ¬ run.Ends ∧
        (disk.bonds ≠ added.saved ∨
          ∃ content, pamKeyLeft run.bondKey run.keyWrite = some content ∧
            disk.keys (path.keyFile prim) ≠ content)

end PairPath

/-- A key file is kept when the write leaves in it what was there. -/
theorem keyLeft_getD_eq_iff {left : Option (Except String Bytes)} {old : Except String Bytes} :
    left.getD old = old ↔ ¬ ∃ content, left = some content ∧ old ≠ content := by
  cases left with
  | none => simp
  | some content => simp [eq_comm]

/-! ## The daemon -/

section Daemon

variable {prim : Primitives} {disk : PairDisk} {event : PairEvent}

theorem consumePairEvent_keys :
    (consumePairEvent prim disk event).2.keys =
      (persistPairBondKey disk.keys (event.peerId prim) (event.bondKey prim)
        event.keyWrite).2 := by
  unfold consumePairEvent
  split
  · next hkey => rw [hkey]
  · next hkey =>
      rw [hkey]
      split <;> rfl

theorem persistPairBondKey_apply {keysDir : KeysDir} {peerId : String} {key : BondKey}
    {outcome : KeyWriteOutcome} :
    (persistPairBondKey keysDir peerId key outcome).2 (peerId ++ bondKeyFileExt) =
      (keyLeft key outcome).getD (keysDir (peerId ++ bondKeyFileExt)) := by
  cases outcome with
  | dirFailed => rfl
  | written => exact Function.update_self _ _ _
  | writeFailed left => exact Function.update_self _ _ _

theorem completed_consumePairEvent :
    completed (consumePairEvent prim disk event).1 = true ↔ Persists prim disk event := by
  constructor
  · intro hcompleted
    by_contra hpersists
    unfold consumePairEvent at hcompleted
    cases hkey : event.keyWrite with
    | dirFailed => simp [hkey, persistPairBondKey, completed] at hcompleted
    | writeFailed left => simp [hkey, persistPairBondKey, completed] at hcompleted
    | written =>
        obtain ⟨err, herr⟩ := persistPairBondRecord_of_not_writable prim (event.bond prim)
          fun store hwritable => hpersists ⟨by rw [hkey], store, hwritable⟩
        simp [hkey, persistPairBondKey, herr, completed] at hcompleted
  · rintro ⟨hkey, store, hwritable⟩
    have hrecord := persistPairBondRecord_of_writable prim (event.bond prim) hwritable
    unfold consumePairEvent
    cases hwrite : event.keyWrite with
    | dirFailed => rw [hwrite] at hkey; cases hkey
    | writeFailed left => rw [hwrite] at hkey; cases hkey
    | written =>
        simp only [persistPairBondKey, hrecord]
        cases event.reloadSent <;> rfl

theorem daemon_leavesAgreement_iff :
    (PairPath.daemon event).LeavesAgreement prim disk ↔
      ¬ (PairPath.daemon event).Spoils prim disk := by
  have hkeys : (consumePairEvent prim disk event).2.keys (event.peerId prim ++ bondKeyFileExt) =
      (keyLeft (event.bondKey prim) event.keyWrite).getD
        (disk.keys (event.peerId prim ++ bondKeyFileExt)) := by
    rw [consumePairEvent_keys, persistPairBondKey_apply]
  constructor
  · rintro hagreement ⟨hpersists, hchanged⟩
    have hfailed : completed (consumePairEvent prim disk event).1 = false := by
      rw [← Bool.not_eq_true, completed_consumePairEvent]
      exact hpersists
    have hsame := (hagreement.unchanged hfailed).2
    exact keyLeft_getD_eq_iff.mp (hkeys.symm.trans hsame) hchanged
  · intro hspoils
    constructor
    · intro hfailed
      have hpersists : ¬ Persists prim disk event := by
        rw [← completed_consumePairEvent, Bool.not_eq_true]
        exact hfailed
      refine ⟨consumePairEvent_of_not_persists prim hpersists, hkeys.trans ?_⟩
      exact keyLeft_getD_eq_iff.mpr fun hchanged => hspoils ⟨hpersists, hchanged⟩
    · intro hcompleted
      have hpersists := completed_consumePairEvent.mp hcompleted
      refine ⟨(hasBonded_consumePairEvent prim disk event _).mpr (.inr ⟨rfl, hpersists⟩), ?_⟩
      change (consumePairEvent prim disk event).2.keys _ = _
      rw [consumePairEvent_keys_of_written prim hpersists.1]
      exact Function.update_self _ _ _

end Daemon

/-! ## The command line -/

section CommandLine

variable {prim : Primitives} {disk : PairDisk} {run : PairCommit} {added : BondStore}

theorem writePamBondKey_apply {keysDir : KeysDir} {peerId : String} {key : BondKey}
    {outcome : PamKeyOutcome} :
    (writePamBondKey keysDir peerId key outcome).2 (peerId ++ bondKeyFileExt) =
      (pamKeyLeft key outcome).getD (keysDir (peerId ++ bondKeyFileExt)) := by
  cases outcome with
  | dirFailed => rfl
  | written | modeFailed => exact Function.update_self _ _ _
  | writeFailed left => exact Function.update_self _ _ _

theorem commitPair_of_saves (hsaves : Saves prim disk run added) :
    (commitPair prim disk run).2 =
        ⟨added.saved,
          (writePamBondKey disk.keys (run.bond prim).peerId run.bondKey run.keyWrite).2⟩ ∧
      ((commitPair prim disk run).1 = .ok () ↔ run.Ends) := by
  obtain ⟨hread, hsave, store, hload, hadded, hline⟩ := hsaves
  have hshown : ((store.findIndex (run.bond prim).peerId).isSome && !run.replacedLine) = false := by
    cases hfound : (store.findIndex (run.bond prim).peerId).isSome with
    | false => rfl
    | true =>
        rw [hline hfound]
        rfl
  unfold commitPair PairCommit.Ends
  simp only [hread, Bool.false_eq_true, if_false, hload, hadded, hshown, hsave, BondStore.save]
  cases run.keyWrite with
  | written => cases run.bondedLine <;> simp [writePamBondKey]
  | _ => simp [writePamBondKey]

theorem commitPair_of_not_saves (hsaves : ∀ added, ¬ Saves prim disk run added) :
    ∃ err, commitPair prim disk run = (.error err, disk) := by
  unfold commitPair
  cases hread : run.readFault with
  | true => exact ⟨.bond .io, rfl⟩
  | false =>
      simp only [Bool.false_eq_true, if_false]
      cases hload : BondStore.load prim disk.bonds with
      | error err => exact ⟨.bond err, rfl⟩
      | ok store =>
          simp only
          cases hadded : addPaired store (run.bond prim) run.force with
          | error err => exact ⟨err, rfl⟩
          | ok added =>
              simp only
              split
              · exact ⟨.io, rfl⟩
              · next hshown =>
                  cases hsave : run.saveOutcome with
                  | error err => exact ⟨.bond err, rfl⟩
                  | ok done =>
                      refine absurd ⟨hread, hsave, store, hload, hadded, ?_⟩ (hsaves added)
                      intro hfound
                      simpa [hfound] using hshown

theorem cli_run_of_saves (hsaves : Saves prim disk run added) :
    ((PairPath.cli run).run prim disk).2 =
        ⟨added.saved,
          (writePamBondKey disk.keys (run.bond prim).peerId run.bondKey run.keyWrite).2⟩ ∧
      (((PairPath.cli run).run prim disk).1 = true ↔ run.Ends) := by
  have hcommit := commitPair_of_saves hsaves
  simp only [PairPath.run]
  cases hresult : commitPair prim disk run with
  | mk result after =>
      rw [hresult] at hcommit
      refine ⟨?_, ?_⟩
      · cases result <;> exact hcommit.1
      · rw [← hcommit.2]
        cases result <;> simp

theorem cli_keys_of_saves (hsaves : Saves prim disk run added) :
    ((PairPath.cli run).run prim disk).2.keys ((PairPath.cli run).keyFile prim) =
      (pamKeyLeft run.bondKey run.keyWrite).getD
        (disk.keys ((PairPath.cli run).keyFile prim)) := by
  rw [(cli_run_of_saves hsaves).1]
  exact writePamBondKey_apply

theorem not_cli_leavesAgreement (hspoils : (PairPath.cli run).Spoils prim disk) :
    ¬ (PairPath.cli run).LeavesAgreement prim disk := by
  obtain ⟨added, hsaves, hnot, hchanged⟩ := hspoils
  obtain ⟨hafter, hends⟩ := cli_run_of_saves hsaves
  intro hagreement
  obtain ⟨hbonds, hkeys⟩ := hagreement.unchanged (eq_false_of_ne_true fun h => hnot (hends.mp h))
  rcases hchanged with hne | hkeyChanged
  · apply hne
    rw [← hbonds, hafter]
  · exact keyLeft_getD_eq_iff.mp ((cli_keys_of_saves hsaves).symm.trans hkeys) hkeyChanged

theorem cli_leavesAgreement_of_saves (hsaves : Saves prim disk run added)
    (hspoils : ¬ (PairPath.cli run).Spoils prim disk) :
    (PairPath.cli run).LeavesAgreement prim disk := by
  obtain ⟨hafter, hends⟩ := cli_run_of_saves hsaves
  constructor
  · intro hfailed
    have hnot : ¬ run.Ends := fun h => Bool.false_ne_true (hfailed.symm.trans (hends.mpr h))
    constructor
    · by_contra hne
      refine hspoils ⟨added, hsaves, hnot, .inl fun heq => hne ?_⟩
      rw [hafter, heq]
    · rw [cli_keys_of_saves hsaves]
      exact keyLeft_getD_eq_iff.mpr fun hchanged =>
        hspoils ⟨added, hsaves, hnot, .inr hchanged⟩
  · intro hcompleted
    obtain ⟨hwritten, -⟩ := hends.mp hcompleted
    have hkeys := cli_keys_of_saves hsaves
    obtain ⟨-, -, store, -, hadded, -⟩ := hsaves
    refine ⟨?_, hkeys.trans ?_⟩
    · rw [hafter]
      exact (hasBonded_saved).mpr ⟨run.bond prim, (recorded_of_addPaired hadded).mem, rfl, rfl⟩
    · cases hkey : run.keyWrite with
      | written => rfl
      | _ => rw [hkey] at hwritten; cases hwritten

theorem cli_leavesAgreement_of_not_saves (hsaves : ∀ added, ¬ Saves prim disk run added) :
    (PairPath.cli run).LeavesAgreement prim disk := by
  obtain ⟨err, hcommit⟩ := commitPair_of_not_saves hsaves
  have hrun : (PairPath.cli run).run prim disk = (false, disk) := by
    simp only [PairPath.run, hcommit]
  constructor
  · intro _
    rw [hrun]
    exact ⟨rfl, rfl⟩
  · intro hcompleted
    rw [hrun] at hcompleted
    cases hcompleted

theorem cli_leavesAgreement_iff :
    (PairPath.cli run).LeavesAgreement prim disk ↔ ¬ (PairPath.cli run).Spoils prim disk := by
  constructor
  · intro hagreement hspoils
    exact not_cli_leavesAgreement hspoils hagreement
  · intro hspoils
    by_cases hsaves : ∃ added, Saves prim disk run added
    · obtain ⟨added, hsaved⟩ := hsaves
      exact cli_leavesAgreement_of_saves hsaved hspoils
    · exact cli_leavesAgreement_of_not_saves (not_exists.mp hsaves)

end CommandLine

/-- On both paths, for every disk and every failure, record and key file stay in
agreement exactly when the pairing is not cut off between its two writes. -/
theorem pair_leavesAgreement_iff (prim : Primitives) (disk : PairDisk) (path : PairPath) :
    path.LeavesAgreement prim disk ↔ ¬ path.Spoils prim disk := by
  cases path with
  | daemon event => exact daemon_leavesAgreement_iff
  | cli run => exact cli_leavesAgreement_iff

/-! ## Two pairings that are cut off -/

/-- The phone is bonded under the key of an earlier pairing. -/
def bondedDisk : PairDisk where
  bonds := .parsed ⟨1, [⟨KnownAnswer.peerId, KnownAnswer.pubkey, "Pixel 8", 0, .bonded⟩]⟩
  keys := fun _ => .ok KnownAnswer.bondKey.val

/-- A second pairing with another host key, whose save fails. -/
def unsavedEvent : PairEvent where
  hostPubkey := KnownAnswer.otherPubkey
  phonePubkey := KnownAnswer.pubkey
  now := 1
  keyWrite := .written
  readFault := false
  saveOutcome := .error .io
  reloadSent := true

def emptyDisk : PairDisk := ⟨.notFound, fun _ => .error "not found"⟩

/-- A first pairing whose keys directory cannot be made. -/
def keylessCommit : PairCommit where
  peerPubkey := KnownAnswer.pubkey
  bondKey := KnownAnswer.bondKey
  name := "Pixel 8"
  now := 1
  force := false
  readFault := false
  replacedLine := true
  saveOutcome := .ok ()
  keyWrite := .dirFailed
  bondedLine := true

/-- The daemon leaves the old record with the new key, the command line leaves a record
without a key. -/
theorem cut_off_pairings_disagree :
    ¬ (PairPath.daemon unsavedEvent).LeavesAgreement KnownAnswer.primitives bondedDisk ∧
      ¬ (PairPath.cli keylessCommit).LeavesAgreement KnownAnswer.primitives emptyDisk := by
  constructor
  · rintro ⟨hunchanged, -⟩
    exact absurd (hunchanged (by decide)).2 (by decide)
  · rintro ⟨hunchanged, -⟩
    exact absurd (hunchanged (by decide)).1 (by decide)

end Syauth.Cli
