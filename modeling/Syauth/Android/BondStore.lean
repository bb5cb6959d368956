import Syauth.Core.Frame

/-! # The bond file of the phone

`BondStore.save` of `bond/BondStore.kt`.  The file holds one record; its text is left
out, and what the file system answers is an input.
-/

namespace Syauth.Android

/-- The bond the phone keeps on disk. -/
structure BondRecord where
  peerId : String
  hostName : String
  bondKey : Bytes
  keystoreAlias : String
  phonePubkey : Bytes
  deriving DecidableEq

def bondRecordFileName : String := "syauth-bond.toml"

/-- The operations of a save that fail. -/
structure SaveFaults where
  dirFailed : Bool
  writeFault : Option String
  deleteFailed : Bool
  renameFailed : Bool
  deriving DecidableEq

/-- The old file is deleted before the new one is renamed into its place. -/
def BondStore.save (storageDir : String) (disk : Option BondRecord) (record : BondRecord)
    (faults : SaveFaults) : Except String Unit × Option BondRecord :=
  let target := storageDir ++ "/" ++ bondRecordFileName
  if faults.dirFailed then (.error ("could not create bond storage dir: " ++ storageDir), disk)
  else
    match faults.writeFault with
    | some message => (.error message, disk)
    | none =>
        if disk.isSome && faults.deleteFailed then
          (.error ("could not replace existing bond record: " ++ target), disk)
        else if faults.renameFailed then
          (.error ("could not rename bond tmpfile into place: " ++ target), none)
        else (.ok (), some record)

/-- The save fails while the old file is still in place. -/
def SaveFaults.stopsEarly (faults : SaveFaults) (disk : Option BondRecord) : Bool :=
  faults.dirFailed || faults.writeFault.isSome || (disk.isSome && faults.deleteFailed)

theorem BondStore.save_of_stopsEarly (storageDir : String) {disk : Option BondRecord}
    (record : BondRecord) {faults : SaveFaults} (hearly : faults.stopsEarly disk = true) :
    ∃ message, BondStore.save storageDir disk record faults = (.error message, disk) := by
  simp only [BondStore.save]
  split
  · exact ⟨_, rfl⟩
  · split
    · exact ⟨_, rfl⟩
    · split
      · exact ⟨_, rfl⟩
      · next hdir _ hwrite hdelete => simp [SaveFaults.stopsEarly, hdir, hwrite, hdelete] at hearly

theorem BondStore.save_of_renamed (storageDir : String) {disk : Option BondRecord}
    (record : BondRecord) {faults : SaveFaults} (hearly : faults.stopsEarly disk = false)
    (hrename : faults.renameFailed = false) :
    BondStore.save storageDir disk record faults = (.ok (), some record) := by
  simp only [SaveFaults.stopsEarly, Bool.or_eq_false_iff, Option.isSome_eq_false_iff,
    Option.isNone_iff_eq_none] at hearly
  obtain ⟨⟨hdir, hwrite⟩, hdelete⟩ := hearly
  simp only [BondStore.save, hdir, hwrite, hdelete, hrename, Bool.false_eq_true, if_false]

end Syauth.Android
