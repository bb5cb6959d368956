import Syauth.Android.BondStore
import Syauth.Android.BondText
import Syauth.Text.FileLines
import Syauth.Transition.System

/-! # Saving the phone's bond file

`BondStore.save` and `load` of `bond/BondStore.kt`, call by call.  What each call answers is an
event, and a crash ends the events at any place.
-/

namespace Syauth.Android

open Text

/-- The storage directory: the bond file and the temporary one. -/
structure BondFiles where
  dir : Bool
  target : Option (List CodeUnit)
  tmp : Option (List CodeUnit)
  deriving DecidableEq

namespace BondFiles

def load (files : BondFiles) : Except BondParseError (Option StoredBond) :=
  match files.target with
  | none => .ok none
  | some text => (parseBondRecord text).map some

end BondFiles

inductive SavePhase where
  | start
  | dirReady
  | written
  | cleared
  /-- The temporary file is deleted before the exception is thrown. -/
  | failing (message : String)
  | returned
  | thrown (message : String)
  deriving DecidableEq

inductive SaveEvent where
  | dirExists
  | mkdirs (made : Bool)
  | wrote
  /-- The write throws and leaves any part of the text, or no file. -/
  | writeFailed (message : String) (left : Option (List CodeUnit))
  | targetMissing
  | delete (deleted : Bool)
  | rename (renamed : Bool)
  | cleanup (deleted : Bool)
  deriving DecidableEq

structure SaveState where
  files : BondFiles
  phase : SavePhase
  deriving DecidableEq

section Model

variable (storageDir : String) (record : StoredBond)

def targetPath : String := storageDir ++ "/" ++ bondRecordFileName

/-- What a file holds of the record once it is written. -/
def savedText : List CodeUnit := throughUtf8 (serializeBondRecord record)

def saveStep (state : SaveState) : SaveEvent → Option SaveState
  | .dirExists =>
      if state.phase = .start ∧ state.files.dir = true then some { state with phase := .dirReady }
      else none
  | .mkdirs made =>
      if state.phase = .start ∧ state.files.dir = false then
        if made then some ⟨{ state.files with dir := true }, .dirReady⟩
        else some { state with phase := .thrown ("could not create bond storage dir: " ++
          storageDir) }
      else none
  | .wrote =>
      if state.phase = .dirReady then
        some ⟨{ state.files with tmp := some (savedText record) }, .written⟩
      else none
  | .writeFailed message left =>
      if state.phase = .dirReady then some ⟨{ state.files with tmp := left }, .thrown message⟩
      else none
  | .targetMissing =>
      if state.phase = .written ∧ state.files.target = none then
        some { state with phase := .cleared }
      else none
  | .delete deleted =>
      if state.phase = .written ∧ state.files.target ≠ none then
        if deleted then some ⟨{ state.files with target := none }, .cleared⟩
        else some { state with phase := .failing ("could not replace existing bond record: " ++
          targetPath storageDir) }
      else none
  | .rename renamed =>
      if state.phase = .cleared then
        if renamed then
          some ⟨{ state.files with target := state.files.tmp, tmp := none }, .returned⟩
        else some { state with phase := .failing ("could not rename bond tmpfile into place: " ++
          targetPath storageDir) }
      else none
  | .cleanup deleted =>
      match state.phase with
      | .failing message =>
          some ⟨if deleted then { state.files with tmp := none } else state.files, .thrown message⟩
      | _ => none

/-- A save of the record, one event for each answer of the file system. -/
def saving : Transition.System SaveState SaveEvent where
  start state := state.phase = .start
  step := saveStep storageDir record

end Model

/-- The steps of a save, one constructor for each answer. -/
inductive SaveMove (storageDir : String) (record : StoredBond) :
    SaveState → SaveEvent → SaveState → Prop where
  | dirExists {files : BondFiles} : SaveMove storageDir record
      ⟨files, .start⟩ .dirExists ⟨files, .dirReady⟩
  | mkdirs {files : BondFiles} : SaveMove storageDir record
      ⟨files, .start⟩ (.mkdirs true) ⟨{ files with dir := true }, .dirReady⟩
  | mkdirsFailed {files : BondFiles} : SaveMove storageDir record ⟨files, .start⟩ (.mkdirs false)
      ⟨files, .thrown ("could not create bond storage dir: " ++ storageDir)⟩
  | wrote {files : BondFiles} : SaveMove storageDir record ⟨files, .dirReady⟩ .wrote
      ⟨{ files with tmp := some (savedText record) }, .written⟩
  | writeFailed {files : BondFiles} {message : String} {left : Option (List CodeUnit)} :
      SaveMove storageDir record ⟨files, .dirReady⟩ (.writeFailed message left)
        ⟨{ files with tmp := left }, .thrown message⟩
  | targetMissing {files : BondFiles} (hmissing : files.target = none) :
      SaveMove storageDir record ⟨files, .written⟩ .targetMissing ⟨files, .cleared⟩
  | deleted {files : BondFiles} (hpresent : files.target ≠ none) :
      SaveMove storageDir record ⟨files, .written⟩ (.delete true)
        ⟨{ files with target := none }, .cleared⟩
  | deleteFailed {files : BondFiles} (hpresent : files.target ≠ none) :
      SaveMove storageDir record ⟨files, .written⟩ (.delete false)
        ⟨files, .failing ("could not replace existing bond record: " ++ targetPath storageDir)⟩
  | renamed {files : BondFiles} : SaveMove storageDir record ⟨files, .cleared⟩ (.rename true)
      ⟨{ files with target := files.tmp, tmp := none }, .returned⟩
  | renameFailed {files : BondFiles} : SaveMove storageDir record ⟨files, .cleared⟩
      (.rename false)
      ⟨files, .failing ("could not rename bond tmpfile into place: " ++ targetPath storageDir)⟩
  | cleanup {files : BondFiles} {message : String} {deleted : Bool} :
      SaveMove storageDir record ⟨files, .failing message⟩ (.cleanup deleted)
        ⟨if deleted then { files with tmp := none } else files, .thrown message⟩

theorem saveMove_of_step {storageDir : String} {record : StoredBond} {state next : SaveState}
    {event : SaveEvent} (hstep : (saving storageDir record).step state event = some next) :
    SaveMove storageDir record state event next := by
  obtain ⟨files, phase⟩ := state
  change saveStep storageDir record ⟨files, phase⟩ event = some next at hstep
  cases event with
  | dirExists =>
      obtain ⟨⟨hphase, _⟩, hnext⟩ := Option.ite_none_right_eq_some.mp hstep
      cases hphase
      cases hnext
      exact .dirExists
  | mkdirs made =>
      obtain ⟨⟨hphase, _⟩, hnext⟩ := Option.ite_none_right_eq_some.mp hstep
      cases hphase
      cases made with
      | true =>
          cases hnext
          exact .mkdirs
      | false =>
          cases hnext
          exact .mkdirsFailed
  | wrote =>
      obtain ⟨hphase, hnext⟩ := Option.ite_none_right_eq_some.mp hstep
      cases hphase
      cases hnext
      exact .wrote
  | writeFailed message left =>
      obtain ⟨hphase, hnext⟩ := Option.ite_none_right_eq_some.mp hstep
      cases hphase
      cases hnext
      exact .writeFailed
  | targetMissing =>
      obtain ⟨⟨hphase, hmissing⟩, hnext⟩ := Option.ite_none_right_eq_some.mp hstep
      cases hphase
      cases hnext
      exact .targetMissing hmissing
  | delete deleted =>
      obtain ⟨⟨hphase, hpresent⟩, hnext⟩ := Option.ite_none_right_eq_some.mp hstep
      cases hphase
      cases deleted with
      | true =>
          cases hnext
          exact .deleted hpresent
      | false =>
          cases hnext
          exact .deleteFailed hpresent
  | rename renamed =>
      obtain ⟨hphase, hnext⟩ := Option.ite_none_right_eq_some.mp hstep
      cases hphase
      cases renamed with
      | true =>
          cases hnext
          exact .renamed
      | false =>
          cases hnext
          exact .renameFailed
  | cleanup deleted =>
      cases phase with
      | failing message =>
          cases hstep
          exact .cleanup
      | start | dirReady | written | cleared | returned | thrown => cases hstep

/-! ## What a run leaves -/

section Run

variable {storageDir : String} {record : StoredBond} {text : List CodeUnit}

/-- The bond file before the deletion, between the two calls, and after the renaming. -/
def targetAfter (record : StoredBond) (text : List CodeUnit) (past : List SaveEvent) :
    Option (List CodeUnit) :=
  if .rename true ∈ past then some (savedText record)
  else if .delete true ∈ past then none
  else some text

theorem targetAfter_concat {past : List SaveEvent} {event : SaveEvent}
    (hdelete : event ≠ .delete true) (hrename : event ≠ .rename true) :
    targetAfter record text (past ++ [event]) = targetAfter record text past := by
  simp only [targetAfter, List.mem_append, List.mem_singleton, Ne.symm hdelete, Ne.symm hrename,
    or_false]

/-- Where a save over a file with the text stands after some events. -/
structure Saving (record : StoredBond) (text : List CodeUnit) (past : List SaveEvent)
    (state : SaveState) : Prop where
  target_eq : state.files.target = targetAfter record text past
  renamed : .rename true ∈ past → state.phase = .returned
  tmp_eq : state.phase = .written ∨ state.phase = .cleared →
    state.files.tmp = some (savedText record)

/-- A step that neither deletes nor renames the file leaves it. -/
theorem Saving.keep {past : List SaveEvent} {state next : SaveState} {event : SaveEvent}
    (hsaving : Saving record text past state) (hphase : state.phase ≠ .returned)
    (hdelete : event ≠ .delete true) (hrename : event ≠ .rename true)
    (htarget : next.files.target = state.files.target)
    (htmp : next.phase = .written ∨ next.phase = .cleared →
      next.files.tmp = some (savedText record)) :
    Saving record text (past ++ [event]) next := by
  refine ⟨?_, ?_, htmp⟩
  · rw [htarget, targetAfter_concat hdelete hrename]
    exact hsaving.target_eq
  · intro hmem
    rcases List.mem_append.mp hmem with hpast | hlast
    · exact absurd (hsaving.renamed hpast) hphase
    · exact absurd (List.mem_singleton.mp hlast).symm hrename

theorem saving_step {past : List SaveEvent} {state next : SaveState} {event : SaveEvent}
    (hsaving : Saving record text past state)
    (hstep : (saving storageDir record).step state event = some next) :
    Saving record text (past ++ [event]) next := by
  cases saveMove_of_step hstep with
  | dirExists | mkdirs | mkdirsFailed | writeFailed | deleteFailed | renameFailed =>
      refine hsaving.keep (by simp) (by simp) (by simp) rfl ?_
      intro hphase
      simp at hphase
  | wrote => exact hsaving.keep (by simp) (by simp) (by simp) rfl fun _ => rfl
  | targetMissing =>
      exact hsaving.keep (by simp) (by simp) (by simp) rfl fun _ => hsaving.tmp_eq (.inl rfl)
  | cleanup =>
      refine hsaving.keep (by simp) (by simp) (by simp) ?_ ?_
      · dsimp only
        split <;> rfl
      · intro hphase
        simp at hphase
  | deleted =>
      have hpast : .rename true ∉ past := by
        intro hmem
        have hphase := hsaving.renamed hmem
        cases hphase
      refine ⟨?_, ?_, ?_⟩
      · simp [targetAfter, hpast]
      · intro hmem
        rcases List.mem_append.mp hmem with hold | hlast
        · exact absurd hold hpast
        · cases List.mem_singleton.mp hlast
      · intro _
        exact hsaving.tmp_eq (.inl rfl)
  | renamed =>
      refine ⟨?_, fun _ => rfl, ?_⟩
      · rw [targetAfter, if_pos (List.mem_append_right past List.mem_cons_self)]
        exact hsaving.tmp_eq (.inr rfl)
      · intro hphase
        simp at hphase

/-- After every run the file holds what the answers say. -/
theorem target_of_run {files : BondFiles} {final : SaveState} {events : List SaveEvent}
    (htext : files.target = some text)
    (hrun : (saving storageDir record).run ⟨files, .start⟩ events = some final) :
    final.files.target = targetAfter record text events := by
  have hstart : Saving record text [] ⟨files, .start⟩ := by
    refine ⟨htext, ?_, ?_⟩
    · intro hmem
      cases hmem
    · intro hphase
      simp at hphase
  have hfinal := (saving storageDir record).run_events_invariant (Saving record text)
    (fun _ _ _ _ hsaving hstep => saving_step hsaving hstep) hstart hrun
  exact hfinal.target_eq

end Run

/-! ## What the file gives back -/

section Text

/-- The texts of a record are kept by UTF-8. -/
structure StoredBond.Encodable (record : StoredBond) : Prop where
  hostName : InUtf8 record.hostName
  peerId : InUtf8 record.peerId
  keystoreAlias : InUtf8 record.keystoreAlias

/-- The record with its texts as a file gives them back. -/
def StoredBond.through (record : StoredBond) : StoredBond where
  peerId := throughUtf8 record.peerId
  hostName := throughUtf8 record.hostName
  bondKey := record.bondKey
  keystoreAlias := throughUtf8 record.keystoreAlias
  phonePubkey := record.phonePubkey

theorem through_eq_self_iff {record : StoredBond} : record.through = record ↔ record.Encodable := by
  constructor
  · intro hsame
    exact ⟨congrArg StoredBond.hostName hsame, congrArg StoredBond.peerId hsame,
      congrArg StoredBond.keystoreAlias hsame⟩
  · intro ⟨hhost, hpeer, halias⟩
    rw [StoredBond.through, hhost, hpeer, halias]

theorem throughUtf8_quotedLine {key : List CodeUnit}
    (hkey : ∀ c ∈ key, c.isSurrogate = false) (value : List CodeUnit) :
    throughUtf8 (quotedLine key value) = quotedLine key (throughUtf8 value) := by
  have hmiddle : ∀ c ∈ codeUnits " = ", c.isSurrogate = false :=
    forall_mem_of_all (by decide)
  have hquote : quote.isSurrogate = false := by decide
  have hempty : throughUtf8 [] = [] := rfl
  simp only [quotedLine, List.append_assoc]
  rw [throughUtf8_append hkey, throughUtf8_append hmiddle,
    throughUtf8_cons_of_not_surrogate hquote, throughUtf8_append_cons hquote, hempty]

theorem throughUtf8_quotedLines {entries : List (List CodeUnit × List CodeUnit)}
    (hkeys : ∀ entry ∈ entries, ∀ c ∈ entry.1, c.isSurrogate = false) :
    throughUtf8 (terminated CodeUnit.lineFeed
        (entries.map fun entry => quotedLine entry.1 entry.2)) =
      terminated CodeUnit.lineFeed
        (entries.map fun entry => quotedLine entry.1 (throughUtf8 entry.2)) := by
  rw [throughUtf8_terminated, List.map_map]
  congr 1
  apply List.map_congr_left
  intro entry hentry
  exact throughUtf8_quotedLine (hkeys entry hentry) entry.2

theorem throughUtf8_encodeHex (bytes : Bytes) :
    throughUtf8 (encodeHex bytes) = encodeHex bytes := by
  have hdigits : ∀ c ∈ encodeHex bytes, c.isSurrogate = false :=
    forall_mem_encodeHex (by decide) bytes
  have happend := throughUtf8_append hdigits []
  rwa [List.append_nil, throughUtf8, List.append_nil] at happend

theorem textFields_through (record : StoredBond) :
    textFields record.through =
      (textFields record).map fun entry => (entry.1, throughUtf8 entry.2) := by
  simp only [textFields, StoredBond.through, List.map_cons, List.map_nil, throughUtf8_encodeHex]

theorem savedText_eq (record : StoredBond) :
    savedText record = serializeBondRecord record.through := by
  have hversion : ∀ c ∈ versionLine ++ [CodeUnit.lineFeed], c.isSurrogate = false :=
    forall_mem_of_all (by decide)
  have hkeys : ∀ entry ∈ textFields record, ∀ c ∈ entry.1, c.isSurrogate = false := by
    simp only [textFields, List.forall_mem_cons]
    exact ⟨forall_mem_of_all (by decide), forall_mem_of_all (by decide),
      forall_mem_of_all (by decide), forall_mem_of_all (by decide),
      forall_mem_of_all (by decide), fun _ hmem => absurd hmem List.not_mem_nil⟩
  rw [savedText, serializeBondRecord, serializeBondRecord, recordLines_eq, recordLines_eq,
    terminated_cons, terminated_cons, List.append_cons, throughUtf8_append hversion,
    throughUtf8_quotedLines hkeys, textFields_through, List.map_map, ← List.append_cons]
  rfl

theorem inLines_through {record : StoredBond} (hlines : record.InLines) :
    record.through.InLines :=
  ⟨oneLine_throughUtf8 hlines.hostName, oneLine_throughUtf8 hlines.peerId,
    oneLine_throughUtf8 hlines.keystoreAlias⟩

/-- A saved record is read back exactly when its texts are in one line and kept by UTF-8. -/
theorem parseBondRecord_savedText_iff (record : StoredBond) :
    parseBondRecord (savedText record) = .ok record ↔ record.InLines ∧ record.Encodable := by
  rw [savedText_eq]
  constructor
  · intro hparse
    have hlines : record.InLines := inLines_of_parseBondRecord hparse
    rw [parseBondRecord_serialize (inLines_through hlines)] at hparse
    exact ⟨hlines, through_eq_self_iff.mp (Except.ok.inj hparse)⟩
  · intro ⟨hlines, hencodable⟩
    rw [through_eq_self_iff.mpr hencodable]
    exact parseBondRecord_serialize hlines

end Text

/-! ## After a failure or a crash -/

theorem load_eq_some {files : BondFiles} {record : StoredBond} :
    files.load = .ok (some record) ↔
      ∃ text, files.target = some text ∧ parseBondRecord text = .ok record := by
  unfold BondFiles.load
  cases files.target with
  | none => simp
  | some text =>
      cases hparse : parseBondRecord text with
      | error err => simp [Except.map, hparse]
      | ok found => simp [Except.map, hparse]

/-- A save that does not come to rename its file leaves the old record or the new one exactly
when it has not deleted the old file; one that does leaves the new record exactly when its text
reads back. -/
theorem load_after_save_iff {storageDir : String} {previous record : StoredBond}
    {files : BondFiles} {events : List SaveEvent} {final : SaveState}
    (hload : files.load = .ok (some previous))
    (hrun : (saving storageDir record).run ⟨files, .start⟩ events = some final) :
    (.rename true ∉ events →
      ((final.files.load = .ok (some previous) ∨ final.files.load = .ok (some record)) ↔
        .delete true ∉ events)) ∧
    (.rename true ∈ events →
      (final.files.load = .ok (some record) ↔ record.InLines ∧ record.Encodable)) := by
  obtain ⟨text, htext, hparse⟩ := load_eq_some.mp hload
  have htarget := target_of_run htext hrun
  unfold targetAfter at htarget
  constructor
  · intro hrename
    rw [if_neg hrename] at htarget
    by_cases hdelete : .delete true ∈ events
    · rw [if_pos hdelete] at htarget
      have hnull : final.files.load = .ok none := by
        rw [BondFiles.load, htarget]
      simp [hnull, hdelete]
    · rw [if_neg hdelete] at htarget
      have hprevious : final.files.load = .ok (some previous) :=
        load_eq_some.mpr ⟨text, htarget, hparse⟩
      exact iff_of_true (.inl hprevious) hdelete
  · intro hrename
    rw [if_pos hrename] at htarget
    rw [load_eq_some, htarget, ← parseBondRecord_savedText_iff]
    constructor
    · intro ⟨saved, hsaved, hread⟩
      cases hsaved
      exact hread
    · intro hread
      exact ⟨_, rfl, hread⟩

def oldBond : StoredBond where
  peerId := codeUnits "AA:BB:CC:DD:EE:FF"
  hostName := codeUnits "laptop"
  bondKey := Octets.zero 32
  keystoreAlias := codeUnits "syauth"
  phonePubkey := Octets.zero 32

def newBond : StoredBond := { oldBond with hostName := codeUnits "desktop" }

def oldFiles : BondFiles := ⟨true, some (serializeBondRecord oldBond), none⟩

def refusedDelete : List SaveEvent := [.dirExists, .wrote, .delete false, .cleanup true]

def refusedState : SaveState where
  files := oldFiles
  phase := .thrown ("could not replace existing bond record: " ++ targetPath "files")

theorem load_after_refused_delete :
    (.rename true ∉ refusedDelete →
      ((refusedState.files.load = .ok (some oldBond) ∨
        refusedState.files.load = .ok (some newBond)) ↔ .delete true ∉ refusedDelete)) ∧
    (.rename true ∈ refusedDelete →
      (refusedState.files.load = .ok (some newBond) ↔ newBond.InLines ∧ newBond.Encodable)) := by
  have hload : oldFiles.load = .ok (some oldBond) := by decide +kernel
  have hrun : (saving "files" newBond).run ⟨oldFiles, .start⟩ refusedDelete =
      some refusedState := by decide +kernel
  exact load_after_save_iff hload hrun

/-- The old file is deleted, the renaming fails, and there is no record. -/
theorem load_after_failed_rename :
    oldFiles.load = .ok (some oldBond) ∧
      ((saving "files" newBond).run ⟨oldFiles, .start⟩
          [.dirExists, .wrote, .delete true, .rename false, .cleanup true]).map
        (fun final => final.files.load) = some (.ok none) := by
  decide +kernel

/-! ## The save of records

`BondStore.save` as a function on the record that the file holds is what a save does whose calls
have all been answered.
-/

section Records

/-- The record in the units of the platform. -/
structure Stands (stored : StoredBond) (record : BondRecord) : Prop where
  peerId : stored.peerId = utf16 record.peerId
  hostName : stored.hostName = utf16 record.hostName
  bondKey : stored.bondKey.val = record.bondKey
  keystoreAlias : stored.keystoreAlias = utf16 record.keystoreAlias
  phonePubkey : stored.phonePubkey.val = record.phonePubkey

/-- The file holds the text of the record, or there is neither. -/
def Holds : Option (List CodeUnit) → Option BondRecord → Prop
  | none, none => True
  | some text, some record => ∃ stored, Stands stored record ∧ text = serializeBondRecord stored
  | _, _ => False

def noFaults : SaveFaults := ⟨false, none, false, false⟩

def SaveFaults.note (faults : SaveFaults) : SaveEvent → SaveFaults
  | .mkdirs false => { faults with dirFailed := true }
  | .writeFailed message _ => { faults with writeFault := some message }
  | .delete false => { faults with deleteFailed := true }
  | .rename false => { faults with renameFailed := true }
  | _ => faults

/-- The calls that have failed. -/
def faultsOf (events : List SaveEvent) : SaveFaults := events.foldl SaveFaults.note noFaults

theorem faultsOf_concat (past : List SaveEvent) (event : SaveEvent) :
    faultsOf (past ++ [event]) = (faultsOf past).note event := by
  rw [faultsOf, List.foldl_append]
  rfl

theorem Stands.holds {stored : StoredBond} {record : BondRecord} (hstands : Stands stored record) :
    Holds (some (savedText stored)) (some record) := by
  have hencodable : stored.Encodable := by
    refine ⟨?_, ?_, ?_⟩
    · rw [hstands.hostName]
      exact inUtf8_utf16 _
    · rw [hstands.peerId]
      exact inUtf8_utf16 _
    · rw [hstands.keystoreAlias]
      exact inUtf8_utf16 _
  refine ⟨stored, hstands, ?_⟩
  rw [savedText_eq, through_eq_self_iff.mpr hencodable]

theorem Holds.isSome {target : Option (List CodeUnit)} {disk : Option BondRecord}
    (hholds : Holds target disk) (hpresent : target ≠ none) : disk.isSome = true := by
  cases target with
  | none => exact absurd rfl hpresent
  | some text =>
      cases disk with
      | none => cases hholds
      | some record => rfl

/-- How far a save of files is along the save of records. -/
def Simulates (storageDir : String) (disk : Option BondRecord) (stored : StoredBond)
    (record : BondRecord) (past : List SaveEvent) (state : SaveState) : Prop :=
  match state.phase with
  | .start | .dirReady => faultsOf past = noFaults ∧ Holds state.files.target disk
  | .written => faultsOf past = noFaults ∧ Holds state.files.target disk ∧
      state.files.tmp = some (savedText stored)
  | .cleared => faultsOf past = noFaults ∧ state.files.target = none ∧
      state.files.tmp = some (savedText stored)
  | .failing message | .thrown message =>
      ∃ left, BondStore.save storageDir disk record (faultsOf past) = (.error message, left) ∧
        Holds state.files.target left
  | .returned => BondStore.save storageDir disk record (faultsOf past) = (.ok (), some record) ∧
      Holds state.files.target (some record)

theorem simulates_step {storageDir : String} {disk : Option BondRecord} {stored : StoredBond}
    {record : BondRecord} (hstands : Stands stored record) {past : List SaveEvent}
    {state next : SaveState} {event : SaveEvent}
    (hsimulates : Simulates storageDir disk stored record past state)
    (hstep : (saving storageDir stored).step state event = some next) :
    Simulates storageDir disk stored record (past ++ [event]) next := by
  cases saveMove_of_step hstep with
  | dirExists | mkdirs =>
      obtain ⟨hfaults, hholds⟩ := hsimulates
      refine ⟨?_, hholds⟩
      rw [faultsOf_concat, hfaults]
      rfl
  | mkdirsFailed =>
      obtain ⟨hfaults, hholds⟩ := hsimulates
      refine ⟨disk, ?_, hholds⟩
      rw [faultsOf_concat, hfaults]
      rfl
  | wrote =>
      obtain ⟨hfaults, hholds⟩ := hsimulates
      refine ⟨?_, hholds, rfl⟩
      rw [faultsOf_concat, hfaults]
      rfl
  | writeFailed =>
      obtain ⟨hfaults, hholds⟩ := hsimulates
      refine ⟨disk, ?_, hholds⟩
      rw [faultsOf_concat, hfaults]
      rfl
  | targetMissing hmissing =>
      obtain ⟨hfaults, _, htmp⟩ := hsimulates
      refine ⟨?_, hmissing, htmp⟩
      rw [faultsOf_concat, hfaults]
      rfl
  | deleted =>
      obtain ⟨hfaults, _, htmp⟩ := hsimulates
      refine ⟨?_, rfl, htmp⟩
      rw [faultsOf_concat, hfaults]
      rfl
  | deleteFailed hpresent =>
      obtain ⟨hfaults, hholds, _⟩ := hsimulates
      refine ⟨disk, ?_, hholds⟩
      rw [faultsOf_concat, hfaults]
      simp [BondStore.save, SaveFaults.note, noFaults, hholds.isSome hpresent, targetPath]
  | renamed =>
      obtain ⟨hfaults, _, htmp⟩ := hsimulates
      constructor
      · rw [faultsOf_concat, hfaults]
        simp [BondStore.save, SaveFaults.note, noFaults]
      · rw [htmp]
        exact hstands.holds
  | renameFailed =>
      obtain ⟨hfaults, hmissing, _⟩ := hsimulates
      refine ⟨none, ?_, ?_⟩
      · rw [faultsOf_concat, hfaults]
        simp [BondStore.save, SaveFaults.note, noFaults, targetPath]
      · rw [hmissing]
        trivial
  | cleanup =>
      obtain ⟨left, hsave, hholds⟩ := hsimulates
      refine ⟨left, ?_, ?_⟩
      · rw [faultsOf_concat]
        exact hsave
      · dsimp only
        split <;> exact hholds

/-- Every run of the save is one of the save of records. -/
theorem simulates_run {storageDir : String} {disk : Option BondRecord} {stored : StoredBond}
    {record : BondRecord} (hstands : Stands stored record) {files : BondFiles}
    {events : List SaveEvent} {final : SaveState} (hholds : Holds files.target disk)
    (hrun : (saving storageDir stored).run ⟨files, .start⟩ events = some final) :
    Simulates storageDir disk stored record events final := by
  have hstart : Simulates storageDir disk stored record [] ⟨files, .start⟩ := ⟨rfl, hholds⟩
  exact (saving storageDir stored).run_events_invariant
    (Simulates storageDir disk stored record)
    (fun _ _ _ _ hsimulates hstep => simulates_step hstands hsimulates hstep) hstart hrun

end Records

end Syauth.Android
