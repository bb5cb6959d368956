import Syauth.Sequence.Descending
import Syauth.Sequence.Recent
import Syauth.Text.FileLines
import Mathlib.Data.Int.Order.Basic

/-! # The phone's challenge history

`history/ChallengeHistoryDao.kt`.  A record is appended to a file as a line of fields with tabs
between them, and the file is cut back to its last lines.  Lines that cannot be decoded are
skipped when the file is read.
-/

namespace Syauth.Android

open Text Sequence

def maxHistoryFileRecords : Nat := 200
def historyFieldSeparator : CodeUnit := codeUnit '\t'
def historyFieldCount : Nat := 6

structure ChallengeHistoryRecord where
  id : List CodeUnit
  peerId : List CodeUnit
  peerIdShort : List CodeUnit
  hostname : List CodeUnit
  outcome : List CodeUnit
  timestampMs : Int64
  deriving DecidableEq

/-- What `decode` throws. -/
inductive HistoryLineError where
  | illegalArgument (message : String)
  | numberFormat (text : List CodeUnit)
  deriving DecidableEq

namespace ChallengeHistoryRecord

def millis (record : ChallengeHistoryRecord) : Int := record.timestampMs.toInt

/-- The fields that are written as they are. -/
def textFields (record : ChallengeHistoryRecord) : List (List CodeUnit) :=
  [record.id, record.peerId, record.peerIdShort, record.hostname, record.outcome]

def encode (record : ChallengeHistoryRecord) : List CodeUnit :=
  [historyFieldSeparator].intercalate (record.textFields ++ [longText record.timestampMs])

def decode (line : List CodeUnit) : Except HistoryLineError ChallengeHistoryRecord :=
  match line.splitOn historyFieldSeparator with
  | [id, peerId, peerIdShort, hostname, outcome, timestamp] =>
      match toLong timestamp with
      | some timestampMs => .ok ⟨id, peerId, peerIdShort, hostname, outcome, timestampMs⟩
      | none => .error (.numberFormat timestamp)
  | parts =>
      .error (.illegalArgument ("expected " ++ toString historyFieldCount ++ " fields, got " ++
        toString parts.length))

end ChallengeHistoryRecord

open ChallengeHistoryRecord

/-- The store file, if there is one. -/
structure ChallengeHistoryDao where
  storeFile : Option (List CodeUnit)
  deriving DecidableEq

namespace ChallengeHistoryDao

/-- What the file holds after `truncateIfNeeded`. -/
def truncateIfNeeded (text : List CodeUnit) : List CodeUnit :=
  let lines := readLines text
  if lines.length ≤ maxHistoryFileRecords then text
  else
    let kept := lines.rtake maxHistoryFileRecords
    throughUtf8 ([CodeUnit.lineFeed].intercalate kept ++ [CodeUnit.lineFeed])

def insert (dao : ChallengeHistoryDao) (record : ChallengeHistoryRecord) : ChallengeHistoryDao :=
  let appended := dao.storeFile.getD [] ++ throughUtf8 (encode record ++ [CodeUnit.lineFeed])
  ⟨some (truncateIfNeeded appended)⟩

def parsed (text : List CodeUnit) : List ChallengeHistoryRecord :=
  (readLines text).filterMap fun line => (decode line).toOption

def recent (dao : ChallengeHistoryDao) (limit : Int) :
    Except String (List ChallengeHistoryRecord) :=
  match dao.storeFile with
  | none => .ok []
  | some text =>
      if limit < 0 then
        .error ("Requested element count " ++ toString limit ++ " is less than zero.")
      else
        .ok ((sortedByDescending millis (parsed text)).take limit.toNat)

/-- The store after a sequence of inserts into an empty directory. -/
def inserted (records : List ChallengeHistoryRecord) : ChallengeHistoryDao :=
  records.foldl insert ⟨none⟩

def text (dao : ChallengeHistoryDao) : List CodeUnit := dao.storeFile.getD []

theorem recent_eq (dao : ChallengeHistoryDao) (n : Nat) :
    dao.recent n = .ok ((sortedByDescending millis (parsed dao.text)).take n) := by
  obtain ⟨storeFile⟩ := dao
  cases storeFile with
  | none => simp [recent, text, parsed, readLines, lineSequence, sortedByDescending]
  | some text =>
      have hlimit : ¬ (n : Int) < 0 := Int.not_lt.mpr (Int.natCast_nonneg n)
      simp only [recent, if_neg hlimit, Int.toNat_natCast]
      rfl

/-! ## The lines of the file -/

/-- The lines that an insert appends. -/
def recordLines (record : ChallengeHistoryRecord) : List (List CodeUnit) :=
  readLines (throughUtf8 (encode record ++ [CodeUnit.lineFeed]))

/-- The file of a log of lines keeps the last ones. -/
structure Holds (log : List (List CodeUnit)) (text : List CodeUnit) : Prop where
  ended : Ended text
  inUtf8 : InUtf8 text
  lines_eq : readLines text = log.rtake maxHistoryFileRecords

theorem holds_nil : Holds [] [] := ⟨ended_nil, rfl, rfl⟩

theorem ended_written (record : ChallengeHistoryRecord) :
    Ended (throughUtf8 (encode record ++ [CodeUnit.lineFeed])) := by
  rw [throughUtf8_append_cons (by decide)]
  exact ended_concat _

/-- Cutting the file back keeps its last lines. -/
theorem holds_truncateIfNeeded {text : List CodeUnit} (hended : Ended text)
    (hutf8 : InUtf8 text) : Holds (readLines text) (truncateIfNeeded text) := by
  unfold truncateIfNeeded
  simp only
  split
  next hshort => exact ⟨hended, hutf8, (rtake_of_length_le hshort).symm⟩
  next hlong =>
    have hkept : ∀ line ∈ (readLines text).rtake maxHistoryFileRecords, line ∈ readLines text :=
      fun _ hline => (rtake_suffix _ _).mem hline
    have hne : (readLines text).rtake maxHistoryFileRecords ≠ [] := by
      intro hnil
      have hlength := congrArg List.length hnil
      rw [length_rtake, List.length_nil] at hlength
      unfold maxHistoryFileRecords at hlength hlong
      omega
    have hsame : ((readLines text).rtake maxHistoryFileRecords).map throughUtf8 =
        (readLines text).rtake maxHistoryFileRecords := by
      refine (List.map_congr_left ?_).trans (List.map_id _)
      intro line hline
      exact inUtf8_of_mem_readLines hutf8 (hkept line hline)
    rw [intercalate_concat hne, throughUtf8_terminated, hsame]
    refine ⟨?_, ?_, ?_⟩
    · rw [← intercalate_concat hne]
      exact ended_concat _
    · rw [InUtf8, throughUtf8_terminated, hsame]
    · apply readLines_terminated
      intro line hline
      exact oneLine_of_mem_readLines (hkept line hline)

theorem Holds.insert {log : List (List CodeUnit)} {dao : ChallengeHistoryDao}
    (hholds : Holds log dao.text) (record : ChallengeHistoryRecord) :
    Holds (log ++ recordLines record) (dao.insert record).text := by
  have hended : Ended (dao.text ++ throughUtf8 (encode record ++ [CodeUnit.lineFeed])) :=
    hholds.ended.append (ended_written record)
  have hutf8 : InUtf8 (dao.text ++ throughUtf8 (encode record ++ [CodeUnit.lineFeed])) :=
    hholds.inUtf8.append hholds.ended (inUtf8_throughUtf8 _)
  have hcut := holds_truncateIfNeeded hended hutf8
  refine ⟨hcut.ended, hcut.inUtf8, hcut.lines_eq.trans ?_⟩
  rw [readLines_append hholds.ended, hholds.lines_eq, rtake_rtake_append]
  rfl

/-- After every run the file holds the last lines of what was appended. -/
theorem holds_inserted (records : List ChallengeHistoryRecord) :
    Holds (records.flatMap recordLines) (inserted records).text := by
  have hrun : ∀ (log : List (List CodeUnit)) (dao : ChallengeHistoryDao), Holds log dao.text →
      Holds (log ++ records.flatMap recordLines) (records.foldl insert dao).text := by
    induction records with
    | nil =>
        intro log dao hholds
        rw [List.flatMap_nil, List.append_nil]
        exact hholds
    | cons record records ih =>
        intro log dao hholds
        rw [List.flatMap_cons, ← List.append_assoc]
        exact ih _ _ (hholds.insert record)
  exact hrun [] ⟨none⟩ holds_nil

end ChallengeHistoryDao

/-! ## Records that are read back -/

/-- A text that stays in its place: no tab, no line break and no surrogate on its own. -/
def PlainField (text : List CodeUnit) : Prop :=
  historyFieldSeparator ∉ text ∧ OneLine text ∧ InUtf8 text

namespace ChallengeHistoryRecord

def Plain (record : ChallengeHistoryRecord) : Prop :=
  ∀ field ∈ record.textFields, PlainField field

theorem plainField_longText (value : Int64) : PlainField (longText value) := by
  have hunit : ∀ c ∈ longText value, c ≠ historyFieldSeparator ∧ c.isBreak = false ∧
      c.isSurrogate = false := forall_mem_longText (by decide) (by decide) value
  refine ⟨?_, ?_, ?_⟩
  · intro hmem
    exact (hunit _ hmem).1 rfl
  · intro c hc
    exact (hunit c hc).2.1
  · have hplain := throughUtf8_append (fun c hc => (hunit c hc).2.2) []
    rwa [throughUtf8, List.append_nil] at hplain

theorem Plain.fields {record : ChallengeHistoryRecord} (hplain : record.Plain) :
    ∀ field ∈ record.textFields ++ [longText record.timestampMs], PlainField field := by
  intro field hfield
  rcases List.mem_append.mp hfield with htext | htime
  · exact hplain field htext
  · rw [List.mem_singleton.mp htime]
    exact plainField_longText record.timestampMs

theorem decode_encode {record : ChallengeHistoryRecord} (hplain : record.Plain) :
    decode (encode record) = .ok record := by
  have hfree : ∀ field ∈ record.textFields ++ [longText record.timestampMs],
      historyFieldSeparator ∉ field := fun field hfield => (hplain.fields field hfield).1
  have hsplit : (encode record).splitOn historyFieldSeparator =
      record.textFields ++ [longText record.timestampMs] := by
    apply List.splitOn_intercalate _ hfree
    exact List.concat_ne_nil _ _
  unfold decode
  rw [hsplit]
  simp only [textFields, List.cons_append, List.nil_append, toLong_longText]

/-- What is decoded from a line of a file is plain. -/
theorem plain_of_decode {line : List CodeUnit} {record : ChallengeHistoryRecord}
    (hline : OneLine line) (hutf8 : InUtf8 line) (hdecode : decode line = .ok record) :
    record.Plain := by
  have hparts : ∀ part ∈ line.splitOn historyFieldSeparator, PlainField part := by
    intro part hpart
    refine ⟨notMem_of_mem_splitOn hpart, ?_, ?_⟩
    · intro c hc
      exact hline c (mem_of_mem_splitOn hpart hc)
    · exact inUtf8_of_mem_splitOn (by decide) (by decide) hutf8 hpart
  unfold decode at hdecode
  split at hdecode
  next id peerId peerIdShort hostname outcome timestamp hsplit =>
    split at hdecode
    next timestampMs htime =>
      cases hdecode
      intro field hfield
      apply hparts
      rw [hsplit]
      exact List.mem_append_left [timestamp] hfield
    next => cases hdecode
  next => cases hdecode

theorem oneLine_encode {record : ChallengeHistoryRecord} (hplain : record.Plain) :
    OneLine (encode record) := by
  intro c hc
  rcases mem_of_mem_intercalate hc with rfl | ⟨field, hfield, hin⟩
  · decide
  · exact (hplain.fields field hfield).2.1 c hin

theorem inUtf8_encode {record : ChallengeHistoryRecord} (hplain : record.Plain) :
    InUtf8 (encode record) := by
  have hsame : (record.textFields ++ [longText record.timestampMs]).map throughUtf8 =
      record.textFields ++ [longText record.timestampMs] := by
    refine (List.map_congr_left ?_).trans (List.map_id _)
    intro field hfield
    exact (hplain.fields field hfield).2.2
  rw [InUtf8, encode, throughUtf8_intercalate (by decide), hsame]

end ChallengeHistoryRecord

namespace ChallengeHistoryDao

/-- A plain record is one line. -/
theorem recordLines_of_plain {record : ChallengeHistoryRecord} (hplain : record.Plain) :
    recordLines record = [encode record] := by
  have hwritten : throughUtf8 (encode record ++ [CodeUnit.lineFeed]) =
      terminated CodeUnit.lineFeed [encode record] := by
    rw [throughUtf8_append_cons (by decide), inUtf8_encode hplain, throughUtf8, terminated_cons,
      terminated_nil]
  rw [recordLines, hwritten]
  exact readLines_terminated (List.forall_mem_singleton.mpr (oneLine_encode hplain))

/-- The last lines are those of the last records when these are plain, whatever came before. -/
theorem rtake_recordLines {records : List ChallengeHistoryRecord}
    (hplain : ∀ record ∈ records.rtake maxHistoryFileRecords, record.Plain) :
    (records.flatMap recordLines).rtake maxHistoryFileRecords =
      (records.rtake maxHistoryFileRecords).map encode := by
  have hlines : (records.rtake maxHistoryFileRecords).flatMap recordLines =
      (records.rtake maxHistoryFileRecords).map encode := by
    rw [List.map_eq_flatMap]
    apply List.flatMap_congr
    intro record hrecord
    exact recordLines_of_plain (hplain record hrecord)
  have hlength := length_rtake maxHistoryFileRecords records
  have hback : ((records.rtake maxHistoryFileRecords).map encode).rtake maxHistoryFileRecords =
      (records.rtake maxHistoryFileRecords).map encode := by
    apply rtake_of_length_le
    rw [List.length_map, hlength]
    exact Nat.min_le_left _ _
  obtain ⟨front, hfront⟩ := rtake_suffix maxHistoryFileRecords records
  conv_lhs => rw [← hfront]
  rw [List.flatMap_append, hlines, rtake_append, hback, List.length_map, hlength]
  by_cases hlong : maxHistoryFileRecords ≤ records.length
  · rw [Nat.min_eq_left hlong, Nat.sub_self, List.rtake_zero, List.nil_append]
  · have hall := rtake_of_length_le (Nat.le_of_not_le hlong)
    rw [hall] at hfront
    rw [List.append_left_eq_self.mp hfront, List.flatMap_nil, List.rtake_nil, List.nil_append]

theorem parsed_inserted {records : List ChallengeHistoryRecord}
    (hplain : ∀ record ∈ records.rtake maxHistoryFileRecords, record.Plain) :
    parsed (inserted records).text = records.rtake maxHistoryFileRecords := by
  rw [parsed, (holds_inserted records).lines_eq, rtake_recordLines hplain, List.filterMap_map]
  refine (List.filterMap_congr ?_).trans List.filterMap_some
  intro record hrecord
  rw [Function.comp_apply, decode_encode (hplain record hrecord)]
  rfl

/-- What a file gives back is plain. -/
theorem plain_of_mem_parsed {records : List ChallengeHistoryRecord}
    {record : ChallengeHistoryRecord} (hrecord : record ∈ parsed (inserted records).text) :
    record.Plain := by
  obtain ⟨line, hline, hdecode⟩ := List.mem_filterMap.mp hrecord
  cases hresult : decode line with
  | error err =>
      rw [hresult] at hdecode
      cases hdecode
  | ok other =>
      rw [hresult] at hdecode
      cases hdecode
      exact plain_of_decode (oneLine_of_mem_readLines hline)
        (inUtf8_of_mem_readLines (holds_inserted records).inUtf8 hline) hresult

/-! ## The history as a bounded log -/

/-- Some read of the history shows the record. -/
def Shows (dao : ChallengeHistoryDao) (record : ChallengeHistoryRecord) : Prop :=
  ∃ (n : Nat) (found : List ChallengeHistoryRecord), dao.recent n = .ok found ∧ record ∈ found

/-- The history shows the last records, the newest first, and the last insert has hidden none. -/
structure KeepsHistory (records : List ChallengeHistoryRecord) : Prop where
  recent_eq : ∃ sorted,
    Descending millis (records.rtake maxHistoryFileRecords) sorted ∧
    ∀ n : Nat, (inserted records).recent n = .ok (sorted.take n)
  shows : ∀ before record, records = before ++ [record] →
    ∀ other ∈ records.rtake maxHistoryFileRecords,
      (inserted before).Shows other → (inserted records).Shows other

theorem shows_of_recent {dao : ChallengeHistoryDao} {items sorted : List ChallengeHistoryRecord}
    (hsorted : Descending millis items sorted)
    (hrecent : ∀ n : Nat, dao.recent n = .ok (sorted.take n)) :
    ∀ record ∈ items, dao.Shows record := by
  intro record hrecord
  refine ⟨sorted.length, sorted, ?_, hsorted.perm.mem_iff.mpr hrecord⟩
  rw [hrecent, List.take_length]

theorem plain_of_shows {records : List ChallengeHistoryRecord} {record : ChallengeHistoryRecord}
    (hshows : (inserted records).Shows record) : record.Plain := by
  obtain ⟨n, found, hfound, hmem⟩ := hshows
  rw [recent_eq] at hfound
  cases hfound
  have hsorted := descending_sortedByDescending millis (parsed (inserted records).text)
  exact plain_of_mem_parsed (hsorted.perm.mem_iff.mp (List.mem_of_mem_take hmem))

/-- The history is kept exactly when the texts of the last records have no tab, no line break
and no surrogate on its own. -/
theorem keepsHistory_iff (records : List ChallengeHistoryRecord) :
    KeepsHistory records ↔ ∀ record ∈ records.rtake maxHistoryFileRecords, record.Plain := by
  constructor
  · intro hkeeps record hrecord
    obtain ⟨sorted, hsorted, hrecent⟩ := hkeeps.recent_eq
    exact plain_of_shows (shows_of_recent hsorted hrecent record hrecord)
  · intro hplain
    have hsorted := descending_sortedByDescending millis (records.rtake maxHistoryFileRecords)
    have hrecent : ∀ n : Nat, (inserted records).recent n =
        .ok ((sortedByDescending millis (records.rtake maxHistoryFileRecords)).take n) := by
      intro n
      rw [recent_eq, parsed_inserted hplain]
    refine ⟨⟨_, hsorted, hrecent⟩, ?_⟩
    intro before record hrecords other hother _
    exact shows_of_recent hsorted hrecent other hother

/-- A grant for a host. -/
def grantedRecord (hostname : List CodeUnit) : ChallengeHistoryRecord where
  id := codeUnits "1"
  peerId := codeUnits "AA:BB:CC:DD:EE:FF"
  peerIdShort := codeUnits "DD:EE:FF"
  hostname := hostname
  outcome := codeUnits "granted"
  timestampMs := 1700000000000

/-- A tab in the name of a host hides its record, and a name of many lines those before it. -/
theorem tabbed_record_hidden :
    ¬ KeepsHistory [grantedRecord (codeUnits "work\tlaptop")] ∧
      parsed (inserted [grantedRecord (codeUnits "laptop")]).text =
        [grantedRecord (codeUnits "laptop")] ∧
      ∀ n : Nat, (inserted [grantedRecord (codeUnits "laptop"),
        grantedRecord (List.replicate 200 CodeUnit.lineFeed)]).recent n = .ok [] := by
  refine ⟨?_, by decide +kernel, ?_⟩
  · intro hkeeps
    obtain ⟨sorted, hsorted, hrecent⟩ := hkeeps.recent_eq
    have hplain := plain_of_shows (shows_of_recent hsorted hrecent _ List.mem_cons_self)
    have htab := (hplain (codeUnits "work\tlaptop") (by decide)).1
    exact htab (by decide)
  · intro n
    have hempty : parsed (inserted [grantedRecord (codeUnits "laptop"),
        grantedRecord (List.replicate 200 CodeUnit.lineFeed)]).text = [] := by decide +kernel
    rw [recent_eq, hempty]
    simp [sortedByDescending]

end ChallengeHistoryDao

end Syauth.Android
