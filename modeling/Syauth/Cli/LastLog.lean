import Syauth.Pam.Auth
import Syauth.Presenced.AuditFormat
import Syauth.Text.Lines

/-! # The two writers and the two readers of `last.log`

The PAM module appends a line of three words for each authentication, the daemon a
line of six columns for each challenge, both to `/var/lib/syauth/last.log`.  `syauth
status` reads the file for the last unlock and `syauth doctor` for its last lines;
each of them stops after a number of lines counted from the top of the file.
-/

namespace Syauth.Pam

def lastLogVerbSuccess : String := "success"
def lastLogVerbFailure : String := "failure"
def lastLogUnknownPeer : String := "unknown"

def AuthOutcome.peerId : AuthOutcome → Option String
  | .success peerId => some peerId
  | .authInfoUnavail _ peerId | .authErr _ peerId => peerId

def AuthOutcome.isSuccess : AuthOutcome → Bool
  | .success _ => true
  | _ => false

/-- A call of `append_last_log`: what formatting the time gave, and the outcome. -/
structure LastLogRecord where
  formatted : Option String
  outcome : AuthOutcome
  deriving DecidableEq

namespace LastLogRecord

variable (record : LastLogRecord)

def ts : String := record.formatted.getD "0000-00-00T00:00:00Z"

def verb : String :=
  if record.outcome.isSuccess then lastLogVerbSuccess else lastLogVerbFailure

def peerId : String := record.outcome.peerId.getD lastLogUnknownPeer

def line : String := record.ts ++ " " ++ record.verb ++ " " ++ record.peerId ++ "\n"

end LastLogRecord

end Syauth.Pam

namespace Syauth.Cli

open Text Presenced

/-! ## The file -/

/-- One append to the file, by the PAM module or by the daemon. -/
inductive LogWrite where
  | pam (record : Pam.LastLogRecord)
  | audit (record : AuditRecord)
  deriving DecidableEq

def LogWrite.text : LogWrite → String
  | .pam record => record.line
  | .audit record => formatRecord record

def logContents (writes : List LogWrite) : String :=
  writes.foldl (fun file write => file ++ write.text) ""

def LogWrite.pam? : LogWrite → Option Pam.LastLogRecord
  | .pam record => some record
  | .audit _ => none

/-- The last record that the PAM module wrote. -/
def lastPam (writes : List LogWrite) : Option Pam.LastLogRecord :=
  (writes.filterMap LogWrite.pam?).getLast?

/-! ## The readers -/

def readLines (text : String) : List String := (lines text.toList).map String.ofList

/-- `line.trim().is_empty()`. -/
def isBlank (line : String) : Bool := line.toList.all isWhitespace

def splitAsciiWhitespace (line : String) : List String :=
  (wordsBy isAsciiWhitespace line.toList).map String.ofList

structure LastUnlockEntry where
  timestamp : String
  outcome : String
  peerId : String
  deriving DecidableEq

inductive LastUnlockView where
  | noEntries
  | entry (entry : LastUnlockEntry)
  | unparseable (raw : String)
  deriving DecidableEq

def lastUnlockLogMaxLines : Nat := 64
def doctorLastLogTail : Nat := 10
def doctorLogMaxReadLines : Nat := 4096

section Readers

-- whether `OffsetDateTime::parse` accepts the text as RFC 3339
variable (rfc3339 : String → Bool)

def parseLastLogLine (line : String) : Option LastUnlockEntry :=
  let line := String.ofList (line.toList.rdropWhile fun c => c == '\n' || c == '\r')
  match splitAsciiWhitespace line with
  | [ts, outcome, peerId] =>
      if outcome ≠ "success" ∧ outcome ≠ "failure" then none
      else if rfc3339 ts then some ⟨ts, outcome, peerId⟩
      else none
  | _ => none

/-- The loop of `read_last_unlock`. -/
def lastNonEmpty (linesRead : Nat) (last : Option String) : List String → Option String
  | [] => last
  | line :: rest =>
      if linesRead ≥ lastUnlockLogMaxLines then last
      else lastNonEmpty (linesRead + 1) (if isBlank line then last else some line) rest

/-- `read_last_unlock` of a file that is there or not. -/
def readLastUnlock : Option String → LastUnlockView
  | none => .noEntries
  | some contents =>
      match lastNonEmpty 0 none (readLines contents) with
      | none => .noEntries
      | some raw =>
          match parseLastLogLine rfc3339 raw with
          | some entry => .entry entry
          | none => .unparseable raw

/-- The loop of `probe_audit_log_tail`. -/
def collectTail (read : Nat) (tail : List String) : List String → List String
  | [] => tail
  | line :: rest =>
      if read ≥ doctorLogMaxReadLines then tail
      else if isBlank line then collectTail (read + 1) tail rest
      else
        let kept := if tail.length = doctorLastLogTail then tail.drop 1 else tail
        collectTail (read + 1) (kept ++ [line]) rest

def probeAuditLogTail : Option String → List String
  | none => []
  | some contents => collectTail 0 [] (readLines contents)

end Readers

/-! ## The lines of the file -/

def LogWrite.lines (write : LogWrite) : List String := readLines write.text

theorem LogWrite.terminated (write : LogWrite) :
    ∃ body, write.text.toList = body ++ ['\n'] := by
  cases write with
  | pam record =>
      refine ⟨(record.ts ++ " " ++ record.verb ++ " " ++ record.peerId).toList, ?_⟩
      rw [LogWrite.text, Pam.LastLogRecord.line, String.toList_append]
      rfl
  | audit record => exact ⟨record.line, toList_formatRecord record⟩

/-- The lines of the file are those of the writes, one write after the other. -/
theorem readLines_logContents (writes : List LogWrite) :
    readLines (logContents writes) = writes.flatMap LogWrite.lines := by
  have hcontents : ∀ file : String,
      (writes.foldl (fun file write => file ++ write.text) file).toList =
        file.toList ++ writes.flatMap fun write => write.text.toList := by
    induction writes with
    | nil => intro file; exact (List.append_nil _).symm
    | cons write writes ih =>
        intro file
        rw [List.foldl_cons, ih, String.toList_append, List.append_assoc, List.flatMap_cons]
  have hlines : ∀ rest : List LogWrite,
      (lines (rest.flatMap fun write => write.text.toList)).map String.ofList =
        rest.flatMap LogWrite.lines := by
    intro rest
    induction rest with
    | nil => rfl
    | cons write rest ih =>
        obtain ⟨body, hbody⟩ := write.terminated
        rw [List.flatMap_cons, List.flatMap_cons, ← ih, LogWrite.lines, readLines, hbody,
          List.append_assoc, List.singleton_append, lines_append, List.map_append]
  rw [readLines, logContents, hcontents]
  exact hlines writes

/-! ## What the readers compute -/

variable {rfc3339 : String → Bool} {line : String} {entry : LastUnlockEntry}

theorem lastNonEmpty_eq (linesRead : Nat) (last : Option String) (rest : List String) :
    lastNonEmpty linesRead last rest =
      ((rest.take (lastUnlockLogMaxLines - linesRead)).filter
        fun line => !isBlank line).getLast?.or last := by
  induction rest generalizing linesRead last with
  | nil => simp [lastNonEmpty]
  | cons line rest ih =>
      rw [lastNonEmpty]
      split
      · next hcap => simp [Nat.sub_eq_zero_of_le hcap]
      · next hcap =>
          have hleft : lastUnlockLogMaxLines - linesRead =
              lastUnlockLogMaxLines - (linesRead + 1) + 1 := by omega
          rw [ih, hleft, List.take_succ_cons, List.filter_cons]
          cases isBlank line with
          | true => rfl
          | false =>
              simp only [Bool.not_false, if_true, Bool.false_eq_true, if_false]
              rw [List.getLast?_cons, Option.or_some, Option.some_or]

/-- A window of fixed length moves on by one. -/
theorem rtake_concat (seen : List String) (line : String) :
    (if (seen.rtake doctorLastLogTail).length = doctorLastLogTail then
      (seen.rtake doctorLastLogTail).drop 1 else seen.rtake doctorLastLogTail) ++ [line] =
      (seen ++ [line]).rtake doctorLastLogTail := by
  have hwindow : (if (seen.rtake doctorLastLogTail).length = doctorLastLogTail then
      (seen.rtake doctorLastLogTail).drop 1 else seen.rtake doctorLastLogTail) = seen.rtake 9 := by
    simp only [List.rtake, List.length_drop, List.drop_drop, doctorLastLogTail]
    split
    · congr 1
      omega
    · have hall : seen.length - 10 = 0 ∧ seen.length - 9 = 0 := by omega
      rw [hall.1, hall.2]
  rw [hwindow]
  exact (List.rtake_concat_succ seen 9 line).symm

theorem collectTail_eq (read : Nat) (seen rest : List String) :
    collectTail read (seen.rtake doctorLastLogTail) rest =
      (seen ++ (rest.take (doctorLogMaxReadLines - read)).filter fun line => !isBlank line).rtake
        doctorLastLogTail := by
  induction rest generalizing read seen with
  | nil => simp [collectTail]
  | cons line rest ih =>
      rw [collectTail]
      split
      · next hcap => simp [Nat.sub_eq_zero_of_le hcap]
      · next hcap =>
          have hleft : doctorLogMaxReadLines - read =
              doctorLogMaxReadLines - (read + 1) + 1 := by omega
          rw [hleft, List.take_succ_cons, List.filter_cons]
          cases isBlank line with
          | true => exact ih (read + 1) seen
          | false =>
              simp only [rtake_concat, Bool.false_eq_true, if_false]
              rw [ih]
              simp

theorem splitAsciiWhitespace_trimmed (line : String) :
    splitAsciiWhitespace
      (String.ofList (line.toList.rdropWhile fun c => c == '\n' || c == '\r')) =
      splitAsciiWhitespace line := by
  have hends : ∀ c ∈ line.toList.rtakeWhile (fun c => c == '\n' || c == '\r'),
      isAsciiWhitespace c = true := by
    intro c hmem
    have hend := List.mem_rtakeWhile_imp hmem
    simp only [Bool.or_eq_true, beq_iff_eq] at hend
    rcases hend with rfl | rfl
    · rfl
    · rfl
  have hsplit := wordsBy_append_seps
    (line.toList.rdropWhile fun c => c == '\n' || c == '\r') hends
  rw [List.rdropWhile_append_rtakeWhile] at hsplit
  rw [splitAsciiWhitespace, splitAsciiWhitespace, hsplit, String.toList_ofList]

theorem parseLastLogLine_eq_some_iff :
    parseLastLogLine rfc3339 line = some entry ↔
      splitAsciiWhitespace line = [entry.timestamp, entry.outcome, entry.peerId] ∧
        (entry.outcome = "success" ∨ entry.outcome = "failure") ∧
        rfc3339 entry.timestamp = true := by
  simp only [parseLastLogLine, splitAsciiWhitespace_trimmed]
  split
  · next ts outcome peerId hwords =>
      obtain ⟨timestamp, verb, peer⟩ := entry
      rw [hwords]
      split
      · next hverb =>
          constructor
          · intro hnone
            cases hnone
          · rintro ⟨hsame, hword, -⟩
            simp only [List.cons.injEq, and_true] at hsame
            obtain ⟨-, rfl, -⟩ := hsame
            exact absurd hword (not_or.mpr hverb)
      · next hverb =>
          split
          · next hparses =>
              constructor
              · intro hsome
                cases hsome
                exact ⟨rfl, not_not.mp (mt not_or.mp hverb), hparses⟩
              · rintro ⟨hsame, -, -⟩
                cases hsame
                rfl
          · next hparses =>
              constructor
              · intro hnone
                cases hnone
              · rintro ⟨hsame, -, hparses'⟩
                cases hsame
                exact absurd hparses' hparses
  · next hwords =>
      constructor
      · intro hnone
        cases hnone
      · intro hentry
        exact absurd hentry.1 (hwords _ _ _)

/-- The last line that is not blank has only blank ones behind it. -/
theorem getLast?_filter_not_blank (rest : List String) :
    (rest.filter fun line => !isBlank line).getLast? = some line ↔
      isBlank line = false ∧ ∃ front blanks, rest = front ++ line :: blanks ∧
        ∀ blank ∈ blanks, isBlank blank = true := by
  rw [List.getLast?_eq_head?_reverse, ← List.filter_reverse, List.head?_filter,
    List.find?_eq_some_iff_append, Bool.not_eq_true']
  refine and_congr_right fun _ => ?_
  constructor
  · rintro ⟨blanks, front, hreverse, hblanks⟩
    refine ⟨front.reverse, blanks.reverse, ?_, ?_⟩
    · rw [← List.reverse_reverse rest, hreverse]
      simp
    · intro blank hmem
      simpa using hblanks blank (List.mem_reverse.mp hmem)
  · rintro ⟨front, blanks, rfl, hblanks⟩
    refine ⟨blanks.reverse, front.reverse, by simp, ?_⟩
    intro blank hmem
    simpa using hblanks blank (List.mem_reverse.mp hmem)

/-- What `status` shows is the last line among the first ones that is not blank. -/
theorem readLastUnlock_eq_entry_iff {contents : String} :
    readLastUnlock rfc3339 (some contents) = .entry entry ↔
      ∃ front line blanks,
        (readLines contents).take lastUnlockLogMaxLines = front ++ line :: blanks ∧
        (∀ blank ∈ blanks, isBlank blank = true) ∧ isBlank line = false ∧
        parseLastLogLine rfc3339 line = some entry := by
  simp only [readLastUnlock, lastNonEmpty_eq, Nat.sub_zero, Option.or_none]
  constructor
  · intro hview
    split at hview
    · cases hview
    · next raw hlast =>
        split at hview
        · next shown hparse =>
            cases hview
            obtain ⟨hblank, front, blanks, htake, hblanks⟩ := (getLast?_filter_not_blank _).mp hlast
            exact ⟨front, raw, blanks, htake, hblanks, hblank, hparse⟩
        · cases hview
  · rintro ⟨front, line, blanks, htake, hblanks, hblank, hparse⟩
    have hlast := (getLast?_filter_not_blank _).mpr ⟨hblank, front, blanks, htake, hblanks⟩
    simp only [hlast, hparse]

theorem probeAuditLogTail_eq (contents : String) :
    probeAuditLogTail (some contents) =
      (((readLines contents).take doctorLogMaxReadLines).filter fun line => !isBlank line).rtake
        doctorLastLogTail := by
  have hempty : ([] : List String) = ([] : List String).rtake doctorLastLogTail := rfl
  rw [probeAuditLogTail, hempty, collectTail_eq]
  rfl

/-! ## When the readers agree with the writers -/

/-- `status` shows the last record of the PAM module and `doctor` the last ten lines that
are not blank. -/
structure ReadersAgree (rfc3339 : String → Bool) (writes : List LogWrite) : Prop where
  status : ∀ record, lastPam writes = some record →
    readLastUnlock rfc3339 (some (logContents writes)) =
      .entry ⟨record.ts, record.verb, record.peerId⟩
  doctor : probeAuditLogTail (some (logContents writes)) =
    ((readLines (logContents writes)).filter fun line => !isBlank line).rtake 10

/-- A line of the three words of the record, the first of them a time. -/
structure Spells (rfc3339 : String → Bool) (record : Pam.LastLogRecord) (line : String) : Prop where
  words : splitAsciiWhitespace line = [record.ts, record.verb, record.peerId]
  time : rfc3339 record.ts = true

/-- One of the first 64 lines spells the record, and only blank ones follow it there. -/
def ShownByStatus (rfc3339 : String → Bool) (record : Pam.LastLogRecord)
    (lines : List String) : Prop :=
  ∃ front line blanks, lines.take 64 = front ++ line :: blanks ∧ Spells rfc3339 record line ∧
    ∀ blank ∈ blanks, isBlank blank = true

/-- The lines that are not blank, the last one first. -/
def newestFirst (lines : List String) : List String :=
  (lines.filter fun line => !isBlank line).reverse

/-- The lines that are not blank behind the 4096th. -/
def linesMissed (lines : List String) : Nat := (lines.drop 4096).countP fun line => !isBlank line

/-- Each of the last ten lines is the same as the one that precedes it by the number of
missed ones: none is missed, or the log repeats itself. -/
def ShownByDoctor (lines : List String) : Prop :=
  ∀ k < 10, (newestFirst lines)[k]? = (newestFirst lines)[linesMissed lines + k]?

structure WithinCaps (rfc3339 : String → Bool) (writes : List LogWrite) : Prop where
  status : ∀ record, lastPam writes = some record →
    ShownByStatus rfc3339 record (writes.flatMap LogWrite.lines)
  doctor : ShownByDoctor (writes.flatMap LogWrite.lines)

theorem verb_eq (record : Pam.LastLogRecord) :
    record.verb = "success" ∨ record.verb = "failure" := by
  unfold Pam.LastLogRecord.verb
  split
  · exact .inl rfl
  · exact .inr rfl

theorem Spells.not_blank {record : Pam.LastLogRecord} (hspells : Spells rfc3339 record line) :
    isBlank line = false := by
  have hverb : record.verb ∈ splitAsciiWhitespace line := by
    rw [hspells.words]
    simp
  obtain ⟨word, hword, hofList⟩ := List.mem_map.mp hverb
  have hletter : ∃ c ∈ record.verb.toList, isWhitespace c = false := by
    rcases verb_eq record with hsuccess | hfailure
    · rw [hsuccess]
      exact ⟨'s', by decide, by decide⟩
    · rw [hfailure]
      exact ⟨'f', by decide, by decide⟩
  obtain ⟨c, hc, hblack⟩ := hletter
  rw [← hofList, String.toList_ofList] at hc
  rw [isBlank, List.all_eq_false]
  exact ⟨c, (isInfix_of_mem_wordsBy hword).subset hc, by rw [hblack]; decide⟩

theorem parseLastLogLine_iff_spells {record : Pam.LastLogRecord} :
    parseLastLogLine rfc3339 line = some ⟨record.ts, record.verb, record.peerId⟩ ↔
      Spells rfc3339 record line := by
  rw [parseLastLogLine_eq_some_iff]
  constructor
  · rintro ⟨hwords, -, htime⟩
    exact ⟨hwords, htime⟩
  · rintro ⟨hwords, htime⟩
    exact ⟨hwords, verb_eq record, htime⟩

theorem readLastUnlock_iff_shown {record : Pam.LastLogRecord} {contents : String} :
    readLastUnlock rfc3339 (some contents) = .entry ⟨record.ts, record.verb, record.peerId⟩ ↔
      ShownByStatus rfc3339 record (readLines contents) := by
  rw [readLastUnlock_eq_entry_iff]
  constructor
  · rintro ⟨front, line, blanks, htake, hblanks, -, hparse⟩
    exact ⟨front, line, blanks, htake, parseLastLogLine_iff_spells.mp hparse, hblanks⟩
  · rintro ⟨front, line, blanks, htake, hspells, hblanks⟩
    exact ⟨front, line, blanks, htake, hblanks, hspells.not_blank,
      parseLastLogLine_iff_spells.mpr hspells⟩

theorem rtake_eq_rtake_iff {α : Type*} {n : Nat} {first second : List α} :
    first.rtake n = second.rtake n ↔ ∀ k < n, second.reverse[k]? = first.reverse[k]? := by
  rw [List.rtake_eq_reverse_take_reverse, List.rtake_eq_reverse_take_reverse, List.reverse_inj]
  constructor
  · intro htake k hk
    have hget := congrArg (·[k]?) htake
    simpa [List.getElem?_take_of_lt hk] using hget.symm
  · intro hget
    apply List.ext_getElem?
    intro k
    by_cases hk : k < n
    · rw [List.getElem?_take_of_lt hk, List.getElem?_take_of_lt hk, hget k hk]
    · rw [List.getElem?_take_eq_none (Nat.le_of_not_lt hk),
        List.getElem?_take_eq_none (Nat.le_of_not_lt hk)]

/-- Behind the missed lines come those that `doctor` reads. -/
theorem getElem?_newestFirst_missed (lines : List String) (k : Nat) :
    (newestFirst lines)[linesMissed lines + k]? = (newestFirst (lines.take 4096))[k]? := by
  have hsplit : newestFirst lines =
      newestFirst (lines.drop 4096) ++ newestFirst (lines.take 4096) := by
    rw [newestFirst, newestFirst, newestFirst, ← List.reverse_append, ← List.filter_append,
      List.take_append_drop]
  have hmissed : linesMissed lines = (newestFirst (lines.drop 4096)).length := by
    rw [linesMissed, newestFirst, List.length_reverse, List.countP_eq_length_filter]
  rw [hsplit, hmissed, List.getElem?_append_right (Nat.le_add_right _ k), Nat.add_sub_cancel_left]

/-- The last line that is not blank is the one that is shown. -/
theorem ShownByStatus.spells_last {record : Pam.LastLogRecord} {lines front : List String}
    {last : String} (hshown : ShownByStatus rfc3339 record lines)
    (htake : lines.take 64 = front ++ [last]) (hlast : isBlank last = false) :
    Spells rfc3339 record last := by
  obtain ⟨front', line, blanks, hcut, hspells, hblanks⟩ := hshown
  rw [htake] at hcut
  rcases List.eq_nil_or_concat blanks with rfl | ⟨init, blank, rfl⟩
  · obtain ⟨-, hsame⟩ := List.append_inj' hcut rfl
    rw [List.singleton_inj.mp hsame]
    exact hspells
  · rw [List.concat_eq_append, ← List.cons_append, ← List.append_assoc] at hcut
    obtain ⟨-, hsame⟩ := List.append_inj' hcut rfl
    rw [List.singleton_inj.mp hsame, hblanks blank (by simp)] at hlast
    cases hlast

theorem probeAuditLogTail_iff_shown {contents : String} :
    probeAuditLogTail (some contents) =
        ((readLines contents).filter fun line => !isBlank line).rtake 10 ↔
      ShownByDoctor (readLines contents) := by
  rw [probeAuditLogTail_eq]
  refine rtake_eq_rtake_iff.trans (forall₂_congr fun k _ => ?_)
  rw [getElem?_newestFirst_missed]
  rfl

/-- Over any sequence of appends of the two writers. -/
theorem readersAgree_iff_withinCaps (rfc3339 : String → Bool) (writes : List LogWrite) :
    ReadersAgree rfc3339 writes ↔ WithinCaps rfc3339 writes := by
  constructor
  · rintro ⟨hstatus, hdoctor⟩
    constructor
    · intro record hlast
      rw [← readLines_logContents]
      exact readLastUnlock_iff_shown.mp (hstatus record hlast)
    · rw [← readLines_logContents]
      exact probeAuditLogTail_iff_shown.mp hdoctor
  · rintro ⟨hstatus, hdoctor⟩
    rw [← readLines_logContents] at hdoctor
    refine ⟨fun record hlast => ?_, probeAuditLogTail_iff_shown.mpr hdoctor⟩
    have hshown := hstatus record hlast
    rw [← readLines_logContents] at hshown
    exact readLastUnlock_iff_shown.mpr hshown

/-! ## Logs that are misread -/

def sampleTime : String := "2026-05-10T12:34:56Z"

def sampleRfc3339 (ts : String) : Bool := ts == sampleTime

def failed : Pam.LastLogRecord :=
  ⟨some sampleTime, .authInfoUnavail Pam.reasonNoBondsConfigured none⟩

def granted : Pam.LastLogRecord := ⟨some sampleTime, .success "deadbeef"⟩

/-- A number of failures before the success. -/
def failuresFirst (n : Nat) : List LogWrite := List.replicate n (.pam failed) ++ [.pam granted]

theorem lines_granted : LogWrite.lines (.pam granted) = [sampleTime ++ " success deadbeef"] := by
  decide

theorem lines_failuresFirst (n : Nat) :
    (failuresFirst n).flatMap LogWrite.lines =
      List.replicate n (sampleTime ++ " failure unknown") ++
        [sampleTime ++ " success deadbeef"] := by
  have hfailed : LogWrite.lines (.pam failed) = [sampleTime ++ " failure unknown"] := by decide
  rw [failuresFirst, List.flatMap_append, List.flatMap_replicate, hfailed, List.flatMap_singleton,
    lines_granted, List.flatten_replicate_singleton]

theorem lastPam_failuresFirst (n : Nat) : lastPam (failuresFirst n) = some granted := by
  rw [lastPam, failuresFirst, List.filterMap_append, List.getLast?_append]
  rfl

/-- A record of the daemon is no entry to `status`, and hides the one before. -/
theorem status_misses_before_audit :
    readLastUnlock sampleRfc3339
        (some (logContents [.pam granted, .audit (unknownRecord "deadbeef")])) ≠
      .entry ⟨granted.ts, granted.verb, granted.peerId⟩ := by
  have haudit : LogWrite.lines (.audit (unknownRecord "deadbeef")) =
      ["deadbeef,00000000000000000000000000000000,0,0,unknown-peer,unknown-peer"] := by decide
  rw [Ne, readLastUnlock_iff_shown, readLines_logContents, List.flatMap_cons, lines_granted,
    List.flatMap_singleton, haudit]
  intro hshown
  have hwords := (hshown.spells_last (List.take_of_length_le (by decide)) (by decide)).words
  revert hwords
  decide

/-- After 64 lines `status` stays with the last of them. -/
theorem status_misses_granted :
    readLastUnlock sampleRfc3339 (some (logContents (failuresFirst 64))) ≠
      .entry ⟨granted.ts, granted.verb, granted.peerId⟩ := by
  rw [Ne, readLastUnlock_iff_shown, readLines_logContents, lines_failuresFirst]
  intro hshown
  have htake : (List.replicate 64 (sampleTime ++ " failure unknown") ++
      [sampleTime ++ " success deadbeef"]).take 64 =
        List.replicate 63 (sampleTime ++ " failure unknown") ++
          [sampleTime ++ " failure unknown"] := by
    rw [List.take_left' List.length_replicate]
    exact List.replicate_succ'
  have hwords := (hshown.spells_last htake (by decide)).words
  revert hwords
  decide

/-- After 4096 lines `doctor` stays with the ten before. -/
theorem doctor_misses_granted :
    probeAuditLogTail (some (logContents (failuresFirst 4096))) ≠
      ((readLines (logContents (failuresFirst 4096))).filter
        fun line => !isBlank line).rtake 10 := by
  rw [Ne, probeAuditLogTail_iff_shown, readLines_logContents, lines_failuresFirst]
  intro hshown
  have hfirst := hshown 0 (by decide)
  have hfailed : isBlank (sampleTime ++ " failure unknown") = false := by decide
  have hgranted : isBlank (sampleTime ++ " success deadbeef") = false := by decide
  rw [getElem?_newestFirst_missed, List.take_left' List.length_replicate, newestFirst, newestFirst,
    List.filter_append, List.filter_replicate_of_pos (by rw [hfailed]; rfl), List.reverse_append,
    List.reverse_replicate, List.getElem?_replicate_of_lt (by decide)] at hfirst
  simp only [List.filter_cons, hgranted] at hfirst
  revert hfirst
  decide

/-- A success that a record of the daemon follows, one that comes after 64 failures, and
one that comes after 4096 of them. -/
theorem readers_disagree :
    ¬ ReadersAgree sampleRfc3339 [.pam granted, .audit (unknownRecord "deadbeef")] ∧
      ¬ ReadersAgree sampleRfc3339 (failuresFirst 64) ∧
      ¬ ReadersAgree sampleRfc3339 (failuresFirst 4096) := by
  refine ⟨fun hagree => ?_, fun hagree => ?_, fun hagree => ?_⟩
  · exact status_misses_before_audit (hagree.status granted rfl)
  · exact status_misses_granted (hagree.status granted (lastPam_failuresFirst 64))
  · exact doctor_misses_granted hagree.doctor

end Syauth.Cli
