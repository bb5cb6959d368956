import Syauth.Presenced.Steps
import Syauth.Text.Delimited
import Mathlib.Data.Set.Defs

/-! # The text of the audit log

`audit.rs` writes a record as one line of six columns with commas between them and
quotes nothing.  All columns but the first are drawn by the daemon from digits and
fixed words; the first is the identifier of the request as the client sent it.
-/

namespace Syauth.Presenced

open Transport Text

def auditFieldSeparator : String := ","

def formatRecord (record : AuditRecord) : String :=
  record.peerId ++ auditFieldSeparator ++ record.nonceHex ++ auditFieldSeparator ++
    toString record.tStartMs ++ auditFieldSeparator ++ toString record.tEndMs ++
    auditFieldSeparator ++ record.outcome ++ auditFieldSeparator ++ record.reason ++ "\n"

/-- `AuditLog::append` with a write that succeeds. -/
def appendRecord (file : String) (record : AuditRecord) : String :=
  file ++ formatRecord record

/-- The file after the records were appended to an empty one. -/
def fileContents (records : List AuditRecord) : String :=
  records.foldl appendRecord ""

/-- One line, terminated, with six fields between commas. -/
def IsRecordLine (text : String) : Prop :=
  ∃ line, text.toList = line ++ ['\n'] ∧ '\n' ∉ line ∧ (line.splitOn ',').length = 6

/-! ## Columns -/

/-- Text without the two delimiters of the format. -/
structure PlainText (text : String) : Prop where
  comma : ',' ∉ text.toList
  newline : '\n' ∉ text.toList

theorem plainText_hexLowercase (bytes : Bytes) : PlainText (hexLowercase bytes) := by
  have habsent : ∀ c, c ∉ hexChars → c ∉ (hexLowercase bytes).toList :=
    fun c hnotMem hmem => hnotMem (mem_hexChars_of_mem_hexLowercase hmem)
  exact ⟨habsent ',' (by decide), habsent '\n' (by decide)⟩

theorem plainText_zeroNonceHex : PlainText zeroNonceHex :=
  ⟨by decide, by decide⟩

theorem plainText_reasonStr (outcome : ChallengeOutcome) : PlainText outcome.reasonStr := by
  cases outcome with
  | transportError err =>
      exact ⟨show ',' ∉ ChallengeOutcome.reasonTransportError.toList by decide,
        show '\n' ∉ ChallengeOutcome.reasonTransportError.toList by decide⟩
  | ok signature =>
      exact ⟨show ',' ∉ ChallengeOutcome.reasonOk.toList by decide,
        show '\n' ∉ ChallengeOutcome.reasonOk.toList by decide⟩
  | _ => exact ⟨by decide, by decide⟩

theorem plainText_toString (n : Nat) : PlainText (toString n) := by
  have hdigits : ∀ c ∈ (toString n).toList, c.isDigit = true := by
    intro c hmem
    rw [Nat.toString_eq_repr, Nat.toList_repr] at hmem
    exact Nat.isDigit_of_mem_toDigits (by decide) (by decide) hmem
  constructor
  · intro hmem
    exact absurd (hdigits _ hmem) (by decide)
  · intro hmem
    exact absurd (hdigits _ hmem) (by decide)

theorem toString_nat_inj {n m : Nat} (hsame : toString n = toString m) : n = m := by
  have hdigits := congrArg String.toList hsame
  rw [Nat.toString_eq_repr, Nat.toString_eq_repr, Nat.toList_repr, Nat.toList_repr] at hdigits
  have hvalue := congrArg (fun digits => Nat.ofDigitChars 10 digits 0) hdigits
  simpa only [Nat.ofDigitChars_ten_toDigits] using hvalue

/-- The columns the daemon fills in by itself. -/
def AuditRecord.columns (record : AuditRecord) : List String :=
  [record.nonceHex, toString record.tStartMs, toString record.tEndMs, record.outcome,
    record.reason]

def AuditRecord.line (record : AuditRecord) : List Char :=
  [','].intercalate (record.peerId.toList :: record.columns.map String.toList)

theorem toList_formatRecord (record : AuditRecord) :
    (formatRecord record).toList = record.line ++ ['\n'] := by
  have hcomma : ",".toList = [','] := rfl
  have hnewline : "\n".toList = ['\n'] := rfl
  simp only [formatRecord, auditFieldSeparator, String.toList_append, hcomma, hnewline,
    AuditRecord.line, AuditRecord.columns, List.map_cons, List.map_nil,
    List.intercalate_cons_cons, List.intercalate_singleton, List.append_assoc]

theorem toList_fileContents (records : List AuditRecord) :
    (fileContents records).toList = terminated '\n' (records.map AuditRecord.line) := by
  have hfold : ∀ file : String, (records.foldl appendRecord file).toList =
      file.toList ++ terminated '\n' (records.map AuditRecord.line) := by
    induction records with
    | nil => intro file; exact (List.append_nil _).symm
    | cons record records ih =>
        intro file
        rw [List.foldl_cons, ih, appendRecord, String.toList_append, toList_formatRecord,
          List.map_cons, terminated_cons]
        simp only [List.append_assoc, List.cons_append, List.nil_append]
  exact hfold ""

/-! ## Reading a record back -/

/-- The columns that the daemon fills in hold no delimiter. -/
def AuditRecord.Plain (record : AuditRecord) : Prop :=
  ∀ column ∈ record.columns, PlainText column

variable {record other : AuditRecord}

theorem newline_mem_line (hplain : record.Plain) :
    '\n' ∈ record.line ↔ '\n' ∈ record.peerId.toList := by
  have hcolumn := fun column hmem => (hplain column hmem).newline
  simp only [AuditRecord.columns, List.forall_mem_cons] at hcolumn
  obtain ⟨hnonce, hstart, hend, houtcome, hreason, -⟩ := hcolumn
  simp only [AuditRecord.line, AuditRecord.columns, List.map_cons, List.map_nil,
    List.intercalate_cons_cons, List.intercalate_singleton, List.mem_append, List.mem_singleton,
    hnonce, hstart, hend, houtcome, hreason, or_false, Char.reduceEq]

/-- The commas of the daemon's own columns are the separators. -/
theorem splitOn_line (hplain : record.Plain) :
    record.line.splitOn ',' =
      record.peerId.toList.splitOn ',' ++ record.columns.map String.toList := by
  have hline : record.line =
      record.peerId.toList ++ ',' :: [','].intercalate (record.columns.map String.toList) := by
    simp [AuditRecord.line, AuditRecord.columns, List.intercalate_cons_cons]
  have hcolumns : ∀ column ∈ record.columns.map String.toList, ',' ∉ column := by
    intro column hmem
    obtain ⟨text, htext, rfl⟩ := List.mem_map.mp hmem
    exact (hplain text htext).comma
  rw [hline, List.splitOn_append_cons_self, List.splitOn_intercalate ',' hcolumns]
  exact List.cons_ne_nil _ _

/-- A record of the daemon is a line of six fields exactly for an identifier without
delimiters. -/
theorem isRecordLine_formatRecord (hplain : record.Plain) :
    IsRecordLine (formatRecord record) ↔ PlainText record.peerId := by
  have hlength : (record.line.splitOn ',').length = 6 ↔ ',' ∉ record.peerId.toList := by
    rw [← length_splitOn_eq_one_iff, splitOn_line hplain, List.length_append, List.length_map]
    change _ + 5 = 6 ↔ _
    omega
  constructor
  · rintro ⟨line, htext, hnewline, hfields⟩
    rw [toList_formatRecord] at htext
    obtain rfl := List.append_cancel_right htext
    exact ⟨hlength.mp hfields, fun hmem => hnewline ((newline_mem_line hplain).mpr hmem)⟩
  · intro hpeer
    refine ⟨record.line, toList_formatRecord record, ?_, hlength.mpr hpeer.comma⟩
    exact fun hmem => hpeer.newline ((newline_mem_line hplain).mp hmem)

theorem line_inj (hplain : record.Plain) (hpeer : PlainText record.peerId) (hother : other.Plain)
    (hpeer' : PlainText other.peerId) (hsame : record.line = other.line) : record = other := by
  have hfields := congrArg (List.splitOn ',') hsame
  rw [splitOn_line hplain, splitOn_line hother, List.splitOn_eq_singleton hpeer.comma,
    List.splitOn_eq_singleton hpeer'.comma] at hfields
  simp only [AuditRecord.columns, List.map_cons, List.map_nil, List.cons_append, List.nil_append,
    List.cons.injEq, String.toList_inj, and_true] at hfields
  obtain ⟨hid, hnonce, hstart, hend, houtcome, hreason⟩ := hfields
  cases record
  cases other
  simp only [AuditRecord.mk.injEq]
  exact ⟨hid, hnonce, toString_nat_inj hstart, toString_nat_inj hend, houtcome, hreason⟩

/-- Files of such records determine them. -/
theorem fileContents_inj {first second : List AuditRecord}
    (hfirst : ∀ record ∈ first, record.Plain ∧ PlainText record.peerId)
    (hsecond : ∀ record ∈ second, record.Plain ∧ PlainText record.peerId)
    (hsame : fileContents first = fileContents second) : first = second := by
  have hlines : ∀ records : List AuditRecord,
      (∀ record ∈ records, record.Plain ∧ PlainText record.peerId) →
      ∀ line ∈ records.map AuditRecord.line, '\n' ∉ line := by
    intro records hrecords line hmem
    obtain ⟨record, hrecord, rfl⟩ := List.mem_map.mp hmem
    obtain ⟨hplain, hpeer⟩ := hrecords record hrecord
    exact fun hnewline => hpeer.newline ((newline_mem_line hplain).mp hnewline)
  have htext := congrArg String.toList hsame
  rw [toList_fileContents, toList_fileContents] at htext
  have hmap := terminated_inj (hlines first hfirst) (hlines second hsecond) htext
  clear htext hsame hlines
  induction first generalizing second with
  | nil => exact (List.map_eq_nil_iff.mp hmap.symm).symm
  | cons record first ih =>
      cases second with
      | nil => cases hmap
      | cons other second =>
          obtain ⟨hline, hrest⟩ := List.cons.inj hmap
          obtain ⟨⟨hplain, hpeer⟩, hfirst⟩ := List.forall_mem_cons.mp hfirst
          obtain ⟨⟨hother, hpeer'⟩, hsecond⟩ := List.forall_mem_cons.mp hsecond
          rw [line_inj hplain hpeer hother hpeer' hline, ih hfirst hsecond hrest]

/-! ## The records of a run -/

variable {prim : Primitives} {sent : Set String} {s t : State} {c : CallId} {peerId : String}
variable {nonce : Bytes}

theorem AuditRecord.plain_at {nonceHex reason : String} {tStartMs tEndMs : Nat}
    (hnonce : PlainText nonceHex) (hreason : PlainText reason) :
    (AuditRecord.at peerId nonceHex tStartMs tEndMs reason).Plain := by
  simp only [AuditRecord.Plain, AuditRecord.at, AuditRecord.columns, List.forall_mem_cons]
  exact ⟨hnonce, plainText_toString _, plainText_toString _, hreason, hreason,
    fun _ hmem => absurd hmem List.not_mem_nil⟩

/-- A record about to be written is one for the call's own peer, with plain columns. -/
def Phase.Recording (peerId : String) : Phase → Prop
  | .auditing record _ => record.peerId = peerId ∧ record.Plain
  | _ => True

theorem recording_conclude {tx : Transaction} {now : SystemTime} {reason : String}
    {outcome : ChallengeOutcome} (hreason : PlainText reason) :
    (tx.conclude peerId now reason outcome).Recording peerId :=
  ⟨rfl, AuditRecord.plain_at (plainText_hexLowercase _) hreason⟩

theorem recording_drawPhase {tStartMs : Nat} {peer : PeerState} (random : Except String Nonce)
    (now : SystemTime) : (drawPhase prim peerId tStartMs peer random now).Recording peerId := by
  cases random with
  | error err =>
      exact ⟨rfl, AuditRecord.plain_at plainText_zeroNonceHex
        (plainText_reasonStr (.transportError (.backend err)))⟩
  | ok drawn =>
      simp only [drawPhase, buildChallenge_eq]
      trivial

theorem recording_respondedPhase {tx : Transaction} (result : Except PeripheralError Bytes)
    (now : SystemTime) : (respondedPhase prim peerId tx result now).Recording peerId := by
  cases result with
  | error err =>
      cases err with
      | responseTimeout peer deadlineMs => exact recording_conclude (plainText_reasonStr .timedOut)
      | _ => exact recording_conclude (plainText_reasonStr _)
  | ok response =>
      simp only [respondedPhase]
      split
      · exact recording_conclude (plainText_reasonStr .badSignature)
      · trivial

theorem CallStep.recording {phase phase' : Phase} {event : CallEvent}
    (hcall : CallStep prim s c ⟨.challenge peerId nonce, phase⟩ event t)
    (hnext : t.connections c = some ⟨.challenge peerId nonce, phase'⟩) :
    phase'.Recording peerId := by
  cases hcall with
  | unknown =>
      obtain rfl := State.phase_of_advance hnext
      exact ⟨rfl, AuditRecord.plain_at plainText_zeroNonceHex (plainText_reasonStr .unknownPeer)⟩
  | busy =>
      obtain rfl := State.phase_of_advance hnext
      exact ⟨rfl, AuditRecord.plain_at plainText_zeroNonceHex (plainText_reasonStr .busy)⟩
  | drew =>
      obtain rfl := State.phase_of_advance hnext
      exact recording_drawPhase _ _
  | @notified _ _ tx result now =>
      obtain rfl := State.phase_of_advance hnext
      cases result with
      | error err => exact recording_conclude (plainText_reasonStr _)
      | ok value => trivial
  | responded =>
      obtain rfl := State.phase_of_advance hnext
      exact recording_respondedPhase _ _
  | replayed =>
      obtain rfl := State.phase_of_advance hnext
      exact recording_conclude (plainText_reasonStr .replay)
  | @accepted _ _ tx signature now =>
      obtain rfl := State.phase_of_advance (s := s) hnext
      exact recording_conclude (plainText_reasonStr (.ok signature))
  | _ =>
      obtain rfl := State.phase_of_advance (s := s) hnext
      trivial

/-- Clients ask for peers of a set only, and what they ask for is what is written. -/
structure Recorded (sent : Set String) (s : State) : Prop where
  asked : ∀ c peerId nonce phase,
    s.connections c = some ⟨.challenge peerId nonce, phase⟩ → peerId ∈ sent
  pending : ∀ c peerId nonce phase,
    s.connections c = some ⟨.challenge peerId nonce, phase⟩ → phase.Recording peerId
  logged : ∀ log, s.auditLog = some log → ∀ record ∈ log, record.Plain ∧ record.peerId ∈ sent

/-- The log stays or gets the record of the task that moved. -/
theorem CallStep.auditLog_cases {conn : Connection} {event : CallEvent}
    (hcall : CallStep prim s c conn event t) :
    t.auditLog = s.auditLog ∨
      ∃ peerId nonce record ending,
        conn = ⟨.challenge peerId nonce, .auditing record ending⟩ ∧
          t.auditLog = s.auditLog.map (· ++ [record]) := by
  cases hcall with
  | @audited peerId nonce record ending written =>
      cases written with
      | false => exact .inl rfl
      | true => exact .inr ⟨peerId, nonce, record, ending, rfl, rfl⟩
  | _ => exact .inl rfl

theorem Recorded.call (hrecorded : Recorded sent s) {conn : Connection} {event : CallEvent}
    (hconn : s.connections c = some conn) (hcall : CallStep prim s c conn event t) :
    Recorded sent t := by
  obtain ⟨-, -, -, phase', hconnections⟩ := hcall.frame
  refine ⟨?_, ?_, ?_⟩
  · intro c' peerId nonce phase hnext
    by_cases hne : c' = c
    · subst hne
      have hrequest := hcall.request_eq hnext
      obtain ⟨request, phase₀⟩ := conn
      cases hrequest
      exact hrecorded.asked c' peerId nonce phase₀ hconn
    · rw [hconnections, Function.update_of_ne hne] at hnext
      exact hrecorded.asked c' peerId nonce phase hnext
  · intro c' peerId nonce phase hnext
    by_cases hne : c' = c
    · subst hne
      have hrequest := hcall.request_eq hnext
      obtain ⟨request, phase₀⟩ := conn
      cases hrequest
      exact hcall.recording hnext
    · rw [hconnections, Function.update_of_ne hne] at hnext
      exact hrecorded.pending c' peerId nonce phase hnext
  · intro log hlog record hmem
    rcases hcall.auditLog_cases with hsame | ⟨peerId, nonce, written, ending, rfl, hgrown⟩
    · rw [hsame] at hlog
      exact hrecorded.logged log hlog record hmem
    · rw [hgrown] at hlog
      obtain ⟨before, hbefore, rfl⟩ := Option.map_eq_some_iff.mp hlog
      rcases List.mem_append.mp hmem with hold | hnew
      · exact hrecorded.logged before hbefore record hold
      · obtain rfl := List.mem_singleton.mp hnew
        obtain ⟨hpeer, hplain⟩ := hrecorded.pending c peerId nonce _ hconn
        rw [hpeer]
        exact ⟨hplain, hrecorded.asked c peerId nonce _ hconn⟩

/-- The connection asks for a peer of the set. -/
def AsksFor (sent : Set String) : Event → Prop
  | .accept _ (.challenge peerId _) => peerId ∈ sent
  | _ => True

theorem Recorded.step (hrecorded : Recorded sent s) {event : Event} (hasks : AsksFor sent event)
    (hstep : (daemon prim).step s event = some t) : Recorded sent t := by
  cases step_sound hstep with
  | @accept c request hnew =>
      refine ⟨?_, ?_, hrecorded.logged⟩
      · intro c' peerId nonce phase hnext
        simp only [Function.update_apply] at hnext
        split at hnext
        · cases hnext
          exact hasks
        · exact hrecorded.asked c' peerId nonce phase hnext
      · intro c' peerId nonce phase hnext
        simp only [Function.update_apply] at hnext
        split at hnext
        · cases hnext
          trivial
        · exact hrecorded.pending c' peerId nonce phase hnext
  | loop hloop =>
      constructor
      · rw [hloop.connections_eq]
        exact hrecorded.asked
      · rw [hloop.connections_eq]
        exact hrecorded.pending
      · rw [hloop.auditLog_eq]
        exact hrecorded.logged
  | call hconn hcall => exact hrecorded.call hconn hcall

/-- The logs that a daemon writes while clients ask for peers of a set and every append
succeeds. -/
def Logged (prim : Primitives) (sent : Set String) (records : List AuditRecord) : Prop :=
  ∃ seed orchestrated startedAt events final, (∀ event ∈ events, AsksFor sent event) ∧
    (∀ c, Event.call c (.audit false) ∉ events) ∧
    (daemon prim).run (.init seed true orchestrated startedAt) events = some final ∧
    final.auditLog = some records

theorem Logged.plain {records : List AuditRecord} (hlogged : Logged prim sent records)
    {record : AuditRecord} (hmem : record ∈ records) :
    record.Plain ∧ record.peerId ∈ sent := by
  obtain ⟨seed, orchestrated, startedAt, events, final, hasks, -, hrun, hlog⟩ := hlogged
  have hinitial : Recorded sent (.init seed true orchestrated startedAt) := by
    constructor
    · intro c peerId nonce phase hconn
      cases hconn
    · intro c peerId nonce phase hconn
      cases hconn
    · intro log hlog record hmem
      cases hlog
      cases hmem
  have hrecorded := (daemon prim).run_invariant_of_allSteps (fun _ event => AsksFor sent event)
    (Recorded sent) (fun state event next hinv hguard hstep => hinv.step hguard hstep) hinitial
    ((daemon prim).allSteps_of_forall (fun event hmem _ => hasks event hmem) _) hrun
  exact hrecorded.logged records hlog record hmem

/-! ## When the log can be read back -/

/-- Every record is a line of six fields, and the file determines the records. -/
structure Unambiguous (prim : Primitives) (sent : Set String) : Prop where
  lines : ∀ records, Logged prim sent records →
    ∀ record ∈ records, IsRecordLine (formatRecord record)
  determined : ∀ first second, Logged prim sent first → Logged prim sent second →
    fileContents first = fileContents second → first = second

/-- A call for a peer that the daemon does not know. -/
def unknownCall (c : CallId) (peerId : String) : List Event :=
  [.accept c (.challenge peerId []), .call c (.dispatch 0), .call c .lookup,
    .call c (.audit true), .call c .finish]

def unknownRecord (peerId : String) : AuditRecord :=
  .at peerId zeroNonceHex 0 0 ChallengeOutcome.reasonUnknownPeer

/-- Every identifier a client may send ends up in a log, known or not. -/
theorem logged_unknownRecord (prim : Primitives) (hsent : peerId ∈ sent) :
    Logged prim sent [unknownRecord peerId] := by
  refine ⟨[], true, 0, unknownCall 0 peerId, _, ?_, ?_, rfl, rfl⟩
  · simp [unknownCall, AsksFor, hsent]
  · simp [unknownCall]

/-- The audit log of a daemon can be read back exactly when no client asks for a peer with a
comma or a newline in its identifier. -/
theorem unambiguous_iff_plain_peerIds (prim : Primitives) (sent : Set String) :
    Unambiguous prim sent ↔
      ∀ peerId ∈ sent, ',' ∉ peerId.toList ∧ '\n' ∉ peerId.toList := by
  constructor
  · intro hunambiguous peerId hsent
    have hlogged := logged_unknownRecord prim hsent
    have hline := hunambiguous.lines _ hlogged _ List.mem_cons_self
    have hplain := (hlogged.plain List.mem_cons_self).1
    obtain ⟨hcomma, hnewline⟩ := (isRecordLine_formatRecord hplain).mp hline
    exact ⟨hcomma, hnewline⟩
  · intro hpeers
    have hrecords : ∀ records, Logged prim sent records →
        ∀ record ∈ records, record.Plain ∧ PlainText record.peerId := by
      intro records hlogged record hmem
      obtain ⟨hplain, hsent⟩ := hlogged.plain hmem
      obtain ⟨hcomma, hnewline⟩ := hpeers record.peerId hsent
      exact ⟨hplain, hcomma, hnewline⟩
    constructor
    · intro records hlogged record hmem
      obtain ⟨hplain, hpeer⟩ := hrecords records hlogged record hmem
      exact (isRecordLine_formatRecord hplain).mpr hpeer
    · intro first second hfirst hsecond hsame
      exact fileContents_inj (hrecords first hfirst) (hrecords second hsecond) hsame

/-- An identifier that carries a whole record of another peer. -/
def forgedPeerId : String :=
  "a,00000000000000000000000000000000,0,0,unknown-peer,unknown-peer\nb"

/-- Two requests for unknown peers and one for the forged identifier write the same file, and
the one record is neither a line nor six fields. -/
theorem forged_peerId_same_file :
    ∃ first second, Logged KnownAnswer.primitives Set.univ first ∧
      Logged KnownAnswer.primitives Set.univ second ∧ first ≠ second ∧
      fileContents first = fileContents second ∧
      (∃ record ∈ second, ¬ IsRecordLine (formatRecord record)) ∧
      ¬ Unambiguous KnownAnswer.primitives Set.univ := by
  have hforged : Logged KnownAnswer.primitives Set.univ [unknownRecord forgedPeerId] :=
    logged_unknownRecord _ (Set.mem_univ _)
  have hnewline : '\n' ∈ forgedPeerId.toList := by decide
  have hbroken : ¬ IsRecordLine (formatRecord (unknownRecord forgedPeerId)) := by
    intro hline
    have hplain := (hforged.plain List.mem_cons_self).1
    exact ((isRecordLine_formatRecord hplain).mp hline).newline hnewline
  refine ⟨[unknownRecord "a", unknownRecord "b"], [unknownRecord forgedPeerId], ?_, hforged,
    by decide, by decide, ⟨_, List.mem_cons_self, hbroken⟩, ?_⟩
  · refine ⟨[], true, 0, unknownCall 0 "a" ++ unknownCall 1 "b", _, ?_, ?_, rfl, rfl⟩
    · simp [unknownCall, AsksFor]
    · simp [unknownCall]
  · intro hunambiguous
    exact hbroken (hunambiguous.lines _ hforged _ List.mem_cons_self)

end Syauth.Presenced
