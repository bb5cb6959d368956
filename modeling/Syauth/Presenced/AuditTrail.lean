import Syauth.Presenced.Steps

/-! # One audit record for every call

An observer writes down the frames that calls hand to the peripheral, the records
that are appended to the audit log and what `issue_challenge` returns.  What was
observed of one call is determined by the position of its task up to the record,
and the record is the one for the outcome that the task is going to return.
-/

namespace Syauth.Presenced

open Transport

/-! ## Observations -/

inductive AuditObservation where
  /-- The frame that `run_challenge` passes to `notify_challenge`. -/
  | handed (c : CallId) (frame : Frame)
  | appended (c : CallId) (record : AuditRecord)
  /-- `issue_challenge` returns. -/
  | returned (c : CallId) (peerId : String) (outcome : ChallengeOutcome)
  deriving DecidableEq

namespace AuditObservation

def call : AuditObservation → CallId
  | .handed c _ | .appended c _ | .returned c _ _ => c

def record : AuditObservation → Option AuditRecord
  | .appended _ record => some record
  | _ => none

end AuditObservation

/-- The observations of one call. -/
def ofCall (c : CallId) (seen : List AuditObservation) : List AuditObservation :=
  seen.filter fun o => o.call = c

/-- The records appended, by all calls. -/
def recordsOf (seen : List AuditObservation) : List AuditRecord :=
  seen.filterMap AuditObservation.record

variable (prim : Primitives)

/-- What a step of `issue_challenge` shows. -/
def observeChallenge (c : CallId) (peerId : String) (audited : Bool) :
    Phase → CallEvent → List AuditObservation
  | .drawing tStartMs peer, .draw random now =>
      match drawPhase prim peerId tStartMs peer random now with
      | .notifying tx => [.handed c tx.challenge]
      | _ => []
  | .auditing record _, .audit written => if audited && written then [.appended c record] else []
  | .returning ending, .finish => [.returned c peerId ending.outcome]
  | _, _ => []

def observeAudit (s : State) : Event → List AuditObservation
  | .call c event =>
      match s.connections c with
      | some ⟨.challenge peerId _, phase⟩ =>
          observeChallenge prim c peerId s.auditLog.isSome phase event
      | _ => []
  | _ => []

/-! ## The course of a call -/

variable {prim} {seen : List AuditObservation} {s t : State} {c : CallId}
variable {peerId : String} {nonce : Bytes} {record : AuditRecord} {outcome : ChallengeOutcome}

/-- The record names the peer and gives the reason of the outcome in both columns. -/
structure AuditRecord.Reports (record : AuditRecord) (peerId : String)
    (outcome : ChallengeOutcome) : Prop where
  peerId_eq : record.peerId = peerId
  outcome_eq : record.outcome = outcome.reasonStr
  reason_eq : record.reason = outcome.reasonStr

/-- At most one frame was handed over, and the record carries its nonce. -/
inductive Accounts (c : CallId) (record : AuditRecord) : List AuditObservation → Prop
  | early : Accounts c record []
  | handed (frame : Frame) (hnonce : record.nonceHex = hexLowercase frame.nonce.val) :
      Accounts c record [.handed c frame]

/-- Everything observed of a call that has returned. -/
inductive Completed (c : CallId) (peerId : String) (outcome : ChallengeOutcome) :
    List AuditObservation → Prop
  | intro (before : List AuditObservation) (record : AuditRecord)
      (haccounts : Accounts c record before) (hreports : record.Reports peerId outcome) :
      Completed c peerId outcome (before ++ [.appended c record, .returned c peerId outcome])

/-- What was observed of a challenge call in each phase. -/
def Phase.Course (orchestrated : Bool) (c : CallId) (peerId : String)
    (course : List AuditObservation) : Phase → Prop
  | .decoded | .looking _ | .acquiring _ _ | .stamping _ _ | .drawing _ _ => course = []
  | .notifying tx | .waiting tx | .checking tx _ =>
      tx.challenge.nonce = tx.nonce ∧ course = [.handed c tx.challenge]
  | .auditing record ending => Accounts c record course ∧ record.Reports peerId ending.outcome
  | .returning ending =>
      ∃ before record, course = before ++ [.appended c record] ∧ Accounts c record before ∧
        record.Reports peerId ending.outcome
  | .answered response =>
      orchestrated = false ∧ course = [] ∨
        ∃ outcome, response = .ofOutcome outcome ∧ Completed c peerId outcome course

/-- Connections with another request, and those not accepted yet, show nothing. -/
def Course (orchestrated : Bool) (c : CallId) (course : List AuditObservation) :
    Option Connection → Prop
  | some ⟨.challenge peerId _, phase⟩ => phase.Course orchestrated c peerId course
  | _ => course = []

/-! ## One step of a call -/

theorem AuditRecord.reports_at {nonceHex reason : String} {tStartMs tEndMs : Nat}
    (hreason : reason = outcome.reasonStr) :
    (AuditRecord.at peerId nonceHex tStartMs tEndMs reason).Reports peerId outcome :=
  ⟨rfl, hreason, hreason⟩

/-- After the frame was handed over, a reason that fits the outcome is all a record needs. -/
theorem course_conclude {orchestrated : Bool} {tx : Transaction} {now : SystemTime}
    {reason : String} (hnonce : tx.challenge.nonce = tx.nonce)
    (hreason : reason = outcome.reasonStr) :
    (tx.conclude peerId now reason outcome).Course orchestrated c peerId
      [.handed c tx.challenge] := by
  refine ⟨.handed tx.challenge ?_, AuditRecord.reports_at hreason⟩
  rw [hnonce]
  rfl

theorem course_drawPhase {orchestrated audited : Bool} {tStartMs : Nat} {peer : PeerState}
    (random : Except String Nonce) (now : SystemTime) :
    (drawPhase prim peerId tStartMs peer random now).Course orchestrated c peerId
      (observeChallenge prim c peerId audited (.drawing tStartMs peer) (.draw random now)) := by
  cases random with
  | error err => exact ⟨.early, AuditRecord.reports_at rfl⟩
  | ok drawn =>
      simp only [observeChallenge, drawPhase, buildChallenge_eq]
      exact ⟨rfl, rfl⟩

theorem course_notifiedPhase {orchestrated : Bool} {tx : Transaction}
    (result : Except PeripheralError Unit) (now : SystemTime)
    (hnonce : tx.challenge.nonce = tx.nonce) :
    (notifiedPhase peerId tx result now).Course orchestrated c peerId
      [.handed c tx.challenge] := by
  cases result with
  | error err => exact course_conclude hnonce rfl
  | ok value => exact ⟨hnonce, rfl⟩

theorem course_respondedPhase {orchestrated : Bool} {tx : Transaction}
    (result : Except PeripheralError Bytes) (now : SystemTime)
    (hnonce : tx.challenge.nonce = tx.nonce) :
    (respondedPhase prim peerId tx result now).Course orchestrated c peerId
      [.handed c tx.challenge] := by
  cases result with
  | error err =>
      cases err with
      | responseTimeout peer deadlineMs => exact course_conclude hnonce rfl
      | _ => exact course_conclude hnonce rfl
  | ok response =>
      simp only [respondedPhase]
      split
      · next refused hcheck =>
          -- All three refusals of a response are written down as a bad signature.
          exact course_conclude hnonce (by rw [checkResponse_eq_error prim hcheck]; rfl)
      · exact ⟨hnonce, rfl⟩

/-- The course of a challenge call is extended by what the step shows. -/
theorem CallStep.course {course : List AuditObservation} {phase phase' : Phase}
    {event : CallEvent} (hcall : CallStep prim s c ⟨.challenge peerId nonce, phase⟩ event t)
    (hattached : s.auditLog.isSome = true) (hwritten : event ≠ .audit false)
    (hcourse : phase.Course s.orchestrated c peerId course)
    (hnext : t.connections c = some ⟨.challenge peerId nonce, phase'⟩) :
    phase'.Course s.orchestrated c peerId
      (course ++ observeChallenge prim c peerId s.auditLog.isSome phase event) := by
  cases hcall with
  | answer queue response hanswer =>
      obtain rfl := State.phase_of_advance hnext
      cases hanswer with
      | stub hstopped => exact .inl ⟨hstopped, (List.append_nil course).trans hcourse⟩
  | unknown | busy =>
      obtain rfl := State.phase_of_advance hnext
      cases hcourse
      exact ⟨.early, AuditRecord.reports_at rfl⟩
  | drew =>
      obtain rfl := State.phase_of_advance hnext
      cases hcourse
      rw [List.nil_append]
      exact course_drawPhase _ _
  | notified =>
      obtain rfl := State.phase_of_advance hnext
      obtain ⟨hnonce, rfl⟩ := hcourse
      exact course_notifiedPhase _ _ hnonce
  | responded =>
      obtain rfl := State.phase_of_advance hnext
      obtain ⟨hnonce, rfl⟩ := hcourse
      exact course_respondedPhase _ _ hnonce
  | replayed | accepted =>
      obtain rfl := State.phase_of_advance (s := s) hnext
      obtain ⟨hnonce, rfl⟩ := hcourse
      exact course_conclude hnonce rfl
  | @audited peerId nonce record ending written =>
      obtain rfl := State.phase_of_advance hnext
      have htrue : written = true := by
        cases written with
        | true => rfl
        | false => exact absurd rfl hwritten
      subst htrue
      refine ⟨course, record, ?_, hcourse.1, hcourse.2⟩
      simp only [observeChallenge, hattached, Bool.and_self, if_true]
  | @finished peerId nonce ending | @released peerId nonce ending =>
      obtain rfl := State.phase_of_advance (s := s) hnext
      obtain ⟨before, record, rfl, haccounts, hreports⟩ := hcourse
      refine .inr ⟨ending.outcome, rfl, ?_⟩
      rw [List.append_assoc]
      exact .intro before record haccounts hreports
  | _ =>
      obtain rfl := State.phase_of_advance (s := s) hnext
      exact (List.append_nil course).trans hcourse

/-- The log grows by the records the step shows. -/
theorem CallStep.auditLog_eq {phase : Phase} {event : CallEvent}
    (hcall : CallStep prim s c ⟨.challenge peerId nonce, phase⟩ event t) :
    t.auditLog = s.auditLog.map
      (· ++ recordsOf (observeChallenge prim c peerId s.auditLog.isSome phase event)) := by
  have hsame : s.auditLog = s.auditLog.map (· ++ recordsOf []) := by
    simp [recordsOf]
  cases hcall with
  | @drew _ _ tStartMs peer random now =>
      refine hsame.trans ?_
      cases random with
      | error err => rfl
      | ok drawn =>
          simp only [observeChallenge, drawPhase, buildChallenge_eq]
          rfl
  | @audited _ _ record ending written =>
      cases hlog : s.auditLog with
      | none => cases written <;> rfl
      | some log =>
          cases written with
          | true => rfl
          | false => exact congrArg some (List.append_nil log).symm
  | _ => exact hsame

/-! ## Whole runs -/

/-- Every observation of a step belongs to the call that took it. -/
theorem call_of_mem_observeAudit {event : CallEvent} {o : AuditObservation}
    (hmem : o ∈ observeAudit prim s (.call c event)) : o.call = c := by
  simp only [observeAudit] at hmem
  split at hmem
  · unfold observeChallenge at hmem
    repeat' split at hmem
    all_goals first
      | exact congrArg AuditObservation.call (List.mem_singleton.mp hmem)
      | cases hmem
  · cases hmem

theorem ofCall_append_self {shown : List AuditObservation} (hown : ∀ o ∈ shown, o.call = c) :
    ofCall c (seen ++ shown) = ofCall c seen ++ shown := by
  unfold ofCall
  rw [List.filter_append]
  congr 1
  apply List.filter_eq_self.mpr
  intro o hmem
  exact decide_eq_true (hown o hmem)

theorem ofCall_append_of_ne {c' : CallId} {shown : List AuditObservation}
    (hown : ∀ o ∈ shown, o.call = c) (hne : c' ≠ c) :
    ofCall c' (seen ++ shown) = ofCall c' seen := by
  unfold ofCall
  have hnone : shown.filter (fun o => o.call = c') = [] := by
    apply List.filter_eq_nil_iff.mpr
    intro o hmem hcall
    exact hne ((of_decide_eq_true hcall).symm.trans (hown o hmem))
  rw [List.filter_append, hnone, List.append_nil]

/-- The log holds the appended records in order, and every call is on its course. -/
structure AuditTrail (seen : List AuditObservation) (s : State) : Prop where
  log : s.auditLog = some (recordsOf seen)
  course : ∀ c, Course s.orchestrated c (ofCall c seen) (s.connections c)

/-- Steps that show nothing keep the trail when they keep the log and every call. -/
theorem AuditTrail.silent (htrail : AuditTrail seen s) (hlog : t.auditLog = s.auditLog)
    (hsame : t.orchestrated = s.orchestrated)
    (hcalls : ∀ c, t.connections c = s.connections c ∨
      s.connections c = none ∧ ∃ request, t.connections c = some ⟨request, .decoded⟩) :
    AuditTrail (seen ++ []) t := by
  rw [List.append_nil]
  refine ⟨hlog.trans htrail.log, fun c => ?_⟩
  rw [hsame]
  have hcourse := htrail.course c
  rcases hcalls c with hkept | ⟨hnone, request, hnew⟩
  · rw [hkept]
    exact hcourse
  · rw [hnone] at hcourse
    rw [hnew]
    cases request <;> exact hcourse

/-- A request that is no challenge is answered at once and leaves the log alone. -/
theorem CallStep.plain {request : Request} {phase : Phase} {event : CallEvent}
    (hcall : CallStep prim s c ⟨request, phase⟩ event t)
    (hplain : ∀ peerId nonce, request ≠ .challenge peerId nonce) : t.auditLog = s.auditLog := by
  cases hcall with
  | answer => rfl
  | _ => exact absurd rfl (hplain _ _)

theorem AuditTrail.call (htrail : AuditTrail seen s) {conn : Connection} {event : CallEvent}
    (hconn : s.connections c = some conn) (hcall : CallStep prim s c conn event t)
    (hwritten : event ≠ .audit false) :
    AuditTrail (seen ++ observeAudit prim s (.call c event)) t := by
  obtain ⟨request, phase⟩ := conn
  obtain ⟨-, -, -, phase', hconnections⟩ := hcall.frame
  have hown : t.connections c = some ⟨request, phase'⟩ := by
    rw [hconnections, Function.update_self]
  have hattached : s.auditLog.isSome = true := by
    rw [htrail.log]
    rfl
  have hshown : ∀ o, o ∈ observeAudit prim s (.call c event) → o.call = c :=
    fun _ hmem => call_of_mem_observeAudit hmem
  have hcourse := htrail.course c
  rw [hconn] at hcourse
  constructor
  · cases request with
    | challenge peerId nonce =>
        rw [hcall.auditLog_eq, htrail.log]
        simp only [observeAudit, hconn, htrail.log, recordsOf, List.filterMap_append,
          Option.map_some]
    | reload | status =>
        rw [hcall.plain (fun _ _ => Request.noConfusion), htrail.log]
        simp only [observeAudit, hconn, List.append_nil]
  · intro c'
    rw [hcall.orchestrated_eq]
    by_cases hne : c' = c
    · subst hne
      rw [hown, ofCall_append_self hshown]
      cases request with
      | challenge peerId nonce =>
          have hstep := hcall.course hattached hwritten hcourse hown
          simp only [observeAudit, hconn]
          exact hstep
      | reload | status =>
          simp only [observeAudit, hconn, List.append_nil]
          exact hcourse
    · rw [ofCall_append_of_ne hshown hne, hconnections, Function.update_of_ne hne]
      exact htrail.course c'

theorem AuditTrail.step (htrail : AuditTrail seen s) {event : Event}
    (hwritten : ∀ c, event ≠ .call c (.audit false))
    (hstep : (daemon prim).step s event = some t) :
    AuditTrail (seen ++ observeAudit prim s event) t := by
  cases step_sound hstep with
  | @accept c request hnew =>
      refine htrail.silent rfl rfl fun c' => ?_
      by_cases hne : c' = c
      · subst hne
        exact .inr ⟨hnew, request, Function.update_self _ _ _⟩
      · exact .inl (Function.update_of_ne hne _ _)
  | loop hloop =>
      refine htrail.silent hloop.auditLog_eq hloop.orchestrated_eq fun c => .inl ?_
      rw [hloop.connections_eq]
  | @call c conn callEvent _ hconn hcall =>
      exact htrail.call hconn hcall fun heq => hwritten c (congrArg (Event.call c) heq)

/-- Along every run with an attached log and appends that succeed, every call is on its
course. -/
theorem auditTrail_run {seed : List (Bond × BondKey)} {orchestrated : Bool}
    {startedAt : SystemTime} {events : List Event}
    (hwritten : ∀ c, Event.call c (.audit false) ∉ events)
    (hrun : (daemon prim).run (.init seed true orchestrated startedAt) events = some s) :
    AuditTrail ((daemon prim).trace (observeAudit prim) (.init seed true orchestrated startedAt)
      events) s := by
  have hinitial : AuditTrail [] (.init seed true orchestrated startedAt) :=
    ⟨rfl, fun _ => rfl⟩
  refine (daemon prim).run_trace_invariant_of_allSteps
    (fun _ event => ∀ c, event ≠ .call c (.audit false)) (observeAudit prim) AuditTrail
    (fun seen state event next htrail hguard hstep => htrail.step hguard hstep) hinitial ?_ hrun
  apply (daemon prim).allSteps_of_forall
  intro event hmem state c heq
  exact hwritten c (heq ▸ hmem)

/-! ## What a returned call left behind -/

theorem Accounts.returned_notMem {course : List AuditObservation}
    (haccounts : Accounts c record course) : .returned c peerId outcome ∉ course := by
  cases haccounts <;> simp

theorem Accounts.recordsOf_eq {course : List AuditObservation}
    (haccounts : Accounts c record course) : recordsOf course = [] := by
  cases haccounts <;> rfl

theorem Completed.returned_mem {course : List AuditObservation}
    (hcompleted : Completed c peerId outcome course) : .returned c peerId outcome ∈ course := by
  obtain ⟨before, record, -, -⟩ := hcompleted
  simp

/-- A call that was seen to return is answered, and nothing more was observed of it. -/
theorem Course.completed {orchestrated : Bool} {course : List AuditObservation}
    {conn : Option Connection} (hcourse : Course orchestrated c course conn)
    (hreturned : .returned c peerId outcome ∈ course) :
    Completed c peerId outcome course ∧
      ∃ nonce, conn = some ⟨.challenge peerId nonce, .answered (.ofOutcome outcome)⟩ := by
  have hcases : course ≠ [] := List.ne_nil_of_mem hreturned
  unfold Course at hcourse
  split at hcourse
  · next peerId' nonce phase =>
      cases phase with
      | notifying tx | waiting tx | checking tx signature =>
          obtain ⟨-, rfl⟩ := hcourse
          exact absurd (List.mem_singleton.mp hreturned) AuditObservation.noConfusion
      | auditing record ending => exact absurd hreturned hcourse.1.returned_notMem
      | returning ending =>
          obtain ⟨before, record, rfl, haccounts, -⟩ := hcourse
          rcases List.mem_append.mp hreturned with hbefore | hlast
          · exact absurd hbefore haccounts.returned_notMem
          · exact absurd (List.mem_singleton.mp hlast) AuditObservation.noConfusion
      | answered response =>
          rcases hcourse with ⟨-, hnone⟩ | ⟨outcome', rfl, hcompleted⟩
          · exact absurd hnone hcases
          · obtain ⟨before, record, haccounts, hreports⟩ := hcompleted
            rcases List.mem_append.mp hreturned with hbefore | hlast
            · exact absurd hbefore haccounts.returned_notMem
            · have hsame : AuditObservation.returned c peerId outcome =
                  .returned c peerId' outcome' := by simpa using hlast
              cases hsame
              exact ⟨.intro before record haccounts hreports, nonce, rfl⟩
      | _ => exact absurd hcourse hcases
  · exact absurd hcourse hcases

/-- With an attached log and appends that succeed, the log is what the calls appended, and
every call that `issue_challenge` completed, whatever way it took, appended one record: that
of its own peer, with the reason of the outcome it returned and, once a frame was handed to
`notify_challenge`, with the nonce of that frame. -/
theorem completed_call_audited_once (prim : Primitives) {seed : List (Bond × BondKey)}
    {orchestrated : Bool} {startedAt : SystemTime} {events : List Event} {final : State}
    (hwritten : ∀ c, Event.call c (.audit false) ∉ events)
    (hrun : (daemon prim).run (.init seed true orchestrated startedAt) events = some final) :
    let seen := (daemon prim).trace (observeAudit prim) (.init seed true orchestrated startedAt)
      events
    final.auditLog = some (recordsOf seen) ∧
      (∀ c peerId nonce response,
        final.connections c = some ⟨.challenge peerId nonce, .answered response⟩ →
        orchestrated = true →
        ∃ outcome, response = .ofOutcome outcome ∧ .returned c peerId outcome ∈ seen) ∧
      ∀ c peerId outcome, .returned c peerId outcome ∈ seen →
        (∃ nonce,
          final.connections c = some ⟨.challenge peerId nonce, .answered (.ofOutcome outcome)⟩) ∧
        ∃ record, recordsOf (ofCall c seen) = [record] ∧ record.peerId = peerId ∧
          record.outcome = outcome.reasonStr ∧ record.reason = outcome.reasonStr ∧
          ∀ frame, .handed c frame ∈ seen →
            record.nonceHex = hexLowercase frame.nonce.val := by
  intro seen
  have htrail : AuditTrail seen final := auditTrail_run hwritten hrun
  refine ⟨htrail.log, ?_, ?_⟩
  · intro c peerId nonce response hanswered hrunning
    have hcourse := htrail.course c
    rw [hanswered, orchestrated_run hrun] at hcourse
    rcases hcourse with ⟨hstopped, -⟩ | ⟨outcome, hresponse, hcompleted⟩
    · exact Bool.noConfusion (hrunning.symm.trans hstopped)
    · refine ⟨outcome, hresponse, ?_⟩
      exact (List.mem_filter.mp hcompleted.returned_mem).1
  · intro c peerId outcome hreturned
    have hown : .returned c peerId outcome ∈ ofCall c seen :=
      List.mem_filter.mpr ⟨hreturned, decide_eq_true rfl⟩
    obtain ⟨hcompleted, hconn⟩ := (htrail.course c).completed hown
    refine ⟨hconn, ?_⟩
    generalize hcourse : ofCall c seen = course at hcompleted
    obtain ⟨before, record, haccounts, hreports⟩ := hcompleted
    refine ⟨record, ?_, hreports.peerId_eq, hreports.outcome_eq, hreports.reason_eq, ?_⟩
    · unfold recordsOf
      rw [List.filterMap_append]
      exact congrArg (· ++ [record]) haccounts.recordsOf_eq
    · intro frame hhanded
      have hmem : .handed c frame ∈ ofCall c seen :=
        List.mem_filter.mpr ⟨hhanded, decide_eq_true rfl⟩
      rw [hcourse] at hmem
      cases haccounts with
      | early => simp at hmem
      | handed frame' hnonce =>
          have hsame : frame = frame' := by simpa using hmem
          rw [hsame]
          exact hnonce

/-- The known exchange with a call for an unknown peer in between. -/
def overlappingExchange : List Event :=
  knownExchange.take 6 ++
    [.accept 1 (.challenge "nobody" []), .call 1 (.dispatch 0), .call 1 .lookup] ++
    knownExchange.drop 6 ++ [.call 1 (.audit true), .call 1 .finish]

theorem completed_call_audited_once_overlapping :
    let seen := (daemon KnownAnswer.primitives).trace (observeAudit KnownAnswer.primitives)
      knownInitial overlappingExchange
    (∀ c peerId outcome, .returned c peerId outcome ∈ seen →
      ∃ record, recordsOf (ofCall c seen) = [record] ∧ record.peerId = peerId ∧
        record.outcome = outcome.reasonStr) ∧
      .returned 0 KnownAnswer.peerId (.ok KnownAnswer.signature) ∈ seen ∧
      .returned 1 "nobody" .unknownPeer ∈ seen := by
  intro seen
  have hsome : ((daemon KnownAnswer.primitives).run knownInitial
      overlappingExchange).isSome = true := by
    decide
  obtain ⟨final, hrun⟩ := Option.isSome_iff_exists.mp hsome
  have hwritten : ∀ c, Event.call c (.audit false) ∉ overlappingExchange := by
    intro c
    simp [overlappingExchange, knownExchange, exchangeOf]
  obtain ⟨-, -, haudited⟩ := completed_call_audited_once KnownAnswer.primitives hwritten hrun
  refine ⟨fun c peerId outcome hreturned => ?_, by decide, by decide⟩
  obtain ⟨-, record, hrecords, hpeer, houtcome, -⟩ := haudited c peerId outcome hreturned
  exact ⟨record, hrecords, hpeer, houtcome⟩

end Syauth.Presenced
