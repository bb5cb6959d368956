import Syauth.Presenced.Soundness

/-! # Which answers need bytes from the phone

A daemon with an orchestrator answers a challenge with the outcome of a call.  Some
outcomes are decided before any byte has come from the phone; the others are answered
only after `wait_for_response` has returned.  Without an orchestrator every challenge
gets the stub.
-/

namespace Syauth.Presenced

open Transport

variable {prim : Primitives} {seen : List Observation} {s t : State} {c : CallId}
variable {peerId : String} {nonce : Bytes}

/-- The outcomes that are decided without a byte from the phone. -/
def ChallengeOutcome.unheard : ChallengeOutcome → Bool
  | .timedOut | .unknownPeer | .busy | .transportError _ => true
  | .ok _ | .denied | .replay | .badSignature => false

/-- Bytes of the phone have reached the call. -/
def Heard (seen : List Observation) (c : CallId) (peerId : String) : Prop :=
  ∃ response, Observation.waitReturned c peerId response ∈ seen

def Phase.Heard (seen : List Observation) (c : CallId) (peerId : String) : Phase → Prop
  | .checking _ _ => Presenced.Heard seen c peerId
  | .auditing _ ending | .returning ending =>
      ending.outcome.unheard = true ∨ Presenced.Heard seen c peerId
  | _ => True

/-- The phases a task reaches through an orchestrator only. -/
def Phase.inCall : Phase → Bool
  | .decoded | .answered _ => false
  | _ => true

/-- What stands behind an answer to a challenge. -/
def Explained (seen : List Observation) (s : State) (c : CallId) (peerId : String)
    (response : Response) : Prop :=
  (s.orchestrated = false ∧ response = .stub) ∨
    (s.orchestrated = true ∧ ∃ outcome, response = .ofOutcome outcome ∧
      (outcome.unheard = true ∨ Heard seen c peerId))

structure Hearing (seen : List Observation) (s : State) : Prop where
  phases : ∀ c peerId nonce phase, s.connections c = some ⟨.challenge peerId nonce, phase⟩ →
    phase.Heard seen c peerId
  running : ∀ c conn, s.connections c = some conn → conn.phase.inCall = true →
    s.orchestrated = true
  sent : ∀ c peerId nonce response,
    Observation.sent c (.challenge peerId nonce) response ∈ seen →
      Explained seen s c peerId response
  heard : ∀ c peerId, Heard seen c peerId → s.orchestrated = true

/-! ## Monotonicity -/

theorem Heard.mono (hheard : Heard seen c peerId) (more : List Observation) :
    Heard (seen ++ more) c peerId := by
  obtain ⟨response, hmem⟩ := hheard
  exact ⟨response, List.mem_append_left more hmem⟩

theorem Phase.Heard.mono {phase : Phase} (hheard : phase.Heard seen c peerId)
    (more : List Observation) : phase.Heard (seen ++ more) c peerId := by
  cases phase with
  | checking tx signature => exact Presenced.Heard.mono hheard more
  | auditing record ending => exact Or.imp_right (fun h => Presenced.Heard.mono h more) hheard
  | returning ending => exact Or.imp_right (fun h => Presenced.Heard.mono h more) hheard
  | _ => trivial

theorem Explained.mono {response : Response} (hexplained : Explained seen s c peerId response)
    (more : List Observation) (hsame : t.orchestrated = s.orchestrated) :
    Explained (seen ++ more) t c peerId response := by
  unfold Explained
  rw [hsame]
  rcases hexplained with hstub | ⟨hrunning, outcome, hresponse, hheard⟩
  · exact .inl hstub
  · exact .inr ⟨hrunning, outcome, hresponse, hheard.imp_right fun h => h.mono more⟩

/-! ## One step of a call -/

theorem unheard_challengeOutcomeForTransport (err : PeripheralError) :
    (challengeOutcomeForTransport err).unheard = true := by
  cases err <;> rfl

theorem heard_drawPhase {tStartMs : Nat} {peer : PeerState} (random : Except String Nonce)
    (now : SystemTime) : (drawPhase prim peerId tStartMs peer random now).Heard seen c peerId := by
  cases random with
  | error err => exact .inl rfl
  | ok drawn =>
      simp only [drawPhase, buildChallenge_eq]
      trivial

theorem heard_notifiedPhase {tx : Transaction} (result : Except PeripheralError Unit)
    (now : SystemTime) : (notifiedPhase peerId tx result now).Heard seen c peerId := by
  cases result with
  | error err => exact .inl (unheard_challengeOutcomeForTransport err)
  | ok value => trivial

theorem heard_respondedPhase {tx : Transaction} (result : Except PeripheralError Bytes)
    (now : SystemTime) :
    (respondedPhase prim peerId tx result now).Heard
      (seen ++ observeCall s c (.challenge peerId nonce) (.waiting tx) (.responded result now))
      c peerId := by
  cases result with
  | error err => cases err <;> exact .inl rfl
  | ok response =>
      have hheard : Heard (seen ++ [Observation.waitReturned c peerId response]) c peerId :=
        ⟨response, List.mem_append_right seen List.mem_cons_self⟩
      simp only [respondedPhase]
      split
      · exact .inr hheard
      · exact hheard

theorem CallStep.heard {phase phase' : Phase} {event : CallEvent}
    (hcall : CallStep prim s c ⟨.challenge peerId nonce, phase⟩ event t)
    (hheard : phase.Heard seen c peerId)
    (hnext : t.connections c = some ⟨.challenge peerId nonce, phase'⟩) :
    phase'.Heard (seen ++ observeCall s c (.challenge peerId nonce) phase event) c peerId := by
  cases hcall with
  | unknown | busy =>
      obtain rfl := State.phase_of_advance hnext
      exact .inl rfl
  | drew =>
      obtain rfl := State.phase_of_advance hnext
      exact heard_drawPhase _ _
  | notified =>
      obtain rfl := State.phase_of_advance hnext
      exact heard_notifiedPhase _ _
  | responded =>
      obtain rfl := State.phase_of_advance hnext
      exact heard_respondedPhase _ _
  | replayed | accepted =>
      obtain rfl := State.phase_of_advance (s := s) hnext
      exact .inr (Presenced.Heard.mono hheard _)
  | audited =>
      obtain rfl := State.phase_of_advance hnext
      exact Or.imp_right (fun h => Presenced.Heard.mono h _) hheard
  | _ =>
      obtain rfl := State.phase_of_advance (s := s) hnext
      trivial

theorem CallStep.running {request request' : Request} {phase phase' : Phase} {event : CallEvent}
    (hcall : CallStep prim s c ⟨request, phase⟩ event t)
    (hrunning : phase.inCall = true → s.orchestrated = true)
    (hnext : t.connections c = some ⟨request', phase'⟩) (hin : phase'.inCall = true) :
    s.orchestrated = true := by
  cases hcall with
  | answer =>
      obtain rfl := State.phase_of_advance hnext
      cases hin
  | enter henter => exact henter
  | _ => exact hrunning rfl

/-! ## Whole runs -/

/-- Steps that show nothing: every connection is an old one or a decoded one. -/
theorem Hearing.silent (hhearing : Hearing seen s) (hsame : t.orchestrated = s.orchestrated)
    (hconns : ∀ c conn, t.connections c = some conn →
      s.connections c = some conn ∨ conn.phase = .decoded) : Hearing (seen ++ []) t := by
  rw [List.append_nil]
  refine ⟨fun c peerId nonce phase hconn => ?_, fun c conn hconn hin => ?_,
    fun c peerId nonce response hmem => ?_, fun c peerId hheard => ?_⟩
  · rcases hconns c _ hconn with hold | hnew
    · exact hhearing.phases c peerId nonce phase hold
    · cases hnew
      trivial
  · rw [hsame]
    rcases hconns c conn hconn with hold | hnew
    · exact hhearing.running c conn hold hin
    · rw [hnew] at hin
      cases hin
  · have hexplained := (hhearing.sent c peerId nonce response hmem).mono [] hsame
    rw [List.append_nil] at hexplained
    exact hexplained
  · rw [hsame]
    exact hhearing.heard c peerId hheard

theorem inCall_of_mem_observeCall {request : Request} {phase : Phase} {event : CallEvent}
    {o : Observation} (hmem : o ∈ observeCall s c request phase event) : phase.inCall = true := by
  unfold observeCall at hmem
  split at hmem <;> first | rfl | cases hmem

theorem waitReturned_notMem_answer {c' : CallId} {peerId : String} {response : Bytes} :
    Observation.waitReturned c' peerId response ∉ t.answer c := by
  unfold State.answer
  split <;> simp

/-- The answer of a step is explained by the phase the step leaves. -/
theorem Hearing.explained_answer (hhearing : Hearing seen s) {request : Request} {phase : Phase}
    {event : CallEvent} (hconn : s.connections c = some ⟨request, phase⟩)
    (hcall : CallStep prim s c ⟨request, phase⟩ event t) {c' : CallId} {peerId : String}
    {nonce : Bytes} {response : Response}
    (hmem : Observation.sent c' (.challenge peerId nonce) response ∈ t.answer c) :
    Explained seen s c' peerId response := by
  obtain ⟨rfl, hanswer, -⟩ := mem_answer hmem
  have hrequest := hcall.request_eq hanswer
  rcases hcall.answered hanswer with hgiven | ⟨peerId', nonce', ending, rfl, rfl, hresponse⟩
  · cases hrequest
    cases hgiven with
    | stub hstopped => exact .inl ⟨hstopped, rfl⟩
  · obtain ⟨rfl, -⟩ := Request.challenge.inj hrequest
    exact .inr ⟨hhearing.running _ _ hconn rfl, ending.outcome, hresponse,
      hhearing.phases _ _ _ _ hconn⟩

theorem Hearing.step (hhearing : Hearing seen s) {event : Event}
    (hstep : (daemon prim).step s event = some t) : Hearing (seen ++ observe prim s event) t := by
  cases step_sound hstep with
  | @accept c request hnew =>
      refine hhearing.silent (t := { s with connections := _ }) rfl ?_
      intro c' conn hconn
      simp only [Function.update_apply] at hconn
      split at hconn
      · cases hconn
        exact .inr rfl
      · exact .inl hconn
  | loop hloop =>
      apply hhearing.silent hloop.orchestrated_eq
      intro c' conn hconn
      rw [hloop.connections_eq] at hconn
      exact .inl hconn
  | @call c conn callEvent _ hconn hcall =>
      obtain ⟨request, phase⟩ := conn
      have hsame := hcall.orchestrated_eq
      obtain ⟨-, -, -, phase', hconnections⟩ := hcall.frame
      have hown : t.connections c = some ⟨request, phase'⟩ := by
        rw [hconnections, Function.update_self]
      have hother : ∀ c', c' ≠ c → t.connections c' = s.connections c' := by
        intro c' hne
        rw [hconnections, Function.update_of_ne hne]
      rw [observe_call hconn hstep]
      refine ⟨fun c' peerId nonce phase₁ hnext => ?_, fun c' conn₁ hnext hin => ?_,
        fun c' peerId nonce response hmem => ?_, fun c' peerId hheard => ?_⟩
      · by_cases hne : c' = c
        · subst hne
          rw [hown] at hnext
          cases hnext
          rw [← List.append_assoc]
          exact (hcall.heard (hhearing.phases _ _ _ _ hconn) hown).mono _
        · rw [hother c' hne] at hnext
          exact (hhearing.phases c' peerId nonce phase₁ hnext).mono _
      · rw [hsame]
        by_cases hne : c' = c
        · subst hne
          rw [hown] at hnext
          cases hnext
          exact hcall.running (hhearing.running _ _ hconn) hown hin
        · rw [hother c' hne] at hnext
          exact hhearing.running c' conn₁ hnext hin
      · rcases List.mem_append.mp hmem with hold | hnew
        · exact (hhearing.sent c' peerId nonce response hold).mono _ hsame
        · rcases List.mem_append.mp hnew with hshown | hanswer
          · exact absurd hshown sent_notMem_observeCall
          · exact (hhearing.explained_answer hconn hcall hanswer).mono _ hsame
      · rw [hsame]
        obtain ⟨response, hmem⟩ := hheard
        rcases List.mem_append.mp hmem with hold | hnew
        · exact hhearing.heard c' peerId ⟨response, hold⟩
        · rcases List.mem_append.mp hnew with hshown | hanswer
          · exact hhearing.running _ _ hconn (inCall_of_mem_observeCall hshown)
          · exact absurd hanswer waitReturned_notMem_answer

/-- Along every run of the daemon, every answer to a challenge is explained. -/
theorem hearing_run {initial : State} {events : List Event} (hstart : (daemon prim).start initial)
    (hrun : (daemon prim).run initial events = some s) :
    Hearing ((daemon prim).trace (observe prim) initial events) s := by
  have hinitial : Hearing [] initial := by
    obtain ⟨seed, audited, orchestrated, startedAt, rfl⟩ := hstart
    exact ⟨fun _ _ _ _ hconn => (nomatch hconn), fun _ _ hconn => (nomatch hconn),
      fun _ _ _ _ hmem => (nomatch hmem), fun _ _ hheard => (nomatch hheard.choose_spec)⟩
  exact (daemon prim).run_trace_invariant (observe prim) Hearing
    (fun _ _ _ _ hhearing hstep => hhearing.step hstep) hinitial hrun

end Syauth.Presenced
