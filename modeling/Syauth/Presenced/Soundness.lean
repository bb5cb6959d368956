import Syauth.Presenced.Steps

/-! # Every accepting answer has a verified history

An observer writes down what each challenge does with the outside world and with
the peer map.  The invariant says, for every task, which observations its
position vouches for; an answer that unlocks is sent only from a position that
vouches for the whole exchange.
-/

namespace Syauth.Presenced

open Transport

/-! ## Observations -/

inductive Observation where
  /-- The entry the live map held when the call looked its peer up. -/
  | lookedUp (c : CallId) (peerId : String) (entry : Option PeerEntry)
  | drew (c : CallId) (nonce : Nonce)
  /-- A successful `notify_challenge`. -/
  | notified (c : CallId) (peerId : String) (frame : Bytes)
  | waitCalled (c : CallId) (peerId : String)
  | waitReturned (c : CallId) (peerId : String) (response : Bytes)
  | sent (c : CallId) (request : Request) (response : Response)
  deriving DecidableEq

def observeCall (s : State) (c : CallId) : Request → Phase → CallEvent → List Observation
  | .challenge peerId _, .looking _, .lookup => [.lookedUp c peerId (s.live.peers.lookup peerId)]
  | .challenge _ _, .drawing _ _, .draw (.ok nonce) _ => [.drew c nonce]
  | .challenge peerId _, .notifying tx, .notified (.ok ()) _ =>
      [.notified c peerId tx.encoded, .waitCalled c peerId]
  | .challenge peerId _, .waiting _, .responded (.ok response) _ =>
      [.waitReturned c peerId response]
  | _, _, _ => []

/-- The answer of a connection, once it has one. -/
def State.answer (s : State) (c : CallId) : List Observation :=
  match s.connections c with
  | some ⟨request, .answered response⟩ => [.sent c request response]
  | _ => []

/-- An answered connection takes no further step, so its answer is observed once. -/
def observe (prim : Primitives) (s : State) : Event → List Observation
  | .call c event =>
      match s.connections c with
      | some conn =>
          observeCall s c conn.request conn.phase event ++
            ((callStep prim s c conn event).map fun next => next.answer c).getD []
      | none => []
  | _ => []

/-! ## What a position vouches for -/

variable {prim : Primitives} {seen : List Observation} {s t : State} {c : CallId}
variable {peerId : String} {nonce : Bytes}

def PeerState.entry (peer : PeerState) : PeerEntry :=
  ⟨peer.bondKey, some peer.phonePubkey, peer.cell⟩

/-- The frame of a transaction is the challenge for its nonce, in its wire encoding. -/
def Transaction.Built (prim : Primitives) (tx : Transaction) : Prop :=
  tx.challenge = challengeFrame prim tx.peer.bondKey tx.nonce ∧
    tx.challenge.encode [] = .ok tx.encoded

/-- The observations of a call up to the draw of its nonce. -/
def drawnHistory (c : CallId) (peerId : String) (tx : Transaction) : List Observation :=
  [.lookedUp c peerId (some tx.peer.entry), .drew c tx.nonce]

def notifiedHistory (c : CallId) (peerId : String) (tx : Transaction) : List Observation :=
  drawnHistory c peerId tx ++ [.notified c peerId tx.encoded, .waitCalled c peerId]

def acceptedHistory (c : CallId) (peerId : String) (tx : Transaction) (signature : Signature) :
    List Observation :=
  notifiedHistory c peerId tx ++ [.waitReturned c peerId signature.val]

/-- The signature verifies under the looked-up key over the frame of the transaction. -/
def Transaction.Verified (prim : Primitives) (tx : Transaction) (signature : Signature) : Prop :=
  ∃ verifyingKey : VerifyingKey prim, verifyingKey.val = tx.peer.phonePubkey ∧
    verifyFrame prim verifyingKey tx.challenge signature = .ok ()

def Accepted (prim : Primitives) (seen : List Observation) (c : CallId) (peerId : String)
    (signature : Signature) : Prop :=
  ∃ tx : Transaction, tx.Built prim ∧ tx.Verified prim signature ∧
    (acceptedHistory c peerId tx signature).Sublist seen

def Vouched (prim : Primitives) (seen : List Observation) (c : CallId) (peerId : String) :
    Phase → Prop
  | .acquiring _ peer | .stamping _ peer | .drawing _ peer =>
      [Observation.lookedUp c peerId (some peer.entry)].Sublist seen
  | .notifying tx => tx.Built prim ∧ (drawnHistory c peerId tx).Sublist seen
  | .waiting tx => tx.Built prim ∧ (notifiedHistory c peerId tx).Sublist seen
  | .checking _ signature => Accepted prim seen c peerId signature
  | .auditing _ ending | .returning ending =>
      ∀ signature, ending.outcome = .ok signature → Accepted prim seen c peerId signature
  | .decoded | .looking _ | .answered _ => True

theorem Accepted.mono {signature : Signature} (haccepted : Accepted prim seen c peerId signature)
    (more : List Observation) : Accepted prim (seen ++ more) c peerId signature := by
  obtain ⟨tx, hbuilt, hverified, hseen⟩ := haccepted
  exact ⟨tx, hbuilt, hverified, hseen.trans (List.sublist_append_left seen more)⟩

theorem Vouched.mono {phase : Phase} (hvouched : Vouched prim seen c peerId phase)
    (more : List Observation) : Vouched prim (seen ++ more) c peerId phase := by
  have happend : seen.Sublist (seen ++ more) := List.sublist_append_left seen more
  cases phase with
  | acquiring tStartMs peer => exact List.Sublist.trans hvouched happend
  | stamping tStartMs peer => exact List.Sublist.trans hvouched happend
  | drawing tStartMs peer => exact List.Sublist.trans hvouched happend
  | notifying tx => exact ⟨hvouched.1, hvouched.2.trans happend⟩
  | waiting tx => exact ⟨hvouched.1, hvouched.2.trans happend⟩
  | checking tx signature => exact Accepted.mono hvouched more
  | auditing record ending => exact fun signature hok => (hvouched signature hok).mono more
  | returning ending => exact fun signature hok => (hvouched signature hok).mono more
  | decoded => trivial
  | looking tStartMs => trivial
  | answered response => trivial

/-- A refusing outcome vouches for nothing. -/
theorem vouched_conclude {tx : Transaction} {now : SystemTime} {reason : String}
    {outcome : ChallengeOutcome}
    (hrefused : ∀ signature, outcome ≠ .ok signature) :
    Vouched prim seen c peerId (tx.conclude peerId now reason outcome) :=
  fun signature hok => absurd hok (hrefused signature)

/-! ## Each position is reached with its observations -/

theorem vouched_drawPhase {tStartMs : Nat} {peer : PeerState} {random : Except String Nonce}
    {now : SystemTime} (hseen : [Observation.lookedUp c peerId (some peer.entry)].Sublist seen) :
    Vouched prim (seen ++ observeCall s c (.challenge peerId nonce) (.drawing tStartMs peer)
      (.draw random now)) c peerId (drawPhase prim peerId tStartMs peer random now) := by
  cases random with
  | error err => exact fun signature hok => absurd hok (by simp)
  | ok drawn =>
      -- a frame with an empty payload always encodes
      simp only [drawPhase, buildChallenge_eq, observeCall]
      refine ⟨⟨rfl, ?_⟩, ?_⟩
      · simp [challengeFrame, untaggedChallenge, Frame.encode, challengeBody]
      · exact hseen.append (List.Sublist.refl [Observation.drew c drawn])

theorem vouched_notifiedPhase {tx : Transaction} {result : Except PeripheralError Unit}
    {now : SystemTime} (hbuilt : tx.Built prim) (hseen : (drawnHistory c peerId tx).Sublist seen) :
    Vouched prim (seen ++ observeCall s c (.challenge peerId nonce) (.notifying tx)
      (.notified result now)) c peerId (notifiedPhase peerId tx result now) := by
  cases result with
  | error err => exact vouched_conclude (challengeOutcomeForTransport_ne_ok err)
  | ok value => exact ⟨hbuilt, hseen.append (List.Sublist.refl _)⟩

theorem vouched_respondedPhase {tx : Transaction} {result : Except PeripheralError Bytes}
    {now : SystemTime} (hbuilt : tx.Built prim)
    (hseen : (notifiedHistory c peerId tx).Sublist seen) :
    Vouched prim (seen ++ observeCall s c (.challenge peerId nonce) (.waiting tx)
      (.responded result now)) c peerId (respondedPhase prim peerId tx result now) := by
  cases result with
  | error err =>
      cases err with
      | responseTimeout peer deadlineMs => exact vouched_conclude fun _ => by simp
      | _ => exact vouched_conclude (challengeOutcomeForTransport_ne_ok _)
  | ok response =>
      simp only [respondedPhase]
      cases hcheck : checkResponse prim tx.peer.phonePubkey tx.challenge response with
      | error outcome =>
          refine vouched_conclude fun signature => ?_
          rw [checkResponse_eq_error prim hcheck]
          simp
      | ok signature =>
          obtain ⟨rfl, hverified⟩ := checkResponse_eq_ok prim hcheck
          exact ⟨tx, hbuilt, hverified, hseen.append (List.Sublist.refl _)⟩

/-- A step of a call leaves it in a position that is vouched for. -/
theorem CallStep.vouched {phase phase' : Phase} {event : CallEvent}
    (hcall : CallStep prim s c ⟨.challenge peerId nonce, phase⟩ event t)
    (hvouched : Vouched prim seen c peerId phase)
    (hnext : t.connections c = some ⟨.challenge peerId nonce, phase'⟩) :
    Vouched prim (seen ++ observeCall s c (.challenge peerId nonce) phase event) c peerId
      phase' := by
  cases hcall with
  | answer | enter | finished | released =>
      obtain rfl := State.phase_of_advance (s := s) hnext
      trivial
  | found hpeer =>
      obtain rfl := State.phase_of_advance hnext
      have hentry := lookupPeer_eq_some.mp hpeer
      simp only [observeCall, hentry]
      exact List.sublist_append_right seen _
  | unknown | busy =>
      obtain rfl := State.phase_of_advance hnext
      exact fun signature hok => absurd hok (by simp)
  | acquired | stamped | audited =>
      obtain rfl := State.phase_of_advance hnext
      exact hvouched.mono _
  | drew =>
      obtain rfl := State.phase_of_advance hnext
      exact vouched_drawPhase hvouched
  | notified =>
      obtain rfl := State.phase_of_advance hnext
      exact vouched_notifiedPhase hvouched.1 hvouched.2
  | responded =>
      obtain rfl := State.phase_of_advance hnext
      exact vouched_respondedPhase hvouched.1 hvouched.2
  | replayed =>
      obtain rfl := State.phase_of_advance hnext
      exact vouched_conclude fun _ => by simp
  | accepted =>
      -- the only position with an accepting outcome, reached from a checked signature
      obtain rfl := State.phase_of_advance hnext
      intro signature hok
      have hsame := ChallengeOutcome.ok.inj hok
      subst hsame
      exact Accepted.mono hvouched _

theorem drawPhase_ne_answered {tStartMs : Nat} {peer : PeerState} {random : Except String Nonce}
    {now : SystemTime} {response : Response} :
    Phase.answered response ≠ drawPhase prim peerId tStartMs peer random now := by
  cases random with
  | error err => exact Phase.noConfusion
  | ok drawn =>
      simp only [drawPhase, buildChallenge_eq]
      exact Phase.noConfusion

theorem notifiedPhase_ne_answered {tx : Transaction} {result : Except PeripheralError Unit}
    {now : SystemTime} {response : Response} :
    Phase.answered response ≠ notifiedPhase peerId tx result now := by
  cases result <;> exact Phase.noConfusion

theorem respondedPhase_ne_answered {tx : Transaction} {result : Except PeripheralError Bytes}
    {now : SystemTime} {response : Response} :
    Phase.answered response ≠ respondedPhase prim peerId tx result now := by
  unfold respondedPhase
  repeat' split
  all_goals exact Phase.noConfusion

/-- A connection is answered with a refusal by `dispatch` or with the outcome of its call. -/
theorem CallStep.answered {request request' : Request} {phase : Phase} {event : CallEvent}
    {response : Response} (hcall : CallStep prim s c ⟨request, phase⟩ event t)
    (hanswer : t.connections c = some ⟨request', .answered response⟩) :
    DispatchAnswer s request response ∨ ∃ peerId nonce ending, request = .challenge peerId nonce ∧
      phase = .returning ending ∧ response = .ofOutcome ending.outcome := by
  cases hcall with
  | answer queue given hgiven =>
      have hphase := State.phase_of_advance hanswer
      rw [Phase.answered.inj hphase]
      exact .inl hgiven
  | finished | released =>
      have hphase := State.phase_of_advance (s := s) hanswer
      exact .inr ⟨_, _, _, rfl, rfl, Phase.answered.inj hphase⟩
  | drew => exact absurd (State.phase_of_advance hanswer) drawPhase_ne_answered
  | notified => exact absurd (State.phase_of_advance hanswer) notifiedPhase_ne_answered
  | responded => exact absurd (State.phase_of_advance hanswer) respondedPhase_ne_answered
  | _ => cases State.phase_of_advance hanswer

/-! ## The invariant -/

/-- The answer unlocks after the whole exchange of its own call, in order. -/
def Granted (prim : Primitives) (seen : List Observation) (c : CallId) (request : Request)
    (response : Response) : Prop :=
  ∃ peerId nonce, ∃ tx : Transaction, ∃ signature : Signature,
    request = .challenge peerId nonce ∧ response = .ofOutcome (.ok signature) ∧
      tx.Built prim ∧ tx.Verified prim signature ∧
      (acceptedHistory c peerId tx signature ++ [Observation.sent c request response]).Sublist seen

structure Tracking (prim : Primitives) (seen : List Observation) (s : State) : Prop where
  vouched : ∀ c peerId nonce phase,
    s.connections c = some ⟨.challenge peerId nonce, phase⟩ → Vouched prim seen c peerId phase
  granted : ∀ c request response, Observation.sent c request response ∈ seen →
    response.Refuses ∨ Granted prim seen c request response

theorem Granted.mono {request : Request} {response : Response}
    (hgranted : Granted prim seen c request response) (more : List Observation) :
    Granted prim (seen ++ more) c request response := by
  obtain ⟨peerId, nonce, tx, signature, hrequest, hresponse, hbuilt, hverified, hseen⟩ := hgranted
  exact ⟨peerId, nonce, tx, signature, hrequest, hresponse, hbuilt, hverified,
    hseen.trans (List.sublist_append_left seen more)⟩

theorem sent_notMem_observeCall {request : Request} {phase : Phase} {event : CallEvent}
    {c' : CallId} {request' : Request} {response : Response} :
    Observation.sent c' request' response ∉ observeCall s c request phase event := by
  unfold observeCall
  split <;> simp

theorem mem_answer {c' : CallId} {request : Request} {response : Response}
    (hmem : Observation.sent c' request response ∈ t.answer c) :
    c' = c ∧ t.connections c = some ⟨request, .answered response⟩ ∧
      t.answer c = [Observation.sent c request response] := by
  unfold State.answer at hmem ⊢
  split at hmem
  · next request' response' hconn =>
      obtain ⟨rfl, rfl, rfl⟩ := Observation.sent.inj (List.mem_singleton.mp hmem)
      simp [hconn]
  · cases hmem

theorem observe_call {conn : Connection} {event : CallEvent} (hconn : s.connections c = some conn)
    (hstep : (daemon prim).step s (.call c event) = some t) :
    observe prim s (.call c event) =
      observeCall s c conn.request conn.phase event ++ t.answer c := by
  simp only [daemon, step, hconn] at hstep
  simp only [observe, hconn, hstep, Option.map_some, Option.getD_some]

/-- Only the step of a call that was vouched for can send a new answer. -/
theorem Tracking.granted_call (htracking : Tracking prim seen s) {request : Request} {phase : Phase}
    {event : CallEvent} (hconn : s.connections c = some ⟨request, phase⟩)
    (hcall : CallStep prim s c ⟨request, phase⟩ event t) {c' : CallId} {request' : Request}
    {response : Response} (hmem : Observation.sent c' request' response ∈ t.answer c) :
    response.Refuses ∨
      Granted prim (seen ++ (observeCall s c request phase event ++ t.answer c)) c' request'
        response := by
  obtain ⟨rfl, hanswer, hsingle⟩ := mem_answer hmem
  have hrequest : request' = request := hcall.request_eq hanswer
  subst hrequest
  rcases hcall.answered hanswer with hgiven | ⟨peerId, nonce, ending, rfl, rfl, rfl⟩
  · exact .inl hgiven.refuses
  · by_cases hok : ∃ signature, ending.outcome = .ok signature
    · obtain ⟨signature, hok⟩ := hok
      have hvouched := htracking.vouched _ _ _ _ hconn
      obtain ⟨tx, hbuilt, hverified, hseen⟩ := hvouched signature hok
      refine .inr ⟨peerId, nonce, tx, signature, rfl, by rw [hok], hbuilt, hverified, ?_⟩
      rw [hsingle, ← List.append_assoc]
      exact (hseen.trans (List.sublist_append_left seen _)).append (List.Sublist.refl _)
    · exact .inl (Response.ofOutcome_refuses fun signature heq => hok ⟨signature, heq⟩)

theorem Tracking.step (htracking : Tracking prim seen s) {event : Event}
    (hstep : (daemon prim).step s event = some t) :
    Tracking prim (seen ++ observe prim s event) t := by
  cases step_sound hstep with
  | accept hnew =>
      change Tracking prim (seen ++ []) _
      rw [List.append_nil]
      refine ⟨fun c' peerId nonce phase hconn => ?_, htracking.granted⟩
      simp only [Function.update_apply] at hconn
      split at hconn
      · obtain ⟨-, rfl⟩ := Connection.mk.inj (Option.some.inj hconn)
        trivial
      · exact htracking.vouched c' peerId nonce phase hconn
  | loop hloop =>
      change Tracking prim (seen ++ []) t
      rw [List.append_nil]
      refine ⟨fun c' peerId nonce phase hconn => ?_, htracking.granted⟩
      rw [hloop.connections_eq] at hconn
      exact htracking.vouched c' peerId nonce phase hconn
  | @call c conn callEvent _ hconn hcall =>
      rw [observe_call hconn hstep]
      constructor
      · -- the stepping call is vouched for by its step, the others by what was seen before
        intro c' peerId nonce phase' hnext
        by_cases hsame : c' = c
        · subst hsame
          obtain ⟨request, phase⟩ := conn
          have hrequest : Request.challenge peerId nonce = request := hcall.request_eq hnext
          subst hrequest
          rw [← List.append_assoc]
          exact (hcall.vouched (htracking.vouched _ _ _ _ hconn) hnext).mono _
        · obtain ⟨-, -, -, phase, hconnections⟩ := hcall.frame
          rw [hconnections, Function.update_of_ne hsame] at hnext
          exact (htracking.vouched c' peerId nonce phase' hnext).mono _
      · intro c' request response hmem
        rcases List.mem_append.mp hmem with hold | hnew
        · exact (htracking.granted c' request response hold).imp_right fun h => h.mono _
        · rcases List.mem_append.mp hnew with hcallEvent | hanswer
          · exact absurd hcallEvent sent_notMem_observeCall
          · exact htracking.granted_call hconn hcall hanswer

/-- Along every run of the daemon, every answer sent refuses or closes a verified exchange. -/
theorem tracking_run {initial : State} {events : List Event} (hstart : (daemon prim).start initial)
    (hrun : (daemon prim).run initial events = some s) :
    Tracking prim ((daemon prim).trace (observe prim) initial events) s := by
  have hinitial : Tracking prim [] initial := by
    obtain ⟨seed, audited, orchestrated, startedAt, rfl⟩ := hstart
    exact ⟨fun _ _ _ _ hconn => (nomatch hconn), fun _ _ _ hmem => (nomatch hmem)⟩
  exact (daemon prim).run_trace_invariant (observe prim) (Tracking prim)
    (fun _ _ _ _ htracking hstep => htracking.step hstep) hinitial hrun

end Syauth.Presenced
