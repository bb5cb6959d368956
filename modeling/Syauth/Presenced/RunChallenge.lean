import Syauth.Presenced.Steps

/-! # One challenge without interruption

`run_challenge` of `orchestrator.rs` as the straight line it is when nothing else
happens to the peer in between, and that the steps of the daemon compute it.
-/

namespace Syauth.Presenced

open Transport

variable (prim : Primitives)

/-- The outcome of `run_challenge` and the nonce cache it leaves, for what the two calls
to the peripheral return. -/
def runChallenge (peer : PeerState) (cache : NonceCache) (nonce : Nonce)
    (notifyChallenge : Except PeripheralError Unit)
    (waitForResponse : Except PeripheralError Bytes) : ChallengeOutcome × NonceCache :=
  match buildChallenge prim peer.bondKey nonce with
  | .error reason => (.transportError (.backend reason), cache)
  | .ok (challenge, _) =>
      match notifyChallenge with
      | .error err => (challengeOutcomeForTransport err, cache)
      | .ok () =>
          match waitForResponse with
          | .error (.responseTimeout _ _) => (.timedOut, cache)
          | .error err => (challengeOutcomeForTransport err, cache)
          | .ok response =>
              match checkResponse prim peer.phonePubkey challenge response with
              | .error outcome => (outcome, cache)
              | .ok signature =>
                  if cache.contains nonce then (.replay, cache)
                  else (.ok signature, cache.insert nonce)

/-- The steps of a call from the draw of its nonce to its outcome.  A call that is refused
early takes the first ones only. -/
def challengeSteps (c : CallId) (nonce : Nonce) (notifyChallenge : Except PeripheralError Unit)
    (waitForResponse : Except PeripheralError Bytes) (now : SystemTime) : List Event :=
  [.call c (.draw (.ok nonce) now), .call c (.notified notifyChallenge now),
    .call c (.responded waitForResponse now), .call c (.check now)]

variable {prim} {s : State} {c : CallId} {peerId : String} {nonce' : Bytes}

variable (prim) in
theorem step_of_phase {phase : Phase} (event : CallEvent)
    (hconn : s.connections c = some ⟨.challenge peerId nonce', phase⟩) (hphase : phase ≠ .decoded) :
    (daemon prim).step s (.call c event) =
      challengeStep prim s c ⟨.challenge peerId nonce', phase⟩ peerId phase event := by
  simp only [daemon, step, hconn]
  unfold callStep
  split
  · next heq => exact absurd heq hphase
  · rfl

/-- The locals of the call once its frame is built. -/
def Transaction.drawn (prim : Primitives) (tStartMs : Nat) (peer : PeerState) (nonce : Nonce) :
    Transaction where
  tStartMs := tStartMs
  peer := peer
  nonce := nonce
  challenge := challengeFrame prim peer.bondKey nonce
  encoded := challengeBody nonce ++ (computeTag prim peer.bondKey (challengeBody nonce)).val

theorem step_draw {tStartMs : Nat} {peer : PeerState} (nonce : Nonce) (now : SystemTime)
    (hconn : s.connections c = some ⟨.challenge peerId nonce', .drawing tStartMs peer⟩) :
    (daemon prim).step s (.call c (.draw (.ok nonce) now)) =
      some (s.advance c ⟨.challenge peerId nonce', .drawing tStartMs peer⟩
        (.notifying (.drawn prim tStartMs peer nonce))) := by
  rw [step_of_phase prim _ hconn Phase.noConfusion]
  simp only [challengeStep, drawPhase, buildChallenge_eq]
  rfl

theorem step_notified {tx : Transaction} (result : Except PeripheralError Unit) (now : SystemTime)
    (hconn : s.connections c = some ⟨.challenge peerId nonce', .notifying tx⟩) :
    (daemon prim).step s (.call c (.notified result now)) =
      some (s.advance c ⟨.challenge peerId nonce', .notifying tx⟩
        (notifiedPhase peerId tx result now)) :=
  step_of_phase prim _ hconn Phase.noConfusion

theorem step_responded {tx : Transaction} (result : Except PeripheralError Bytes)
    (now : SystemTime) (hconn : s.connections c = some ⟨.challenge peerId nonce', .waiting tx⟩) :
    (daemon prim).step s (.call c (.responded result now)) =
      some (s.advance c ⟨.challenge peerId nonce', .waiting tx⟩
        (respondedPhase prim peerId tx result now)) :=
  step_of_phase prim _ hconn Phase.noConfusion

/-- Some first steps of the list decide the call of a peer as the straight line does. -/
def Decided (prim : Primitives) (s : State) (c : CallId) (request : Request) (cell : CellId)
    (events : List Event) (line : ChallengeOutcome × NonceCache) : Prop :=
  ∃ k t record notified, (daemon prim).run s (events.take k) = some t ∧
    t.connections c = some ⟨request, .auditing record ⟨some cell, notified, line.1⟩⟩ ∧
    (t.live.cells cell).nonceCache = line.2

theorem Decided.cons {t : State} {request : Request} {cell : CellId} {event : Event}
    {events : List Event} {line : ChallengeOutcome × NonceCache}
    (hstep : (daemon prim).step s event = some t)
    (hdecided : Decided prim t c request cell events line) :
    Decided prim s c request cell (event :: events) line := by
  obtain ⟨k, u, record, notified, hrun, hconn, hcache⟩ := hdecided
  exact ⟨k + 1, u, record, notified, (daemon prim).run_cons_eq_some.mpr ⟨t, hstep, hrun⟩, hconn,
    hcache⟩

theorem decided_of_conclude {tx : Transaction} {conn : Connection} {now : SystemTime}
    {events : List Event} {reason : String} {outcome : ChallengeOutcome} :
    Decided prim (s.advance c conn (tx.conclude peerId now reason outcome)) c conn.request
      tx.peer.cell events (outcome, (s.live.cells tx.peer.cell).nonceCache) :=
  ⟨0, _, _, _, rfl, Function.update_self _ _ _, rfl⟩

variable {tStartMs : Nat} {peer : PeerState} {nonce : Nonce} {now : SystemTime}

theorem decided_of_checking {signature : Signature}
    (hconn : s.connections c =
      some ⟨.challenge peerId nonce', .checking (.drawn prim tStartMs peer nonce) signature⟩) :
    Decided prim s c (.challenge peerId nonce') peer.cell [.call c (.check now)]
      (if (s.live.cells peer.cell).nonceCache.contains nonce then
        (.replay, (s.live.cells peer.cell).nonceCache)
      else (.ok signature, (s.live.cells peer.cell).nonceCache.insert nonce)) := by
  have hstep := step_of_phase prim (.check now) hconn Phase.noConfusion
  simp only [challengeStep] at hstep
  by_cases hseen : (s.live.cells peer.cell).nonceCache.contains nonce = true
  · rw [if_pos hseen]
    exact .cons (hstep.trans (if_pos hseen)) decided_of_conclude
  · rw [if_neg hseen]
    refine .cons (hstep.trans (if_neg hseen)) ⟨0, _, _, _, rfl, Function.update_self _ _ _, ?_⟩
    exact congrArg PeerCell.nonceCache (Function.update_self peer.cell _ s.live.cells)

theorem decided_of_waiting (waitForResponse : Except PeripheralError Bytes)
    (hconn : s.connections c =
      some ⟨.challenge peerId nonce', .waiting (.drawn prim tStartMs peer nonce)⟩) :
    Decided prim s c (.challenge peerId nonce') peer.cell
      [.call c (.responded waitForResponse now), .call c (.check now)]
      (runChallenge prim peer (s.live.cells peer.cell).nonceCache nonce (.ok ())
        waitForResponse) := by
  apply Decided.cons (step_responded waitForResponse now hconn)
  simp only [runChallenge, buildChallenge_eq]
  cases waitForResponse with
  | error err => cases err <;> exact decided_of_conclude
  | ok response =>
      unfold respondedPhase
      simp only [Transaction.drawn]
      cases checkResponse prim peer.phonePubkey (challengeFrame prim peer.bondKey nonce)
        response with
      | error outcome => exact decided_of_conclude
      | ok signature => exact decided_of_checking (Function.update_self _ _ _)

/-- The steps of a call that is not interrupted compute `run_challenge`. -/
theorem runChallenge_decided (notifyChallenge : Except PeripheralError Unit)
    (waitForResponse : Except PeripheralError Bytes)
    (hconn : s.connections c = some ⟨.challenge peerId nonce', .drawing tStartMs peer⟩) :
    Decided prim s c (.challenge peerId nonce') peer.cell
      (challengeSteps c nonce notifyChallenge waitForResponse now)
      (runChallenge prim peer (s.live.cells peer.cell).nonceCache nonce notifyChallenge
        waitForResponse) := by
  apply Decided.cons (step_draw nonce now hconn)
  apply Decided.cons (step_notified notifyChallenge now (Function.update_self _ _ _))
  cases notifyChallenge with
  | error err =>
      simp only [runChallenge, buildChallenge_eq]
      exact decided_of_conclude
  | ok value => exact decided_of_waiting waitForResponse (Function.update_self _ _ _)

end Syauth.Presenced
