import Syauth.Pam.Soundness
import Syauth.Presenced.Heard

/-! # When the PAM stack is stopped

`PAM_AUTHINFO_UNAVAIL` lets the stack go on to the password, `PAM_AUTH_ERR` stops it.
The reasons are produced by the daemon and mapped here with a fail-closed default.
-/

namespace Syauth.Pam

open Presenced

variable {prim : Primitives}

/-- The reason of an outcome is mapped to `PAM_AUTHINFO_UNAVAIL` exactly when no byte of the
phone was needed for it. -/
theorem outcomeReasonToPam_reasonStr (outcome : ChallengeOutcome) :
    (outcomeReasonToPam outcome.reasonStr).1 = pamAuthinfoUnavail ↔ outcome.unheard = true := by
  cases outcome <;> simp only [ChallengeOutcome.reasonStr, ChallengeOutcome.unheard] <;> decide

/-- The authentication got an answer, and every call that gave it had heard from the phone. -/
def Arrived (prim : Primitives) (trace : List Observation) (read : BondFileRead)
    (random : Option Nonce) (roundTrip : Request → Except Unit Response) : Prop :=
  ∃ peerId nonce response, resolvePeerId prim read = .ok peerId ∧ random = some nonce ∧
    roundTrip (.challenge peerId nonce.val) = .ok response ∧
    ∀ c, Observation.sent c (.challenge peerId nonce.val) response ∈ trace → Heard trace c peerId

/-- The stack is stopped only on bytes of the phone, and every other failure falls through. -/
def FallsThrough (prim : Primitives) (trace : List Observation) (read : BondFileRead)
    (random : Option Nonce) (roundTrip : Request → Except Unit Response) : Prop :=
  (∀ reason peerId, authenticate prim read random roundTrip = .authErr reason peerId →
    Arrived prim trace read random roundTrip) ∧
  (¬ Arrived prim trace read random roundTrip →
    (∃ peerId, authenticate prim read random roundTrip = .success peerId) ∨
      ∃ reason peerId, authenticate prim read random roundTrip = .authInfoUnavail reason peerId)

/-- The request reached the daemon and an answer came back. -/
def Answered (prim : Primitives) (read : BondFileRead) (random : Option Nonce)
    (roundTrip : Request → Except Unit Response) : Prop :=
  ∃ peerId nonce response, resolvePeerId prim read = .ok peerId ∧ random = some nonce ∧
    roundTrip (.challenge peerId nonce.val) = .ok response

/-! ## One authentication -/

variable {read : BondFileRead} {random : Option Nonce} {roundTrip : Request → Except Unit Response}

theorem authenticate_of_answered {peerId : String} {nonce : Nonce} {response : Response}
    (hresolve : resolvePeerId prim read = .ok peerId) (hrandom : random = some nonce)
    (hround : roundTrip (.challenge peerId nonce.val) = .ok response) :
    authenticate prim read random roundTrip = mapResponse peerId response := by
  unfold authenticate
  simp only [hresolve, hrandom, hround]

theorem authenticate_of_not_answered (hunanswered : ¬ Answered prim read random roundTrip) :
    ∃ reason peerId, authenticate prim read random roundTrip = .authInfoUnavail reason peerId := by
  unfold authenticate
  split
  · next outcome hresolve =>
      unfold resolvePeerId at hresolve
      repeat' split at hresolve
      all_goals
        cases hresolve
        try exact ⟨_, _, rfl⟩
  · next peerId hresolve =>
      split
      · exact ⟨_, _, rfl⟩
      · next nonce =>
          split
          · exact ⟨_, _, rfl⟩
          · next response hround =>
              exact absurd ⟨peerId, nonce, response, hresolve, rfl, hround⟩ hunanswered

/-- An outcome without bytes of the phone never stops the stack. -/
theorem mapResponse_of_unheard (peerId : String) {outcome : ChallengeOutcome}
    (hunheard : outcome.unheard = true) :
    ∃ reason, mapResponse peerId (.ofOutcome outcome) = .authInfoUnavail reason (some peerId) := by
  have hcode := (outcomeReasonToPam_reasonStr outcome).mpr hunheard
  refine ⟨(outcomeReasonToPam outcome.reasonStr).2, ?_⟩
  simp only [Response.ofOutcome, mapResponse, hcode]
  rfl

theorem mapResponse_stub (peerId : String) :
    mapResponse peerId .stub = .authErr reasonUnknownReason (some peerId) := by
  rfl

theorem fallsThrough_of_authErr {trace : List Observation}
    (hauthErr : ∀ reason peerId, authenticate prim read random roundTrip = .authErr reason peerId →
      Arrived prim trace read random roundTrip) :
    FallsThrough prim trace read random roundTrip := by
  refine ⟨hauthErr, fun hsilent => ?_⟩
  cases hauth : authenticate prim read random roundTrip with
  | success peerId => exact .inl ⟨peerId, rfl⟩
  | authInfoUnavail reason peerId => exact .inr ⟨reason, peerId, rfl⟩
  | authErr reason peerId => exact absurd (hauthErr reason peerId hauth) hsilent

/-! ## Every run -/

variable {initial final : State} {events : List Event}

theorem fallsThrough_of_orchestrated (hstart : (daemon prim).start initial)
    (hrun : (daemon prim).run initial events = some final)
    (hrunning : initial.orchestrated = true) :
    FallsThrough prim ((daemon prim).trace (observe prim) initial events) read random
      roundTrip := by
  apply fallsThrough_of_authErr
  intro reason id hauth
  by_cases hanswered : Answered prim read random roundTrip
  · obtain ⟨peerId, nonce, response, hresolve, hrandom, hround⟩ := hanswered
    refine ⟨peerId, nonce, response, hresolve, hrandom, hround, fun c hsent => ?_⟩
    rw [authenticate_of_answered hresolve hrandom hround] at hauth
    rcases (hearing_run hstart hrun).sent c peerId _ response hsent with
      ⟨hstopped, -⟩ | ⟨-, outcome, rfl, hunheard | hheard⟩
    · rw [orchestrated_run hrun, hrunning] at hstopped
      cases hstopped
    · obtain ⟨_, hmap⟩ := mapResponse_of_unheard peerId hunheard
      rw [hmap] at hauth
      cases hauth
    · exact hheard
  · obtain ⟨_, _, hunavail⟩ := authenticate_of_not_answered hanswered
    rw [hunavail] at hauth
    cases hauth

/-- Without an orchestrator the answer is the stub, whose reason the mapper does not know. -/
theorem not_fallsThrough_of_stub (hstart : (daemon prim).start initial)
    (hrun : (daemon prim).run initial events = some final)
    (hsocket : AnsweredBy prim initial events roundTrip)
    (hstopped : initial.orchestrated = false) (hanswered : Answered prim read random roundTrip) :
    ¬ FallsThrough prim ((daemon prim).trace (observe prim) initial events) read random
      roundTrip := by
  rintro ⟨hauthErr, -⟩
  have hhearing := hearing_run hstart hrun
  obtain ⟨peerId, nonce, response, hresolve, hrandom, hround⟩ := hanswered
  have hauth := authenticate_of_answered hresolve hrandom hround
  have hfinal : final.orchestrated = false := by rw [orchestrated_run hrun, hstopped]
  obtain ⟨c, hsent⟩ := hsocket _ _ hround
  rcases hhearing.sent c peerId _ response hsent with ⟨-, rfl⟩ | ⟨hrunning, -⟩
  · rw [mapResponse_stub] at hauth
    obtain ⟨peerId', nonce', response', hresolve', hrandom', hround', hheard⟩ :=
      hauthErr _ _ hauth
    obtain rfl := Except.ok.inj (hresolve.symm.trans hresolve')
    obtain rfl := Option.some.inj (hrandom.symm.trans hrandom')
    obtain rfl := Except.ok.inj (hround.symm.trans hround')
    have hrunning := hhearing.heard c peerId (hheard c hsent)
    rw [hfinal] at hrunning
    cases hrunning
  · rw [hfinal] at hrunning
    cases hrunning

/-- An authentication obeys the fall-through law exactly when the daemon has an
orchestrator or gives no answer. -/
theorem fallsThrough_iff (hstart : (daemon prim).start initial)
    (hrun : (daemon prim).run initial events = some final)
    (hsocket : AnsweredBy prim initial events roundTrip) :
    FallsThrough prim ((daemon prim).trace (observe prim) initial events) read random roundTrip ↔
      initial.orchestrated = true ∨ ¬ Answered prim read random roundTrip := by
  constructor
  · intro hfalls
    by_contra hneither
    obtain ⟨hstopped, hanswered⟩ := not_or.mp hneither
    exact not_fallsThrough_of_stub hstart hrun hsocket (Bool.eq_false_of_not_eq_true hstopped)
      (not_not.mp hanswered) hfalls
  · rintro (hrunning | hunanswered)
    · exact fallsThrough_of_orchestrated hstart hrun hrunning
    · apply fallsThrough_of_authErr
      intro reason peerId hauth
      obtain ⟨_, _, hunavail⟩ := authenticate_of_not_answered hunanswered
      rw [hunavail] at hauth
      cases hauth

theorem fallsThrough_known_answer :
    FallsThrough KnownAnswer.primitives
        ((daemon KnownAnswer.primitives).trace (observe KnownAnswer.primitives) knownInitial
          knownExchange)
        (.parsed ⟨1, [knownBond]⟩) (some KnownAnswer.nonce) knownRoundTrip ↔
      knownInitial.orchestrated = true ∨
        ¬ Answered KnownAnswer.primitives (.parsed ⟨1, [knownBond]⟩) (some KnownAnswer.nonce)
          knownRoundTrip := by
  have hsome : ((daemon KnownAnswer.primitives).run knownInitial knownExchange).isSome = true := by
    decide
  obtain ⟨final, hrun⟩ := Option.isSome_iff_exists.mp hsome
  exact fallsThrough_iff ⟨_, _, _, _, rfl⟩ hrun answeredBy_knownRoundTrip

/-! ## A daemon that serves only the socket -/

def socketOnly : State := State.init [] true false 0

def stubExchange : List Event :=
  [.accept 0 (.challenge KnownAnswer.peerId KnownAnswer.nonce.val), .call 0 (.dispatch 0)]

def stubRoundTrip : Request → Except Unit Response := fun request =>
  if request = .challenge KnownAnswer.peerId KnownAnswer.nonce.val then .ok .stub else .error ()

/-- Without an adapter the user is locked out although nothing came from the phone. -/
theorem socketOnly_not_fallsThrough :
    ¬ FallsThrough KnownAnswer.primitives
      ((daemon KnownAnswer.primitives).trace (observe KnownAnswer.primitives) socketOnly
        stubExchange)
      (.parsed ⟨1, [knownBond]⟩) (some KnownAnswer.nonce) stubRoundTrip := by
  have hsome : ((daemon KnownAnswer.primitives).run socketOnly stubExchange).isSome = true := by
    decide
  obtain ⟨final, hrun⟩ := Option.isSome_iff_exists.mp hsome
  have hsocket : AnsweredBy KnownAnswer.primitives socketOnly stubExchange stubRoundTrip := by
    intro request response hround
    unfold stubRoundTrip at hround
    split at hround
    · next hrequest =>
        cases hround
        subst hrequest
        exact ⟨0, by decide⟩
    · cases hround
  have hanswered : Answered KnownAnswer.primitives (.parsed ⟨1, [knownBond]⟩)
      (some KnownAnswer.nonce) stubRoundTrip :=
    ⟨KnownAnswer.peerId, KnownAnswer.nonce, .stub, by decide, rfl, if_pos rfl⟩
  exact not_fallsThrough_of_stub ⟨_, _, _, _, rfl⟩ hrun hsocket rfl hanswered

end Syauth.Pam
