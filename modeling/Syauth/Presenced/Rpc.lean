import Syauth.Presenced.Challenge

/-! # Requests and responses of the daemon's socket

The message types of `crates/syauth-presenced/src/rpc.rs` and the answer that
`dispatch` of `server.rs` builds from a challenge outcome.
-/

namespace Syauth.Presenced

inductive Request where
  | challenge (peerId : String) (nonce : Bytes)
  | reload
  | status
  deriving DecidableEq

structure PeerStatus where
  peerId : String
  lastChallengeMsAgo : Option Nat
  lastConnectMsAgo : Option Nat
  currentSessionUuid : Uuid
  inFlightChallenges : Nat
  deriving DecidableEq

inductive Response where
  | challenge (ok : Bool) (signature : Option Bytes) (reason : String)
  | reload (ok : Bool)
  | status (peers : List PeerStatus) (startedAt : SystemTime)
  deriving DecidableEq

def stubChallengeReason : String := "not-implemented"

/-- The answer to a challenge request when no orchestrator is running. -/
def Response.stub : Response := .challenge false none stubChallengeReason

def Response.ofOutcome (outcome : ChallengeOutcome) : Response :=
  .challenge outcome.isOk outcome.signatureBytes outcome.reasonStr

/-- Only the accepting outcome is answered with the reason that unlocks. -/
theorem Response.ofOutcome_eq_ok {outcome : ChallengeOutcome} {ok : Bool}
    {signature : Option Bytes}
    (hresponse : Response.ofOutcome outcome = .challenge ok signature ChallengeOutcome.reasonOk) :
    ∃ sig : Signature, outcome = .ok sig ∧ ok = true ∧ signature = some sig.val := by
  obtain ⟨hok, hsignature, hreason⟩ := Response.challenge.inj hresponse
  obtain ⟨sig, rfl⟩ := ChallengeOutcome.reasonStr_eq_ok.mp hreason
  exact ⟨sig, rfl, hok.symm, hsignature.symm⟩

end Syauth.Presenced
