import Syauth.Core.Crypto
import Syauth.Transport.Peripheral

/-! # Challenge outcomes and the nonce cache

The parts of `crates/syauth-presenced/src/orchestrator.rs` that one challenge
uses and that touch no shared state of the daemon, apart from the cache of nonces
that every peer entry owns.
-/

namespace Syauth.Presenced

open Transport

def nonceLruCap : Nat := 64

/-- Wall-clock time in nanoseconds since the Unix epoch. -/
abbrev SystemTime := Int

/-- Whole milliseconds since the epoch, and zero before it. -/
def epochMillis (t : SystemTime) : Nat :=
  if t < 0 then 0 else (t / 1000000).toNat

/-! ## Nonce cache -/

/-- The last nonces of one peer, oldest first. -/
structure NonceCache where
  nonces : List Nonce
  deriving DecidableEq

namespace NonceCache

def new : NonceCache := ⟨[]⟩

def contains (cache : NonceCache) (nonce : Nonce) : Bool :=
  cache.nonces.any fun n => n == nonce

def insert (cache : NonceCache) (nonce : Nonce) : NonceCache :=
  let pushed := cache.nonces ++ [nonce]
  if pushed.length > nonceLruCap then ⟨pushed.tail⟩ else ⟨pushed⟩

end NonceCache

/-! ## Outcomes -/

inductive ChallengeOutcome where
  | ok (signature : Signature)
  | denied
  | replay
  | badSignature
  | timedOut
  | unknownPeer
  | busy
  | transportError (err : PeripheralError)
  deriving DecidableEq

namespace ChallengeOutcome

def reasonOk : String := "ok"
def reasonDenied : String := "denied"
def reasonReplay : String := "replay"
def reasonBadSignature : String := "bad-signature"
def reasonResponseTimeout : String := "response-timeout"
def reasonUnknownPeer : String := "unknown-peer"
def reasonTransportError : String := "transport-error"
def reasonBusy : String := "busy"

def reasonStr : ChallengeOutcome → String
  | .ok _ => reasonOk
  | .denied => reasonDenied
  | .replay => reasonReplay
  | .badSignature => reasonBadSignature
  | .timedOut => reasonResponseTimeout
  | .unknownPeer => reasonUnknownPeer
  | .busy => reasonBusy
  | .transportError _ => reasonTransportError

def signatureBytes : ChallengeOutcome → Option Bytes
  | .ok signature => some signature.val
  | _ => none

def isOk : ChallengeOutcome → Bool
  | .ok _ => true
  | _ => false

/-- The reason text separates the accepting outcome from every other one. -/
theorem reasonStr_eq_ok {outcome : ChallengeOutcome} :
    outcome.reasonStr = reasonOk ↔ ∃ signature, outcome = .ok signature := by
  constructor
  · intro hreason
    cases outcome with
    | ok signature => exact ⟨signature, rfl⟩
    | transportError err =>
        exact absurd (show reasonTransportError = reasonOk from hreason) (by decide)
    | _ => exact absurd hreason (by decide)
  · rintro ⟨signature, rfl⟩
    rfl

end ChallengeOutcome

/-- The outcome of a failed `notify_challenge` or `wait_for_response`. -/
def challengeOutcomeForTransport : PeripheralError → ChallengeOutcome
  | .unknownPeer _ => .unknownPeer
  | .responseTimeout _ _ => .timedOut
  | other => .transportError (.backend other.display)

theorem challengeOutcomeForTransport_ne_ok (err : PeripheralError) (signature : Signature) :
    challengeOutcomeForTransport err ≠ .ok signature := by
  cases err <;> simp [challengeOutcomeForTransport]

/-! ## The challenge frame -/

variable (prim : Primitives)

/-- The frame of one challenge before it is tagged. -/
def untaggedChallenge (nonce : Nonce) : Frame where
  version := wireVersionV1
  nonce := nonce
  payload := []
  tag := Octets.zero tagLen

/-- The tagged frame with its wire bytes, or the reason why one of them cannot be built. -/
def buildChallenge (bondKey : BondKey) (nonce : Nonce) : Except String (Frame × Bytes) :=
  let untagged := untaggedChallenge nonce
  match untagged.bodyBytes with
  | .error err => .error ("challenge body_bytes: " ++ err.display)
  | .ok body =>
      let challenge := { untagged with tag := computeTag prim bondKey body }
      match challenge.encode [] with
      | .error err => .error ("encode challenge frame: " ++ err.display)
      | .ok encoded => .ok (challenge, encoded)

/-- The body of a challenge: version, nonce and an empty payload. -/
def challengeBody (nonce : Nonce) : Bytes := wireVersionV1 :: nonce.val

/-- The frame `run_challenge` builds for a peer's key and a nonce. -/
def challengeFrame (bondKey : BondKey) (nonce : Nonce) : Frame :=
  { untaggedChallenge nonce with tag := computeTag prim bondKey (challengeBody nonce) }

/-- With an empty payload neither encoding step of `run_challenge` can fail. -/
theorem buildChallenge_eq (bondKey : BondKey) (nonce : Nonce) :
    buildChallenge prim bondKey nonce =
      .ok (challengeFrame prim bondKey nonce,
        challengeBody nonce ++ (computeTag prim bondKey (challengeBody nonce)).val) := by
  simp [buildChallenge, untaggedChallenge, Frame.bodyBytes, Frame.encode, challengeFrame,
    challengeBody]

theorem bodyBytes_challengeFrame (bondKey : BondKey) (nonce : Nonce) :
    (challengeFrame prim bondKey nonce).bodyBytes = .ok (challengeBody nonce) := by
  simp [challengeFrame, untaggedChallenge, Frame.bodyBytes, challengeBody]

/-- What is decided from the bytes of a response before the nonce cache is consulted. -/
def checkResponse (pubkey : Pubkey) (challenge : Frame) (response : Bytes) :
    Except ChallengeOutcome Signature :=
  match parseSignature response with
  | none => .error .badSignature
  | some signature =>
      match VerifyingKey.fromBytes prim pubkey with
      | none => .error .badSignature
      | some verifyingKey =>
          match verifyFrame prim verifyingKey challenge signature with
          | .error _ => .error .badSignature
          | .ok () => .ok signature

/-- An accepted response is a signature of 64 bytes that verifies over the frame. -/
theorem checkResponse_eq_ok {pubkey : Pubkey} {challenge : Frame} {response : Bytes}
    {signature : Signature}
    (hcheck : checkResponse prim pubkey challenge response = .ok signature) :
    response = signature.val ∧
      ∃ verifyingKey : VerifyingKey prim, verifyingKey.val = pubkey ∧
        verifyFrame prim verifyingKey challenge signature = .ok () := by
  unfold checkResponse at hcheck
  cases hparse : parseSignature response with
  | none => simp [hparse] at hcheck
  | some parsed =>
      cases hkey : VerifyingKey.fromBytes prim pubkey with
      | none => simp [hparse, hkey] at hcheck
      | some verifyingKey =>
          cases hverify : verifyFrame prim verifyingKey challenge parsed with
          | error err => simp [hparse, hkey, hverify] at hcheck
          | ok value =>
              simp only [hparse, hkey, hverify, Except.ok.injEq] at hcheck
              subst hcheck
              refine ⟨(parseSignature_eq_some.mp hparse).symm, verifyingKey, ?_, hverify⟩
              exact VerifyingKey.fromBytes_eq_some prim hkey

/-- A refused response is reported as a bad signature. -/
theorem checkResponse_eq_error {pubkey : Pubkey} {challenge : Frame} {response : Bytes}
    {outcome : ChallengeOutcome}
    (hcheck : checkResponse prim pubkey challenge response = .error outcome) :
    outcome = .badSignature := by
  unfold checkResponse at hcheck
  repeat' split at hcheck
  all_goals first
    | exact (Except.error.inj hcheck).symm
    | cases hcheck

end Syauth.Presenced
