import Syauth.Core.Bond
import Syauth.Presenced.Rpc

/-! # The PAM module's client

`authenticate` of `crates/syauth-pam/src/auth.rs`.  The bond file, the random
number generator and the socket are inputs; the line appended to `last.log`
afterwards does not change the outcome and is modelled on its own.
-/

namespace Syauth.Pam

open Presenced

def pamSuccess : Nat := 0
def pamAuthErr : Nat := 7
def pamAuthinfoUnavail : Nat := 9

def reasonOffline : String := "offline"
def reasonAdapterMissing : String := "adapter-missing"
def reasonUnknownReason : String := "unknown-reason"
def reasonNoBondsConfigured : String := "no bonds configured"
def reasonNoBondedPeer : String := "no bonded peer"

inductive AuthOutcome where
  | success (peerId : String)
  | authInfoUnavail (reason : String) (peerId : Option String)
  | authErr (reason : String) (peerId : Option String)
  deriving DecidableEq, Repr

/-- The return code and the fixed text for a reason sent by the daemon. -/
def outcomeReasonToPam (reason : String) : Nat × String :=
  if reason = ChallengeOutcome.reasonOk then (pamSuccess, ChallengeOutcome.reasonOk)
  else if reason = ChallengeOutcome.reasonDenied then (pamAuthErr, ChallengeOutcome.reasonDenied)
  else if reason = ChallengeOutcome.reasonReplay then (pamAuthErr, ChallengeOutcome.reasonReplay)
  else if reason = ChallengeOutcome.reasonBadSignature then
    (pamAuthErr, ChallengeOutcome.reasonBadSignature)
  else if reason = ChallengeOutcome.reasonResponseTimeout then
    (pamAuthinfoUnavail, ChallengeOutcome.reasonResponseTimeout)
  else if reason = reasonOffline then (pamAuthinfoUnavail, reasonOffline)
  else if reason = ChallengeOutcome.reasonBusy then
    (pamAuthinfoUnavail, ChallengeOutcome.reasonBusy)
  else if reason = ChallengeOutcome.reasonUnknownPeer then
    (pamAuthinfoUnavail, ChallengeOutcome.reasonUnknownPeer)
  else if reason = ChallengeOutcome.reasonTransportError then
    (pamAuthinfoUnavail, ChallengeOutcome.reasonTransportError)
  else if reason = reasonAdapterMissing then (pamAuthinfoUnavail, reasonAdapterMissing)
  else (pamAuthErr, reasonUnknownReason)

theorem outcomeReasonToPam_eq_success {reason : String}
    (hcode : (outcomeReasonToPam reason).1 = pamSuccess) : reason = ChallengeOutcome.reasonOk := by
  by_contra hreason
  unfold outcomeReasonToPam at hcode
  rw [if_neg hreason] at hcode
  repeat' split at hcode
  all_goals exact absurd hcode (by decide)

/-- The first record with status `Bonded`. -/
def firstBonded (store : BondStore) : Option Bond :=
  store.list.find? fun bond => bond.status = .bonded

def resolvePeerId (prim : Primitives) (read : BondFileRead) : Except AuthOutcome String :=
  match BondStore.load prim read with
  | .error _ => .error (.authInfoUnavail reasonNoBondsConfigured none)
  | .ok store =>
      match firstBonded store with
      | none => .error (.authInfoUnavail reasonNoBondedPeer none)
      | some bond => .ok bond.peerId

/-- The verdict on an answer of the daemon; `ok` and `signature` are not looked at. -/
def mapResponse (peerId : String) : Response → AuthOutcome
  | .challenge _ _ reason =>
      let mapped := outcomeReasonToPam reason
      if mapped.1 = pamSuccess then .success peerId
      else if mapped.1 = pamAuthinfoUnavail then .authInfoUnavail mapped.2 (some peerId)
      else .authErr mapped.2 (some peerId)
  | _ => .authInfoUnavail ChallengeOutcome.reasonTransportError (some peerId)

/-- One authentication.  `roundTrip` connects, writes one request and reads one response. -/
def authenticate (prim : Primitives) (read : BondFileRead) (random : Option Nonce)
    (roundTrip : Request → Except Unit Response) : AuthOutcome :=
  match resolvePeerId prim read with
  | .error outcome => outcome
  | .ok peerId =>
      match random with
      | none => .authInfoUnavail ChallengeOutcome.reasonTransportError (some peerId)
      | some nonce =>
          match roundTrip (.challenge peerId nonce.val) with
          | .error () => .authInfoUnavail ChallengeOutcome.reasonTransportError (some peerId)
          | .ok response => mapResponse peerId response

theorem mapResponse_eq_success {asked granted : String} {response : Response}
    (hmap : mapResponse asked response = .success granted) :
    asked = granted ∧ ∃ ok signature,
      response = .challenge ok signature ChallengeOutcome.reasonOk := by
  cases response with
  | challenge ok signature reason =>
      simp only [mapResponse] at hmap
      split at hmap
      · next hcode =>
          have hreason : reason = ChallengeOutcome.reasonOk := outcomeReasonToPam_eq_success hcode
          subst hreason
          exact ⟨AuthOutcome.success.inj hmap, ok, signature, rfl⟩
      · split at hmap <;> cases hmap
  | reload ok => cases hmap
  | status peers startedAt => cases hmap

/-- A grant rests on one request for the granted peer that was answered with the accepting
reason. -/
theorem authenticate_eq_success {prim : Primitives} {read : BondFileRead} {random : Option Nonce}
    {roundTrip : Request → Except Unit Response} {peerId : String}
    (hauth : authenticate prim read random roundTrip = .success peerId) :
    ∃ nonce : Nonce, ∃ ok signature, roundTrip (.challenge peerId nonce.val) =
      .ok (.challenge ok signature ChallengeOutcome.reasonOk) := by
  unfold authenticate at hauth
  split at hauth
  · next outcome hresolve =>
      subst hauth
      unfold resolvePeerId at hresolve
      repeat' split at hresolve
      all_goals cases hresolve
  · next asked hresolve =>
      split at hauth
      · cases hauth
      · next nonce =>
          split at hauth
          · cases hauth
          · next response hround =>
              obtain ⟨rfl, ok, signature, rfl⟩ := mapResponse_eq_success hauth
              exact ⟨nonce, ok, signature, hround⟩

end Syauth.Pam
