import Syauth.Pam.FallThrough
import Syauth.Presenced.ResponseDecode

/-! # The PAM module's round trip

`daemon_round_trip` and `authenticate_inner` of `crates/syauth-pam/src/auth.rs`, for any
bytes on the socket and with the panic that reading them may end in, and the boundary of
`entry.rs` that catches it.
-/

namespace Syauth.Pam

open Presenced

section Model

variable {γ κ ε : Type}

/-- Nothing when reading the response panics. -/
def daemonRoundTrip (reader : ResponseReader γ) (cbor : Ciborium Request)
    (connect : Except ε (ClientStream κ)) (request : Request) : Option (Except Unit Response) :=
  match connect with
  | .error _ => some (.error ())
  | .ok stream =>
      match stream.setWriteTimeout, stream.setReadTimeout,
        stream.writeFrameBlocking cbor request with
      | .ok (), .ok (), .ok () =>
          (stream.readResponse reader).map (Except.mapError fun _ => ())
      | _, _, _ => some (.error ())

def authenticateInner (prim : Primitives) (read : BondFileRead) (random : Option Nonce)
    (roundTrip : Request → Option (Except Unit Response)) : Option AuthOutcome :=
  match resolvePeerId prim read with
  | .error outcome => some outcome
  | .ok peerId =>
      match random with
      | none => some (.authInfoUnavail ChallengeOutcome.reasonTransportError (some peerId))
      | some nonce =>
          match roundTrip (.challenge peerId nonce.val) with
          | none => none
          | some (.error ()) =>
              some (.authInfoUnavail ChallengeOutcome.reasonTransportError (some peerId))
          | some (.ok response) => some (mapResponse peerId response)

def AuthOutcome.toPamCode : AuthOutcome → Nat
  | .success _ => pamSuccess
  | .authInfoUnavail _ _ => pamAuthinfoUnavail
  | .authErr _ _ => pamAuthErr

/-- `catch_unwind` around an entry point: a panic is a denial. -/
def runEntry (code : Option Nat) : Nat := code.getD pamAuthErr

def pamSmAuthenticate (prim : Primitives) (read : BondFileRead) (random : Option Nonce)
    (roundTrip : Request → Option (Except Unit Response)) : Nat :=
  runEntry ((authenticateInner prim read random roundTrip).map AuthOutcome.toPamCode)

end Model

variable {γ κ ε : Type} {reader : ResponseReader γ} {cbor : Ciborium Request}
variable {connect : Except ε (ClientStream κ)} {payload : Bytes}
variable {prim : Primitives} {read : BondFileRead} {random : Option Nonce}

/-- Over round trips that return, this is the client as it was defined before. -/
theorem authenticateInner_eq_authenticate {roundTrip : Request → Option (Except Unit Response)}
    {answers : Request → Except Unit Response}
    (hreturns : ∀ request, roundTrip request = some (answers request)) :
    authenticateInner prim read random roundTrip =
      some (authenticate prim read random answers) := by
  unfold authenticateInner authenticate
  cases resolvePeerId prim read with
  | error outcome => rfl
  | ok peerId =>
      cases random with
      | none => rfl
      | some nonce =>
          simp only [hreturns]
          cases answers (.challenge peerId nonce.val) <;> rfl

/-- Against an end that sends a payload, the round trip fails or decodes it. -/
theorem daemonRoundTrip_of_carries (reader : ResponseReader γ) (cbor : Ciborium Request)
    (hcarries : ∀ stream, connect = .ok stream → stream.Carries payload)
    (request : Request) :
    daemonRoundTrip reader cbor connect request = some (.error ()) ∨
      daemonRoundTrip reader cbor connect request =
        (reader.decodeResponse (κ := κ) payload).map (Except.mapError fun _ => ()) := by
  unfold daemonRoundTrip
  split
  next => exact .inl rfl
  next stream =>
    split
    next =>
      rw [ClientStream.readResponse_of_carries (hcarries stream rfl)]
      exact .inr rfl
    next => exact .inl rfl

/-- A payload that is decoded is mapped as a challenge or falls through. -/
theorem authenticateInner_of_decoded (cbor : Ciborium Request) (prim : Primitives)
    (read : BondFileRead) (random : Option Nonce)
    {result : Except (Presenced.FrameError κ) Response}
    (hcarries : ∀ stream, connect = .ok stream → stream.Carries payload)
    (hdecoded : reader.decodeResponse payload = some result) :
    ∃ outcome, authenticateInner prim read random (daemonRoundTrip reader cbor connect) =
        some outcome ∧
      ((∃ reason peerId, outcome = .authInfoUnavail reason peerId) ∨
        ∃ ok signature reason, result = .ok (.challenge ok signature reason)) := by
  have hround := daemonRoundTrip_of_carries reader cbor hcarries
  -- The decoded result decides the answer to every request that got through.
  have hanswers : ∀ request, ∃ answer,
      daemonRoundTrip reader cbor connect request = some answer ∧
        ∀ response, answer = .ok response → result = .ok response := by
    intro request
    rcases hround request with hfailed | hsent
    · refine ⟨.error (), hfailed, ?_⟩
      intro response h
      cases h
    · rw [hdecoded, Option.map_some] at hsent
      refine ⟨_, hsent, ?_⟩
      intro response h
      cases result with
      | error err => cases h
      | ok decoded =>
          cases h
          rfl
  choose answers hreturns hresult using hanswers
  refine ⟨_, authenticateInner_eq_authenticate hreturns, ?_⟩
  by_cases hanswered : Answered prim read random answers
  · obtain ⟨peerId, nonce, response, hresolve, hrandom, hresponse⟩ := hanswered
    rw [authenticate_of_answered hresolve hrandom hresponse]
    have hdone := hresult _ response hresponse
    cases response with
    | challenge ok signature reason => exact .inr ⟨ok, signature, reason, hdone⟩
    | reload ok => exact .inl ⟨_, _, rfl⟩
    | status peers startedAt => exact .inl ⟨_, _, rfl⟩
  · exact .inl (authenticate_of_not_answered hanswered)

/-- A response that panics denies the login, once the request is sent. -/
theorem pamSmAuthenticate_of_startsOutOfRange {stream : ClientStream κ} {peerId : String}
    {nonce : Nonce} (hresolve : resolvePeerId prim read = .ok peerId)
    (hread : stream.setReadTimeout = .ok ()) (hwrite : stream.setWriteTimeout = .ok ())
    (hsent : stream.writeFrameBlocking cbor (.challenge peerId nonce.val) = .ok ())
    (hcarries : stream.Carries payload) (hrange : reader.StartsOutOfRange payload) :
    pamSmAuthenticate prim read (some nonce)
      (daemonRoundTrip reader cbor (.ok stream : Except ε (ClientStream κ))) = pamAuthErr := by
  have hpanic := ClientStream.readResponse_eq_none hcarries hrange
  have hround : daemonRoundTrip reader cbor (.ok stream : Except ε (ClientStream κ))
      (.challenge peerId nonce.val) = none := by
    simp only [daemonRoundTrip, hwrite, hread, hsent, hpanic, Option.map_none]
  simp only [pamSmAuthenticate, authenticateInner, hresolve, hround]
  rfl

end Syauth.Pam
