import Syauth.Android.Unlock
import Syauth.Mobile.Respond
import Syauth.Presenced.RunChallenge

/-! # Desktop and phone on one challenge

The bytes `run_challenge` sends, through the phone's check, its stripping of the tag
and its signer, back into `parse_signature` and `verify_frame`.  The phone has two
forms of answer: `ChallengeApprovalActivity` writes the signature itself, and
`ApproveViewModel` writes the frame that `build_response_frame` puts around it.
-/

namespace Syauth.Unlocking

open Mobile Presenced Transport

variable {prim : Primitives}

/-- A key of the phone: strict verification accepts whatever it signs. -/
structure KeyPair (prim : Primitives) where
  pubkey : VerifyingKey prim
  sign : Bytes → Signature
  sign_verifies : ∀ message, prim.verifyStrict pubkey.val message (sign message) = true

inductive AnswerForm where
  | rawSignature
  /-- The nonce is the one the phone draws for its response. -/
  | responseFrame (responseNonce : Nonce)
  deriving DecidableEq

/-- What the phone writes back for an approved challenge frame. -/
def answer (keys : KeyPair prim) (bondKey : BondKey) (frameBytes : Bytes) :
    AnswerForm → Except MobileError Bytes
  | .rawSignature => .ok (keys.sign (Android.challengeBody frameBytes)).val
  | .responseFrame responseNonce =>
      buildResponseFrame prim bondKey.val (fun message => (keys.sign message).val) responseNonce
        frameBytes

/-- The desktop takes the answer: it parses, it verifies over the frame that was sent, and
`run_challenge` accepts it unless it has seen the nonce. -/
def AnswerAccepted (keys : KeyPair prim) (bondKey : BondKey) (nonce : Nonce)
    (form : AnswerForm) : Prop :=
  ∃ challenge encoded response signature,
    buildChallenge prim bondKey nonce = .ok (challenge, encoded) ∧
      answer keys bondKey encoded form = .ok response ∧
      parseSignature response = some signature ∧
      verifyFrame prim keys.pubkey challenge signature = .ok () ∧
      ∀ (cell : CellId) (cache : NonceCache), cache.contains nonce = false →
        (runChallenge prim ⟨keys.pubkey.val, bondKey, cell⟩ cache nonce (.ok ())
          (.ok response)).1 = .ok signature

/-! ## The frame on the phone -/

/-- The phone decodes the frame that the desktop encoded. -/
theorem decode_challenge (bondKey : BondKey) (nonce : Nonce) :
    Frame.decode (Presenced.challengeBody nonce ++
        (computeTag prim bondKey (Presenced.challengeBody nonce)).val) =
      .ok (challengeFrame prim bondKey nonce) := by
  have hfields := Frame.decode_fields (challengeFrame prim bondKey nonce) rfl (Nat.zero_le _)
  simpa [challengeFrame, untaggedChallenge, Presenced.challengeBody] using hfields

theorem verifyChallengeFrame_challenge (bondKey : BondKey) (nonce : Nonce) :
    verifyChallengeFrame prim bondKey.val (Presenced.challengeBody nonce ++
      (computeTag prim bondKey (Presenced.challengeBody nonce)).val) = .ok [] := by
  have hkey : bondKeyArray bondKey.val = .ok bondKey := dif_pos bondKey.property
  unfold verifyChallengeFrame
  simp only [hkey, decode_challenge, bodyBytes_challengeFrame]
  exact if_pos (beq_self_eq_true _)

/-- Stripping the last 16 bytes leaves the body the desktop verifies against. -/
theorem challengeBody_challenge (nonce : Nonce) (tag : Octets tagLen) :
    Android.challengeBody (Presenced.challengeBody nonce ++ tag.val) =
      Presenced.challengeBody nonce := by
  have hbody : (Presenced.challengeBody nonce).length = 17 := by
    rw [Presenced.challengeBody, List.length_cons, nonce.property]
    rfl
  have htag : tag.val.length = 16 := tag.property
  unfold Android.challengeBody
  rw [if_pos (by rw [List.length_append]; omega)]
  rw [List.length_append, htag, Nat.add_sub_cancel, List.take_left]

/-! ## The answer on the desktop -/

theorem verifyFrame_sign (keys : KeyPair prim) {frame : Frame} {body : Bytes}
    (hbody : frame.bodyBytes = .ok body) :
    verifyFrame prim keys.pubkey frame (keys.sign body) = .ok () := by
  unfold verifyFrame
  simp only [hbody]
  exact if_pos (keys.sign_verifies body)

theorem checkResponse_of_verifies {key : VerifyingKey prim} {frame : Frame} {response : Bytes}
    {signature : Signature} (hparse : parseSignature response = some signature)
    (hverify : verifyFrame prim key frame signature = .ok ()) :
    checkResponse prim key.val frame response = .ok signature := by
  have hkey : VerifyingKey.fromBytes prim key.val = some key := dif_pos key.property
  unfold checkResponse
  simp only [hparse, hkey, hverify]

theorem runChallenge_of_verifies {key : VerifyingKey prim} {bondKey : BondKey} {nonce : Nonce}
    {response : Bytes} {signature : Signature} {cache : NonceCache} (cell : CellId)
    (hparse : parseSignature response = some signature)
    (hverify : verifyFrame prim key (challengeFrame prim bondKey nonce) signature = .ok ())
    (hfresh : cache.contains nonce = false) :
    runChallenge prim ⟨key.val, bondKey, cell⟩ cache nonce (.ok ()) (.ok response) =
      (.ok signature, cache.insert nonce) := by
  unfold runChallenge
  simp only [buildChallenge_eq, checkResponse_of_verifies hparse hverify, hfresh]
  rfl

theorem answerAccepted_rawSignature (keys : KeyPair prim) (bondKey : BondKey) (nonce : Nonce) :
    AnswerAccepted keys bondKey nonce .rawSignature := by
  have hverify := verifyFrame_sign keys (bodyBytes_challengeFrame prim bondKey nonce)
  have hparse : parseSignature (keys.sign (Presenced.challengeBody nonce)).val =
      some (keys.sign (Presenced.challengeBody nonce)) := parseSignature_eq_some.mpr rfl
  refine ⟨_, _, _, keys.sign (Presenced.challengeBody nonce), buildChallenge_eq prim bondKey nonce,
    rfl, ?_, hverify, fun cell cache hfresh => ?_⟩
  · rw [challengeBody_challenge]
    exact hparse
  · rw [challengeBody_challenge, runChallenge_of_verifies cell hparse hverify hfresh]

/-- A response frame is longer than a signature, so it does not parse as one. -/
theorem not_answerAccepted_responseFrame (keys : KeyPair prim) (bondKey : BondKey)
    (nonce responseNonce : Nonce) :
    ¬ AnswerAccepted keys bondKey nonce (.responseFrame responseNonce) := by
  rintro ⟨challenge, encoded, response, signature, _, hanswer, hparse, _⟩
  have hlength := length_of_buildResponseFrame hanswer
  rw [← parseSignature_eq_some.mp hparse, signature.property] at hlength
  exact absurd hlength (by decide)

/-- Desktop and phone agree on the frame and on what is signed, for every key and nonce;
of the two forms of answer the desktop takes the raw signature only. -/
theorem challenge_exchange_agrees_iff (keys : KeyPair prim) (bondKey : BondKey) (nonce : Nonce)
    (form : AnswerForm) :
    (∃ challenge encoded, buildChallenge prim bondKey nonce = .ok (challenge, encoded) ∧
      verifyChallengeFrame prim bondKey.val encoded = .ok challenge.payload ∧
      challenge.bodyBytes = .ok (Android.challengeBody encoded)) ∧
    (AnswerAccepted keys bondKey nonce form ↔ form = .rawSignature) := by
  constructor
  · refine ⟨_, _, buildChallenge_eq prim bondKey nonce,
      verifyChallengeFrame_challenge bondKey nonce, ?_⟩
    rw [challengeBody_challenge]
    exact bodyBytes_challengeFrame prim bondKey nonce
  · constructor
    · intro haccepted
      cases form with
      | rawSignature => rfl
      | responseFrame responseNonce =>
          exact absurd haccepted
            (not_answerAccepted_responseFrame keys bondKey nonce responseNonce)
    · rintro rfl
      exact answerAccepted_rawSignature keys bondKey nonce

/-- The primitives of the first known-answer vector with a signer for every message. -/
def knownSign (body : Bytes) : Signature :=
  if body = wireVersionV1 :: KnownAnswer.nonce.val then KnownAnswer.signature
  else Octets.zero signatureLen

def knownPrimitives : Primitives :=
  { KnownAnswer.primitives with
    verifyStrict := fun key body sig => key == KnownAnswer.pubkey && sig == knownSign body }

def knownKeys : KeyPair knownPrimitives where
  pubkey := ⟨KnownAnswer.pubkey, by decide⟩
  sign := knownSign
  sign_verifies message := by simp [knownPrimitives]

/-- The desktop refuses the response frame for the challenge of the vector. -/
theorem known_responseFrame_refused :
    ¬ ∀ form, AnswerAccepted knownKeys KnownAnswer.bondKey KnownAnswer.nonce form := by
  intro hall
  exact not_answerAccepted_responseFrame knownKeys KnownAnswer.bondKey KnownAnswer.nonce
    (Octets.zero nonceLen) (hall (.responseFrame (Octets.zero nonceLen)))

end Syauth.Unlocking
