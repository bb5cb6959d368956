import Syauth.Pam.Auth
import Syauth.Presenced.Soundness

/-! # What a granted authentication rests on

The PAM module grants on a reason string alone.  Together with the daemon's
invariant this is enough: the string is sent only after a verified exchange.
-/

namespace Syauth.Pam

open Presenced

variable {prim : Primitives}

/-- Every answer the PAM module reads from the socket is one the daemon sent. -/
def AnsweredBy (prim : Primitives) (initial : State) (events : List Event)
    (roundTrip : Request → Except Unit Response) : Prop :=
  ∀ request response, roundTrip request = .ok response →
    ∃ c, Observation.sent c request response ∈ (daemon prim).trace (observe prim) initial events

/-- The call that produced a grant: it looked up the granted peer, drew the nonce,
notified a frame that carries it, waited and got the signature, which verifies
over version, nonce and empty payload under the public key it had looked up. -/
def Exchange (prim : Primitives) (trace : List Observation) (peerId : String) (requestNonce : Bytes)
    (signature : Signature) : Prop :=
  ∃ (c : CallId) (nonce : Nonce) (entry : PeerEntry) (pubkey : VerifyingKey prim) (frame : Frame)
    (encoded : Bytes),
    [.lookedUp c peerId (some entry), .drew c nonce, .notified c peerId encoded,
      .waitCalled c peerId, .waitReturned c peerId signature.val,
      .sent c (.challenge peerId requestNonce) (.challenge true (some signature.val) "ok")].Sublist
        trace ∧
    frame.encode [] = .ok encoded ∧ frame.nonce = nonce ∧
    frame.bodyBytes = .ok (wireVersionV1 :: (nonce.val ++ [])) ∧
    entry.phonePubkey = some pubkey.val ∧
    verifyFrame prim pubkey frame signature = .ok ()

/-- In every run of the daemon against every environment, a grant for a peer on an
answer of the daemon means that the answer was the accepting one and that the
call behind it ran the whole exchange with that peer. -/
theorem authenticate_sound {initial final : State} {events : List Event}
    (hstart : (daemon prim).start initial) (hrun : (daemon prim).run initial events = some final)
    {roundTrip : Request → Except Unit Response}
    (hsocket : AnsweredBy prim initial events roundTrip)
    {read : BondFileRead} {random : Option Nonce} {peerId : String}
    (hauth : authenticate prim read random roundTrip = .success peerId) :
    ∃ (requestNonce : Nonce) (signature : Signature),
      roundTrip (.challenge peerId requestNonce.val) =
        .ok (.challenge true (some signature.val) "ok") ∧
      Exchange prim ((daemon prim).trace (observe prim) initial events) peerId requestNonce.val
        signature := by
  obtain ⟨requestNonce, ok, sent, hround⟩ := authenticate_eq_success hauth
  obtain ⟨c, hsent⟩ := hsocket _ _ hround
  rcases (tracking_run hstart hrun).granted c _ _ hsent with hrefuses | hgranted
  · exact absurd rfl (hrefuses ok sent)
  · obtain ⟨peer, nonce, tx, signature, hrequest, hresponse, hbuilt, hverified, hseen⟩ := hgranted
    obtain ⟨rfl, rfl⟩ := Request.challenge.inj hrequest
    obtain ⟨verifyingKey, hkey, hverify⟩ := hverified
    rw [hresponse] at hround hseen
    refine ⟨requestNonce, signature, hround, c, tx.nonce, tx.peer.entry, verifyingKey,
      tx.challenge, tx.encoded, hseen, hbuilt.2, ?_, ?_, ?_, hverify⟩
    · rw [hbuilt.1]
      rfl
    · rw [hbuilt.1, List.append_nil]
      exact bodyBytes_challengeFrame prim tx.peer.bondKey tx.nonce
    · rw [hkey]
      rfl

/-! ## The exchange of the known-answer vector -/

def knownRoundTrip : Request → Except Unit Response := fun request =>
  if request = .challenge KnownAnswer.peerId KnownAnswer.nonce.val then
    .ok (.challenge true (some KnownAnswer.signature.val) "ok")
  else .error ()

theorem answeredBy_knownRoundTrip :
    AnsweredBy KnownAnswer.primitives knownInitial knownExchange knownRoundTrip := by
  intro request response hround
  unfold knownRoundTrip at hround
  split at hround
  · next hrequest =>
      cases hround
      subst hrequest
      exact ⟨0, by decide⟩
  · cases hround

theorem authenticate_sound_known_answer :
    authenticate KnownAnswer.primitives (.parsed ⟨1, [knownBond]⟩) (some KnownAnswer.nonce)
        knownRoundTrip = .success KnownAnswer.peerId ∧
      ∃ (requestNonce : Nonce) (signature : Signature),
        knownRoundTrip (.challenge KnownAnswer.peerId requestNonce.val) =
          .ok (.challenge true (some signature.val) "ok") ∧
        Exchange KnownAnswer.primitives
          ((daemon KnownAnswer.primitives).trace (observe KnownAnswer.primitives) knownInitial
            knownExchange) KnownAnswer.peerId requestNonce.val signature := by
  have hauth : authenticate KnownAnswer.primitives (.parsed ⟨1, [knownBond]⟩)
      (some KnownAnswer.nonce) knownRoundTrip = .success KnownAnswer.peerId := by
    decide
  have hsome : ((daemon KnownAnswer.primitives).run knownInitial knownExchange).isSome = true := by
    decide
  obtain ⟨final, hrun⟩ := Option.isSome_iff_exists.mp hsome
  exact ⟨hauth, authenticate_sound ⟨_, _, _, _, rfl⟩ hrun answeredBy_knownRoundTrip
    hauth⟩

end Syauth.Pam
