import Syauth.Core.Codec

/-! # The phone's check of a challenge frame

`verify_challenge_frame` of `crates/syauth-mobile/src/implementation.rs`.
-/

namespace Syauth.Mobile

def mobileBondKeyLen : Nat := 32

inductive MobileError where
  | invalidKey (reason : String)
  | badFrame (reason : String)
  | verifyFailed (reason : String)
  | signFailed (reason : String)
  deriving DecidableEq

def bondKeyArray (bondKey : Bytes) : Except MobileError BondKey :=
  if hlen : bondKey.length = mobileBondKeyLen then .ok ⟨bondKey, hlen⟩
  else .error (.invalidKey ("bond_key must be " ++ toString mobileBondKeyLen ++ " bytes, got " ++
    toString bondKey.length))

/-- The payload of a frame whose tag verifies under the bond key. -/
def verifyChallengeFrame (prim : Primitives) (bondKey frameBytes : Bytes) :
    Except MobileError Bytes :=
  match bondKeyArray bondKey with
  | .error err => .error err
  | .ok key =>
      match Frame.decode frameBytes with
      | .error err => .error (.badFrame ("frame decode failed: " ++ err.display))
      | .ok frame =>
          match frame.bodyBytes with
          | .error err => .error (.badFrame ("frame body encode failed: " ++ err.display))
          | .ok body =>
              if verifyTag prim key body frame.tag then .ok frame.payload
              else .error (.verifyFailed "frame MAC tag did not verify under the supplied bond key")

/-- A verified frame is long enough to have a tag. -/
theorem length_of_verifyChallengeFrame {prim : Primitives} {bondKey frameBytes payload : Bytes}
    (hverify : verifyChallengeFrame prim bondKey frameBytes = .ok payload) :
    minFrameLen ≤ frameBytes.length := by
  by_contra hshort
  have hdecode := Frame.decode_of_short (Nat.lt_of_not_le hshort)
  unfold verifyChallengeFrame at hverify
  split at hverify
  · cases hverify
  · rw [hdecode] at hverify
    cases hverify

end Syauth.Mobile
