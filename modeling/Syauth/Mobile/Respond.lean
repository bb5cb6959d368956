import Syauth.Mobile.Verify

/-! # The phone's response frame

`build_response_frame` of `crates/syauth-mobile/src/implementation.rs`.  The signer is
the callback into the Android keystore; the nonce of the response comes from the random
number generator of the operating system.
-/

namespace Syauth.Mobile

def ed25519SignatureLen : Nat := 64

/-- A frame around the signature of a challenge, tagged under the bond key. -/
def buildResponseFrame (prim : Primitives) (bondKey : Bytes) (signer : Bytes → Bytes)
    (responseNonce : Nonce) (challengeFrameBytes : Bytes) : Except MobileError Bytes :=
  match bondKeyArray bondKey with
  | .error err => .error err
  | .ok key =>
      match Frame.decode challengeFrameBytes with
      | .error err => .error (.badFrame ("challenge decode failed: " ++ err.display))
      | .ok challenge =>
          match challenge.bodyBytes with
          | .error err => .error (.badFrame ("challenge body encode failed: " ++ err.display))
          | .ok unsignedBody =>
              let sigBytes := signer unsignedBody
              if sigBytes.length ≠ ed25519SignatureLen then
                .error (.signFailed ("foreign signer returned " ++ toString sigBytes.length ++
                  " bytes, expected " ++ toString ed25519SignatureLen))
              else
                let body := wireVersionV1 :: (responseNonce.val ++ sigBytes)
                let responseFrame : Frame := {
                  version := wireVersionV1
                  nonce := responseNonce
                  payload := sigBytes
                  tag := computeTag prim key body }
                match responseFrame.encode [] with
                | .error err =>
                    .error (.signFailed ("response frame encode failed: " ++ err.display))
                | .ok out => .ok out

/-- A response frame has the length of a signature and of everything around it. -/
theorem length_of_buildResponseFrame {prim : Primitives} {bondKey challengeFrameBytes : Bytes}
    {signer : Bytes → Bytes} {responseNonce : Nonce} {out : Bytes}
    (hbuild : buildResponseFrame prim bondKey signer responseNonce challengeFrameBytes = .ok out) :
    out.length = minFrameLen + ed25519SignatureLen := by
  unfold buildResponseFrame at hbuild
  split at hbuild
  · cases hbuild
  split at hbuild
  · cases hbuild
  split at hbuild
  · cases hbuild
  next unsignedBody _ =>
    simp only at hbuild
    split at hbuild
    · cases hbuild
    next hlen =>
      have hlength : (signer unsignedBody).length = ed25519SignatureLen := not_not.mp hlen
      rw [Frame.encode_of_fits (by rw [hlength]; decide)] at hbuild
      cases hbuild
      rw [List.nil_append, Frame.length_fields, hlength]

end Syauth.Mobile
