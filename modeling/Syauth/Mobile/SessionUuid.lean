import Syauth.Mobile.Verify

/-! # The phone's derivation of session identifiers

`session_uuid_for_bond` of `crates/syauth-mobile/src/implementation.rs`, beside
`session_uuid_for` of the desktop.
-/

namespace Syauth

/-- `expand` of the hkdf crate fails on outputs longer than 255 hashes, and on no other. -/
def Primitives.Expands (prim : Primitives) : Prop :=
  ∀ ikm info len, len ≤ 255 * 32 → (prim.hkdfSha256 ikm info len).isSome = true

namespace Mobile

def hkdfInfoSessionV1 : Bytes := asciiBytes "syauth-session-v1"
def sessionUuidBytesMobile : Nat := 16

def sessionUuidForBond (prim : Primitives) (bondKey : Bytes) (minute : Int) :
    Except MobileError Bytes :=
  match bondKeyArray bondKey with
  | .error err => .error err
  | .ok key =>
      match prim.hkdfSha256 key.val (hkdfInfoSessionV1 ++ beBytesI64 minute)
          sessionUuidBytesMobile with
      | some out => .ok out.val
      | none => .error (.invalidKey "hkdf expand failed (unreachable in production)")

theorem bondKeyArray_val (bondKey : BondKey) : bondKeyArray bondKey.val = .ok bondKey := by
  unfold bondKeyArray
  split
  · rfl
  · next hlen => exact absurd bondKey.property hlen

/-- Phone and desktop derive the same bytes from a bond key. -/
theorem sessionUuidForBond_eq {prim : Primitives} (hexpands : prim.Expands) (bondKey : BondKey)
    (minute : Int) :
    sessionUuidForBond prim bondKey.val minute = .ok (sessionUuidFor prim bondKey minute).val := by
  obtain ⟨out, hdesktop⟩ := Option.isSome_iff_exists.mp (hexpands bondKey.val
    (Syauth.hkdfInfoSessionV1 ++ beBytesI64 minute) sessionUuidBytes (by decide))
  have hphone : prim.hkdfSha256 bondKey.val (hkdfInfoSessionV1 ++ beBytesI64 minute)
      sessionUuidBytesMobile = some out := hdesktop
  simp only [sessionUuidForBond, sessionUuidFor, bondKeyArray_val, hphone, hdesktop]

end Mobile

end Syauth
