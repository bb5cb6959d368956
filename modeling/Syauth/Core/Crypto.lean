import Syauth.Core.Frame
import Mathlib.Algebra.Group.Int.Defs
import Mathlib.Algebra.Group.Nat.Defs

/-! # Tags, signatures and derived identifiers

`crates/syauth-core/src/{mac,sign,bond}.rs` and `session_uuid_for` of
`crates/syauth-transport/src/bluez.rs`.  The hash, the key derivation and the
Ed25519 checks come from third-party crates and are the fields of `Primitives`.
-/

namespace Syauth

def bondKeyBytes : Nat := 32
def pubkeyLen : Nat := 32
def signatureLen : Nat := 64
def peerIdBlake3Bytes : Nat := 16
def sessionUuidBytes : Nat := 16

abbrev Nonce := Octets nonceLen
abbrev BondKey := Octets bondKeyBytes
abbrev Pubkey := Octets pubkeyLen
abbrev Uuid := Octets sessionUuidBytes

/-- A parsed signature.  `Signature::from_slice` checks the length and nothing else. -/
abbrev Signature := Octets signatureLen

/-- The third-party functions the repository calls. -/
structure Primitives where
  /-- `blake3::hash`. -/
  hash : Bytes → Octets 32
  /-- `blake3::keyed_hash`. -/
  keyedHash : BondKey → Bytes → Octets 32
  /-- `Hkdf::<Sha256>::new(None, ikm).expand(info, out)`; fails on long outputs only. -/
  hkdfSha256 : (ikm info : Bytes) → (len : Nat) → Option (Octets len)
  /-- Whether `VerifyingKey::from_bytes` accepts the bytes. -/
  validVerifyingKey : Pubkey → Bool
  /-- `VerifyingKey::verify_strict`. -/
  verifyStrict : Pubkey → Bytes → Signature → Bool

/-- The accepted public keys. -/
abbrev VerifyingKey (prim : Primitives) :=
  { pubkey : Pubkey // prim.validVerifyingKey pubkey = true }

inductive VerifyError where
  | signature
  | badEncoding (source : FrameError)
  deriving DecidableEq

variable (prim : Primitives)

/-- The first 16 bytes of the keyed hash of the frame body. -/
def computeTag (bondKey : BondKey) (frameBody : Bytes) : Octets tagLen :=
  let full := prim.keyedHash bondKey frameBody
  Octets.slice full.val 0 tagLen (by rw [full.property]; decide)

def verifyTag (bondKey : BondKey) (frameBody : Bytes) (tag : Octets tagLen) : Bool :=
  computeTag prim bondKey frameBody == tag

def VerifyingKey.fromBytes (pubkey : Pubkey) : Option (VerifyingKey prim) :=
  if hvalid : prim.validVerifyingKey pubkey = true then some ⟨pubkey, hvalid⟩ else none

/-- Strict verification of a signature over the body bytes of a frame. -/
def verifyFrame (pubkey : VerifyingKey prim) (frame : Frame) (sig : Signature) :
    Except VerifyError Unit :=
  match frame.bodyBytes with
  | .error source => .error (.badEncoding source)
  | .ok body => if prim.verifyStrict pubkey.val body sig then .ok () else .error .signature

/-- `parse_signature` of the orchestrator. -/
def parseSignature (bytes : Bytes) : Option Signature :=
  if hlen : bytes.length = signatureLen then some ⟨bytes, hlen⟩ else none

theorem parseSignature_eq_some {bytes : Bytes} {sig : Signature} :
    parseSignature bytes = some sig ↔ sig.val = bytes := by
  unfold parseSignature
  constructor
  · intro hparse
    split at hparse
    · cases hparse
      rfl
    · cases hparse
  · rintro rfl
    rw [dif_pos sig.property]

theorem VerifyingKey.fromBytes_eq_some {pubkey : Pubkey} {key : VerifyingKey prim}
    (hkey : VerifyingKey.fromBytes prim pubkey = some key) : key.val = pubkey := by
  unfold VerifyingKey.fromBytes at hkey
  split at hkey
  · cases hkey
    rfl
  · cases hkey

/-! ## Peer identifiers -/

/-- The peer identifier: hex of the first 16 bytes of the hash of the public key. -/
def peerIdFromPubkey (pubkey : Pubkey) : String :=
  hexLowercase ((prim.hash pubkey.val).val.take peerIdBlake3Bytes)

/-! ## Key derivation -/

/-- The bytes of a string literal of ASCII characters. -/
def asciiBytes (text : String) : Bytes :=
  text.toList.map fun c => UInt8.ofNat c.toNat

def bondHkdfInfoV1 : Bytes := asciiBytes "syauth-bond-v1"
def hkdfInfoSessionV1 : Bytes := asciiBytes "syauth-session-v1"

/-- The shared key of host and phone, with the host key first. -/
def bondKeyFromPubkeys (hostPubkey phonePubkey : Pubkey) : BondKey :=
  match prim.hkdfSha256 (hostPubkey.val ++ phonePubkey.val) bondHkdfInfoV1 bondKeyBytes with
  | some out => out
  | none => Octets.zero bondKeyBytes

/-- Big-endian two's-complement bytes of an `i64`. -/
def beBytesI64 (n : Int) : Bytes :=
  (List.range 8).reverse.map fun i => UInt8.ofNat (((n % 2 ^ 64).toNat / 256 ^ i) % 256)

/-- The rotating identifier of one minute. -/
def sessionUuidFor (bondKey : BondKey) (minute : Int) : Uuid :=
  match prim.hkdfSha256 bondKey.val (hkdfInfoSessionV1 ++ beBytesI64 minute)
      sessionUuidBytes with
  | some out => out
  | none => Octets.zero sessionUuidBytes

/-! ## The first known-answer vector

`kat-01-empty-payload` of `crates/syauth-core/testdata/kat.json`, with the public
key and the peer identifier of its signing key.
-/

namespace KnownAnswer

def bondKey : BondKey := ⟨(List.range 32).map UInt8.ofNat, by decide⟩

def nonce : Nonce :=
  ⟨[0, 17, 34, 51, 68, 85, 102, 119, 136, 153, 170, 187, 204, 221, 238, 255], by decide⟩

def pubkey : Pubkey :=
  ⟨[121, 181, 86, 46, 143, 230, 84, 249, 64, 120, 177, 18, 232, 169, 139, 167, 144, 31, 133, 58,
    230, 149, 190, 215, 224, 227, 145, 11, 173, 4, 150, 100], by decide⟩

def pubkeyHash : Octets 32 :=
  ⟨[71, 24, 180, 206, 22, 166, 125, 227, 5, 141, 193, 31, 254, 231, 80, 144, 229, 205, 201, 110,
    87, 222, 109, 99, 134, 210, 40, 228, 179, 15, 68, 65], by decide⟩

def peerId : String := "4718b4ce16a67de3058dc11ffee75090"

def keyedHash : Octets 32 :=
  ⟨[216, 101, 207, 162, 172, 17, 236, 14, 128, 60, 187, 220, 90, 178, 255, 148, 48, 58, 255, 91,
    33, 5, 70, 100, 185, 140, 83, 174, 176, 200, 240, 96], by decide⟩

def signature : Signature :=
  ⟨[225, 110, 225, 184, 182, 117, 88, 184, 236, 158, 31, 115, 206, 68, 190, 207, 61, 97, 68,
    253, 179, 2, 144, 78, 221, 139, 239, 244, 135, 150, 70, 243, 105, 54, 0, 161, 181, 241,
    255, 212, 247, 166, 73, 142, 7, 123, 43, 25, 181, 97, 54, 252, 204, 232, 179, 126, 148,
    252, 118, 239, 187, 230, 117, 7], by decide⟩

/-- `FIXED_PUBKEY` of the tests of `crates/syauth-cli/src/revoke.rs`. -/
def otherPubkey : Pubkey := ⟨List.replicate 32 7, by decide⟩

def otherPubkeyHash : Octets 32 :=
  ⟨[235, 175, 133, 180, 101, 160, 157, 226, 27, 57, 143, 177, 18, 193, 80, 15, 44, 190, 101, 140,
    66, 243, 121, 224, 192, 241, 141, 36, 184, 25, 246, 55], by decide⟩

def otherPeerId : String := "ebaf85b465a09de21b398fb112c1500f"

/-- The bond key of a host with `otherPubkey` and a phone with `pubkey`. -/
def derivedKey : BondKey :=
  ⟨[60, 62, 61, 163, 1, 253, 191, 36, 103, 183, 91, 7, 73, 218, 190, 68, 193, 35, 108, 218, 12,
    125, 235, 100, 38, 22, 8, 33, 125, 104, 139, 5], by decide⟩

/-- Primitives that answer as the real ones do on the values above. -/
def primitives : Primitives where
  hash bytes :=
    if bytes = pubkey.val then pubkeyHash
    else if bytes = otherPubkey.val then otherPubkeyHash
    else Octets.zero 32
  keyedHash key body :=
    if key = bondKey ∧ body = wireVersionV1 :: nonce.val then keyedHash else Octets.zero 32
  hkdfSha256 ikm info len :=
    if hlen : len = bondKeyBytes then
      if ikm = otherPubkey.val ++ pubkey.val ∧ info = bondHkdfInfoV1 then
        some ⟨derivedKey.val, by rw [hlen]; exact derivedKey.property⟩
      else some (Octets.zero len)
    else some (Octets.zero len)
  validVerifyingKey key := key == pubkey
  verifyStrict key body sig :=
    key == pubkey && body == wireVersionV1 :: nonce.val && sig == signature

def secondNonce : Nonce :=
  ⟨[16, 16, 16, 16, 16, 16, 16, 16, 16, 16, 16, 16, 16, 16, 16, 26], by decide⟩

def secondKeyedHash : Octets 32 :=
  ⟨[40, 151, 70, 96, 85, 254, 184, 113, 120, 241, 214, 252, 82, 34, 87, 68, 172, 152, 161, 100,
    165, 146, 199, 116, 3, 26, 7, 117, 151, 172, 168, 45], by decide⟩

def secondSignature : Signature :=
  ⟨[116, 114, 150, 124, 83, 112, 220, 57, 172, 239, 9, 119, 161, 136, 252, 26, 168, 84, 212, 82,
    190, 63, 95, 170, 126, 223, 208, 252, 195, 73, 95, 174, 155, 110, 29, 14, 172, 172, 111, 170,
    197, 48, 196, 100, 159, 139, 155, 107, 27, 92, 127, 97, 152, 221, 45, 180, 114, 137, 68, 68,
    182, 129, 73, 7], by decide⟩

/-- Primitives that answer for the challenges with either nonce as the real ones do. -/
def twicePrimitives : Primitives :=
  { primitives with
    keyedHash := fun key body =>
      if key = bondKey ∧ body = wireVersionV1 :: secondNonce.val then secondKeyedHash
      else primitives.keyedHash key body
    verifyStrict := fun key body sig =>
      primitives.verifyStrict key body sig ||
        (key == pubkey && body == wireVersionV1 :: secondNonce.val && sig == secondSignature) }

/-- Session identifiers as HKDF-SHA-256 derives them: key, minute and bytes. -/
def sessionUuids : List (BondKey × Int × Bytes) :=
  [(bondKey, 0, [238, 232, 158, 91, 39, 96, 50, 28, 231, 157, 185, 113, 230, 127, 98, 142]),
    (bondKey, 1, [191, 161, 133, 161, 17, 89, 223, 198, 63, 154, 203, 144, 57, 90, 11, 29]),
    (derivedKey, 0, [247, 19, 232, 85, 18, 94, 60, 224, 94, 61, 198, 175, 213, 112, 138, 179]),
    (.zero 32, -1, [64, 63, 247, 125, 186, 142, 151, 53, 215, 84, 110, 99, 237, 130, 127, 143]),
    (.zero 32, 0, [125, 75, 226, 11, 111, 204, 232, 50, 143, 79, 84, 125, 165, 215, 196, 74]),
    (.zero 32, 1, [239, 204, 61, 248, 90, 10, 82, 154, 102, 181, 143, 254, 95, 153, 159, 118]),
    (.zero 32, 2, [135, 116, 238, 171, 181, 125, 192, 229, 153, 207, 166, 26, 145, 184, 90, 84]),
    (.zero 32, 3, [236, 200, 237, 85, 46, 199, 203, 36, 116, 75, 243, 141, 166, 80, 112, 110]),
    (.zero 32, 4, [160, 229, 85, 212, 181, 37, 160, 247, 54, 13, 10, 47, 25, 66, 72, 69]),
    (.zero 32, 5, [10, 2, 245, 215, 252, 87, 109, 144, 224, 181, 115, 176, 56, 246, 246, 203])]

/-- Primitives that derive the session identifiers above as the real ones do. -/
def sessionPrimitives : Primitives :=
  { primitives with
    hkdfSha256 := fun ikm info len =>
      let found := sessionUuids.find? fun row =>
        ikm == row.1.val && info == hkdfInfoSessionV1 ++ beBytesI64 row.2.1
      match found with
      | some row =>
          if hlen : row.2.2.length = len then some ⟨row.2.2, hlen⟩
          else primitives.hkdfSha256 ikm info len
      | none => primitives.hkdfSha256 ikm info len }

end KnownAnswer

end Syauth
