import Mathlib.Data.List.Basic
import Mathlib.Tactic.Cases

/-! # The version 1 wire frame

`crates/syauth-core/src/frame.rs`.  A frame is one version byte, a 16-byte nonce,
a payload of at most 4096 bytes and a 16-byte tag.  Byte arrays of a fixed length
are lists that carry their length.
-/

namespace Syauth

abbrev Bytes := List UInt8

/-- The array type `[u8; n]`. -/
abbrev Octets (n : Nat) := { bytes : Bytes // bytes.length = n }

/-- The array `[0u8; n]`. -/
def Octets.zero (n : Nat) : Octets n :=
  ⟨List.replicate n 0, List.length_replicate⟩

/-- The `n` bytes of a slice that start at an offset inside it. -/
def Octets.slice (input : Bytes) (offset n : Nat) (hbound : offset + n ≤ input.length) :
    Octets n :=
  ⟨(input.drop offset).take n, by simp only [List.length_take, List.length_drop]; omega⟩

def hexChars : List Char :=
  ['0', '1', '2', '3', '4', '5', '6', '7', '8', '9', 'a', 'b', 'c', 'd', 'e', 'f']

/-- `hex_lowercase` of the core crate; `hex::encode` renders the same digits. -/
def hexLowercase (bytes : Bytes) : String :=
  String.ofList <| bytes.flatMap fun b =>
    [hexChars.getD (b.toNat / 16) '0', hexChars.getD (b.toNat % 16) '0']

theorem mem_hexChars_getD (i : Nat) : hexChars.getD i '0' ∈ hexChars := by
  rw [List.getD_eq_getElem?_getD]
  cases hi : hexChars[i]? with
  | none => decide
  | some d => exact List.mem_of_getElem? hi

theorem mem_hexChars_of_mem_hexLowercase {bytes : Bytes} {c : Char}
    (hmem : c ∈ (hexLowercase bytes).toList) : c ∈ hexChars := by
  rw [hexLowercase, String.toList_ofList] at hmem
  obtain ⟨b, -, hpair⟩ := List.mem_flatMap.mp hmem
  rcases List.mem_cons.mp hpair with rfl | hlow
  · exact mem_hexChars_getD _
  · rw [List.mem_singleton.mp hlow]
    exact mem_hexChars_getD _

theorem length_hexLowercase (bytes : Bytes) :
    (hexLowercase bytes).toList.length = 2 * bytes.length := by
  rw [hexLowercase, String.toList_ofList]
  induction bytes with
  | nil => rfl
  | cons b bytes ih =>
      rw [List.flatMap_cons, List.length_append, ih, List.length_cons, List.length_cons,
        List.length_cons, List.length_nil]
      omega

def wireVersionV1 : UInt8 := 1
def versionLen : Nat := 1
def nonceLen : Nat := 16
def tagLen : Nat := 16
def versionOffset : Nat := 0
def nonceOffset : Nat := versionOffset + versionLen
def payloadOffset : Nat := nonceOffset + nonceLen
def headerLen : Nat := versionLen + nonceLen
def minFrameLen : Nat := headerLen + tagLen
def maxPayloadLen : Nat := 4096

structure Frame where
  version : UInt8
  nonce : Octets nonceLen
  payload : Bytes
  tag : Octets tagLen
  deriving DecidableEq

inductive FrameError where
  | tooShort (needed got : Nat)
  | badVersion (version : UInt8)
  | badLength
  deriving DecidableEq, Repr

/-- The `Display` text of the error. -/
def FrameError.display : FrameError → String
  | .tooShort needed got =>
      "frame too short: needed " ++ toString needed ++ " bytes, got " ++ toString got
  | .badVersion version => "unsupported wire-format version: 0x" ++ hexLowercase [version]
  | .badLength => "frame payload exceeds maximum length"

namespace Frame

/-- Append the wire encoding to a buffer. -/
def encode (frame : Frame) (buf : Bytes) : Except FrameError Bytes :=
  if frame.payload.length > maxPayloadLen then
    .error .badLength
  else
    .ok (buf ++ frame.version :: (frame.nonce.val ++ frame.payload ++ frame.tag.val))

/-- The bytes that are signed and tagged: version, nonce and payload. -/
def bodyBytes (frame : Frame) : Except FrameError Bytes :=
  if frame.payload.length > maxPayloadLen then
    .error .badLength
  else
    .ok (frame.version :: (frame.nonce.val ++ frame.payload))

/-- Parse a frame; the length is checked first, then the version, then the payload bound. -/
def decode (input : Bytes) : Except FrameError Frame :=
  if hshort : input.length < minFrameLen then
    .error (.tooShort minFrameLen input.length)
  else
    have hmin : minFrameLen ≤ input.length := Nat.le_of_not_lt hshort
    have hsum : payloadOffset + tagLen = minFrameLen := rfl
    let version := input.get ⟨versionOffset, Nat.lt_of_lt_of_le (by decide) hmin⟩
    if version ≠ wireVersionV1 then
      .error (.badVersion version)
    else
      let payloadLen := input.length - minFrameLen
      if payloadLen > maxPayloadLen then
        .error .badLength
      else
        .ok {
          version
          nonce := Octets.slice input nonceOffset nonceLen (Nat.le_trans (by decide) hmin)
          payload := (input.drop payloadOffset).take payloadLen
          tag := Octets.slice input (payloadOffset + payloadLen) tagLen (by omega) }

end Frame

end Syauth
