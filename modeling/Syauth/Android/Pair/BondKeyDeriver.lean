import Syauth.Android.ScanFilters
import Syauth.Kdf.Hkdf

/-! # The phone's derivation of the bond key

`HkdfPairBondKeyDeriver` of `pair/impl/RealPairBackendWiring.kt`: HKDF written out over
the platform's HMAC, with an output buffer that is filled block by block.
-/

namespace Syauth.Android.Pair

open Kdf

/-- `System.arraycopy` between arrays that are long enough. -/
def arraycopy (src : Bytes) (srcPos : Nat) (dest : Bytes) (destPos length : Nat) : Bytes :=
  dest.take destPos ++ (src.drop srcPos).take length ++ dest.drop (destPos + length)

/-- The length of a SHA-256 digest. -/
def digestLength : Nat := 32

variable (hmac : KeyedHash digestLength)

/-- The loop of `hkdfSha256`, with the variables it assigns. -/
def expandLoop (prk info : Bytes) (length : Nat) (out : Bytes) (written : Nat) (prev : Bytes)
    (counter : Nat) : Bytes :=
  if written < length then
    let digest := (hmac prk (prev ++ info ++ [UInt8.ofNat counter])).val
    let take := min digest.length (length - written)
    expandLoop prk info length (arraycopy digest 0 out written take) (written + take) digest
      (counter + 1)
  else out
termination_by length - written
decreasing_by
  rw [(hmac prk (prev ++ info ++ [UInt8.ofNat counter])).property]
  unfold digestLength
  omega

def hkdfSha256 (ikm info : Bytes) (length : Nat) : Bytes :=
  let zeroSalt := List.replicate digestLength 0
  let prk := (hmac zeroSalt ikm).val
  expandLoop hmac prk info length (List.replicate length 0) 0 [] 1

def derive (hostPubkey phonePubkey : Bytes) : Bytes :=
  let zeros := List.replicate (hostPubkey.length + phonePubkey.length) 0
  let ikm := arraycopy hostPubkey 0 zeros 0 hostPubkey.length
  let ikm := arraycopy phonePubkey 0 ikm hostPubkey.length phonePubkey.length
  hkdfSha256 hmac ikm bondHkdfInfoV1 pairBondKeyLen

/-! ## The buffer -/

variable {src dest prk info out : Bytes} {destPos length written i n : Nat}

theorem length_arraycopy (hsrc : length ≤ src.length) (hdest : destPos + length ≤ dest.length) :
    (arraycopy src 0 dest destPos length).length = dest.length := by
  simp only [arraycopy, List.length_append, List.length_take, List.length_drop]
  omega

/-- What is in front of the end of a copy: the old front and the copied octets. -/
theorem take_arraycopy (hsrc : length ≤ src.length) (hdest : destPos ≤ dest.length) :
    (arraycopy src 0 dest destPos length).take (destPos + length) =
      dest.take destPos ++ src.take length := by
  have hfront : (dest.take destPos ++ src.take length).length = destPos + length := by
    rw [List.length_append, List.length_take, List.length_take, Nat.min_eq_left hdest,
      Nat.min_eq_left hsrc]
  rw [arraycopy, List.drop_zero, ← hfront, List.take_left]

/-- Two copies into a buffer of zeros put the keys one after the other. -/
theorem ikm_eq (hostPubkey phonePubkey : Bytes) :
    arraycopy phonePubkey 0
        (arraycopy hostPubkey 0
          (List.replicate (hostPubkey.length + phonePubkey.length) 0) 0 hostPubkey.length)
        hostPubkey.length phonePubkey.length =
      hostPubkey ++ phonePubkey := by
  simp only [arraycopy, List.drop_zero, List.take_zero, List.nil_append, List.take_length,
    Nat.zero_add, List.drop_replicate, Nat.add_sub_cancel_left, List.take_left]
  rw [List.drop_eq_nil_of_le, List.append_nil]
  rw [List.length_append, List.length_replicate]

/-- A turn of the loop writes what it may of the next block. -/
theorem written_step (hwritten : written = min (i * digestLength) length)
    (hleft : written < length) :
    written = i * digestLength ∧
      written + min digestLength (length - written) = min ((i + 1) * digestLength) length := by
  unfold digestLength at hwritten ⊢
  omega

/-- The loop fills the buffer with the octets of the blocks, whatever number of blocks is
written down for them. -/
theorem expandLoop_eq (hout : out.length = length)
    (hwritten : written = min (i * digestLength) length)
    (hdone : out.take written = (blocks hmac prk info i).take written)
    (hn : length ≤ n * digestLength) :
    expandLoop hmac prk info length out written (block hmac prk info i) (i + 1) =
      (blocks hmac prk info n).take length := by
  induction hleft : length - written using Nat.strong_induction_on generalizing i out written with
  | _ left ih =>
      rw [expandLoop]
      split
      · next hmore =>
          obtain ⟨hstart, hnext⟩ := written_step hwritten hmore
          have hblock : (hmac prk (block hmac prk info i ++ info ++ [UInt8.ofNat (i + 1)])).val =
              block hmac prk info (i + 1) := rfl
          have hlen : (block hmac prk info (i + 1)).length = digestLength :=
            length_block_succ hmac prk info i
          have hroom : written + min digestLength (length - written) ≤ length := by omega
          have htake : min digestLength (length - written) ≤
              (block hmac prk info (i + 1)).length := by
            rw [hlen]
            exact Nat.min_le_left _ _
          dsimp only
          rw [hblock, hlen]
          refine ih _ ?_ ?_ hnext ?_ rfl
          · unfold digestLength
            omega
          · rw [length_arraycopy htake (hroom.trans_eq hout.symm), hout]
          · -- the blocks so far end where this one begins
            have hfront : (blocks hmac prk info i).length = written := by
              rw [length_blocks, hstart]
            rw [take_arraycopy htake (hmore.le.trans_eq hout.symm), hdone, blocks,
              List.take_append, hfront, Nat.add_sub_cancel_left]
            congr 1
            rw [List.take_of_length_le hfront.le, List.take_of_length_le]
            rw [hfront]
            exact Nat.le_add_right _ _
      · next hfull =>
          have hall : written = length := by omega
          have hblocks : length ≤ i * digestLength := by omega
          rw [hall, List.take_of_length_le hout.le] at hdone
          rw [hdone]
          exact take_blocks_eq hmac prk info hblocks hn

/-! ## Agreement with the RFC and with the desktop -/

theorem hkdf_eq_hkdfSha256 (ikm info : Bytes) (hlen : length ≤ 255 * digestLength) :
    hkdf hmac none ikm info length = some (hkdfSha256 hmac ikm info length) := by
  rw [hkdf, expand_eq_some hmac _ info (by decide) hlen hlen]
  refine congrArg some (Eq.symm ?_)
  refine expandLoop_eq (i := 0) hmac List.length_replicate ?_ rfl hlen
  rw [Nat.zero_mul, Nat.zero_min]

/-- The hkdf crate derives what the RFC says, from the same HMAC and without a salt. -/
def ImplementsHkdf (prim : Primitives) : Prop :=
  ∀ ikm info len, (prim.hkdfSha256 ikm info len).map Subtype.val = hkdf hmac none ikm info len

/-- Phone and desktop derive the same bond key, and the phone's loop is that of the RFC. -/
theorem derive_agrees {prim : Primitives} (hcrate : ImplementsHkdf hmac prim) :
    (∀ hostPubkey phonePubkey : Pubkey, derive hmac hostPubkey.val phonePubkey.val =
      (bondKeyFromPubkeys prim hostPubkey phonePubkey).val) ∧
    ∀ ikm info length, length ≤ 255 * 32 →
      hkdf hmac none ikm info length = some (hkdfSha256 hmac ikm info length) := by
  refine ⟨fun hostPubkey phonePubkey => ?_, fun ikm info length => hkdf_eq_hkdfSha256 hmac ikm info⟩
  have hphone : derive hmac hostPubkey.val phonePubkey.val =
      hkdfSha256 hmac (hostPubkey.val ++ phonePubkey.val) bondHkdfInfoV1 bondKeyBytes := by
    unfold derive
    dsimp only
    rw [ikm_eq]
    rfl
  have hdesktop := hcrate (hostPubkey.val ++ phonePubkey.val) bondHkdfInfoV1 bondKeyBytes
  rw [hkdf_eq_hkdfSha256 hmac _ _ (by decide)] at hdesktop
  obtain ⟨out, hout, hval⟩ := Option.map_eq_some_iff.mp hdesktop
  rw [hphone, ← hval, bondKeyFromPubkeys, hout]

/-! ## A derivation with HMAC-SHA-256 -/

/-- The extracted key for the known host and phone keys. -/
def knownPrk : Octets 32 :=
  ⟨[66, 116, 20, 165, 209, 58, 120, 218, 80, 238, 107, 72, 3, 170, 0, 11, 135, 215, 119, 146, 234,
    210, 122, 57, 78, 9, 103, 175, 97, 207, 13, 19], by decide⟩

/-- A keyed hash that answers as HMAC-SHA-256 does on the two messages of the derivation. -/
def knownHmac : KeyedHash digestLength := fun key message =>
  if key = List.replicate 32 0 ∧
      message = KnownAnswer.otherPubkey.val ++ KnownAnswer.pubkey.val then knownPrk
  else if key = knownPrk.val ∧ message = bondHkdfInfoV1 ++ [1] then KnownAnswer.derivedKey
  else Octets.zero 32

/-- Primitives with HKDF over that hash. -/
def knownHkdf : Primitives :=
  { KnownAnswer.primitives with
    hkdfSha256 := fun ikm info len =>
      match hokm : hkdf knownHmac none ikm info len with
      | some okm => some ⟨okm, length_of_expand knownHmac _ info (by decide) hokm⟩
      | none => none }

theorem knownHkdf_implements : ImplementsHkdf knownHmac knownHkdf := by
  intro ikm info len
  simp only [knownHkdf]
  split
  · next okm hokm => exact hokm.symm
  · next hnone => exact hnone.symm

theorem derive_agrees_known :
    derive knownHmac KnownAnswer.otherPubkey.val KnownAnswer.pubkey.val =
        (bondKeyFromPubkeys knownHkdf KnownAnswer.otherPubkey KnownAnswer.pubkey).val ∧
      (bondKeyFromPubkeys knownHkdf KnownAnswer.otherPubkey KnownAnswer.pubkey).val =
        KnownAnswer.derivedKey.val :=
  ⟨(derive_agrees knownHmac knownHkdf_implements).1 _ _, by decide⟩

end Syauth.Android.Pair
