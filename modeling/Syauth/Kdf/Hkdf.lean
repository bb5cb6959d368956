import Mathlib.Data.List.Basic

/-! # HKDF

The extract-and-expand key derivation function of RFC 5869 over a keyed hash with
outputs of `hashLen` octets.
-/

namespace Kdf

variable {hashLen : Nat}

/-- A keyed hash: key, message, and an output of fixed length. -/
abbrev KeyedHash (hashLen : Nat) :=
  List UInt8 → List UInt8 → { bytes : List UInt8 // bytes.length = hashLen }

variable (hmac : KeyedHash hashLen)

/-- A salt that is not provided is a string of `hashLen` zeros. -/
def extract (salt : Option (List UInt8)) (ikm : List UInt8) : List UInt8 :=
  hmac (salt.getD (List.replicate hashLen 0)) ikm

variable (prk info : List UInt8)

/-- `T(i)`: the hash of the block before, the info and the index in one octet. -/
def block : Nat → List UInt8
  | 0 => []
  | i + 1 => hmac prk (block i ++ info ++ [UInt8.ofNat (i + 1)])

/-- `T(1) | T(2) | … | T(n)`. -/
def blocks : Nat → List UInt8
  | 0 => []
  | n + 1 => blocks n ++ block hmac prk info (n + 1)

/-- The first `len` octets of as many blocks as are needed. -/
def expand (len : Nat) : Option (List UInt8) :=
  if len ≤ 255 * hashLen then
    some ((blocks hmac prk info ((len + hashLen - 1) / hashLen)).take len)
  else none

def hkdf (salt : Option (List UInt8)) (ikm info : List UInt8) (len : Nat) : Option (List UInt8) :=
  expand hmac (extract hmac salt ikm) info len

theorem length_block_succ (i : Nat) : (block hmac prk info (i + 1)).length = hashLen :=
  (hmac prk (block hmac prk info i ++ info ++ [UInt8.ofNat (i + 1)])).property

theorem length_blocks (n : Nat) : (blocks hmac prk info n).length = n * hashLen := by
  induction n with
  | zero => rw [blocks, List.length_nil, Nat.zero_mul]
  | succ n ih =>
      rw [blocks, List.length_append, ih, length_block_succ, Nat.succ_mul]

theorem blocks_prefix {m n : Nat} (hle : m ≤ n) :
    blocks hmac prk info m <+: blocks hmac prk info n := by
  induction hle with
  | refl => exact List.prefix_refl _
  | step hle ih =>
      apply ih.trans
      exact List.prefix_append _ _

/-- Blocks beyond the output do not change it. -/
theorem take_blocks_eq {m n len : Nat} (hm : len ≤ m * hashLen) (hn : len ≤ n * hashLen) :
    (blocks hmac prk info m).take len = (blocks hmac prk info n).take len := by
  rcases Nat.le_total m n with hle | hle
  · obtain ⟨rest, hrest⟩ := blocks_prefix hmac prk info hle
    rw [← hrest, List.take_append_of_le_length]
    rw [length_blocks]
    exact hm
  · obtain ⟨rest, hrest⟩ := blocks_prefix hmac prk info hle
    rw [← hrest, List.take_append_of_le_length]
    rw [length_blocks]
    exact hn

theorem le_blocks_needed (hpos : 0 < hashLen) (len : Nat) :
    len ≤ (len + hashLen - 1) / hashLen * hashLen := by
  have hdiv := Nat.lt_div_mul_add (a := len + hashLen - 1) hpos
  omega

/-- Any sufficient number of blocks gives the output. -/
theorem expand_eq_some (hpos : 0 < hashLen) {n len : Nat} (hlen : len ≤ 255 * hashLen)
    (hn : len ≤ n * hashLen) :
    expand hmac prk info len = some ((blocks hmac prk info n).take len) := by
  rw [expand, if_pos hlen]
  exact congrArg some (take_blocks_eq hmac prk info (le_blocks_needed hpos len) hn)

theorem length_of_expand (hpos : 0 < hashLen) {len : Nat} {okm : List UInt8}
    (hokm : expand hmac prk info len = some okm) : okm.length = len := by
  unfold expand at hokm
  split at hokm
  · obtain rfl := Option.some.inj hokm
    rw [List.length_take, length_blocks]
    exact Nat.min_eq_left (le_blocks_needed hpos len)
  · cases hokm

end Kdf
