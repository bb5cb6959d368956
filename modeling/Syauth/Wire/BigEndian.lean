import Mathlib.Data.Nat.Digits.Defs
import Mathlib.Data.Nat.Digits.Lemmas

/-! # Big-endian numbers

The number that a sequence of bytes stands for, most significant byte first, and the
register that gathers the bytes of such a number by shifting them in from the right.
-/

namespace Wire

variable {bytes front back : List UInt8} {byte : UInt8}

def beValue (bytes : List UInt8) : Nat :=
  bytes.foldl (fun value byte => value * 256 + byte.toNat) 0

theorem beValue_concat (bytes : List UInt8) (byte : UInt8) :
    beValue (bytes ++ [byte]) = beValue bytes * 256 + byte.toNat := by
  rw [beValue, List.foldl_append]
  rfl

/-- The bytes are the digits to the base 256, least significant last. -/
theorem beValue_eq_ofDigits (bytes : List UInt8) :
    beValue bytes = Nat.ofDigits 256 (bytes.reverse.map UInt8.toNat) := by
  induction bytes using List.reverseRecOn with
  | nil => rfl
  | append_singleton bytes byte ih =>
      rw [beValue_concat, ih, List.reverse_concat, List.map_cons, Nat.ofDigits_cons]
      omega

theorem toNat_lt_of_mem_map {digit : Nat} (hmem : digit ∈ bytes.map UInt8.toNat) :
    digit < 256 := by
  obtain ⟨byte, -, rfl⟩ := List.mem_map.mp hmem
  exact byte.toNat_lt

theorem beValue_lt (bytes : List UInt8) : beValue bytes < 256 ^ bytes.length := by
  have hdigits : ∀ digit ∈ bytes.reverse.map UInt8.toNat, digit < 256 :=
    fun _ hmem => toNat_lt_of_mem_map hmem
  have hlt := Nat.ofDigits_lt_base_pow_length (by decide) hdigits
  rw [List.length_map, List.length_reverse] at hlt
  rw [beValue_eq_ofDigits]
  exact hlt

theorem beValue_append (front back : List UInt8) :
    beValue (front ++ back) = beValue front * 256 ^ back.length + beValue back := by
  rw [beValue_eq_ofDigits, List.reverse_append, List.map_append, Nat.ofDigits_append,
    ← beValue_eq_ofDigits, ← beValue_eq_ofDigits, List.length_map, List.length_reverse]
  ring

/-- Sequences of one length are told apart by their numbers. -/
theorem beValue_inj (hlen : front.length = back.length) (hvalue : beValue front = beValue back) :
    front = back := by
  rw [beValue_eq_ofDigits, beValue_eq_ofDigits] at hvalue
  have hdigits := Nat.ofDigits_inj_of_len_eq (by decide)
    (by rw [List.length_map, List.length_map, List.length_reverse, List.length_reverse, hlen])
    (fun _ hmem => toNat_lt_of_mem_map hmem) (fun _ hmem => toNat_lt_of_mem_map hmem) hvalue
  have hreverse := List.map_injective_iff.mpr (fun _ _ => UInt8.toNat_inj.mp) hdigits
  exact List.reverse_injective hreverse

/-! ## Gathering bytes in a register -/

def shiftIn (register : BitVec 64) (byte : UInt8) : BitVec 64 :=
  register <<< 8 ||| byte.toBitVec.setWidth 64

theorem toNat_shiftIn {register : BitVec 64} (hroom : register.toNat < 2 ^ 56) :
    (shiftIn register byte).toNat = register.toNat * 256 + byte.toNat := by
  have hbyte : byte.toNat < 2 ^ 8 := byte.toNat_lt
  have hshift : register.toNat <<< 8 % 2 ^ 64 = register.toNat <<< 8 := by
    rw [Nat.shiftLeft_eq]
    exact Nat.mod_eq_of_lt (by omega)
  have hwiden : (byte.toBitVec.setWidth 64).toNat = byte.toNat := by
    rw [BitVec.toNat_setWidth]
    exact Nat.mod_eq_of_lt (by omega)
  rw [shiftIn, BitVec.toNat_or, BitVec.toNat_shiftLeft, hwiden, hshift,
    ← Nat.shiftLeft_add_eq_or_of_lt hbyte, Nat.shiftLeft_eq]

/-- Eight bytes fill the register without losing one. -/
theorem toNat_foldl_shiftIn (hlen : bytes.length ≤ 8) :
    (bytes.foldl shiftIn 0).toNat = beValue bytes := by
  induction bytes using List.reverseRecOn with
  | nil => rfl
  | append_singleton bytes byte ih =>
      rw [List.length_append, List.length_singleton] at hlen
      have hgathered := ih (by omega)
      have hroom : (bytes.foldl shiftIn 0).toNat < 2 ^ 56 := by
        rw [hgathered]
        calc
          beValue bytes < 256 ^ bytes.length := beValue_lt bytes
          _ ≤ 256 ^ 7 := Nat.pow_le_pow_right (by decide) (by omega)
          _ = 2 ^ 56 := by decide
      rw [List.foldl_append, List.foldl_cons, List.foldl_nil, toNat_shiftIn hroom, hgathered,
        beValue_concat]

end Wire
