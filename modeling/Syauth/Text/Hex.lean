import Mathlib.Data.List.Basic

/-! # Hexadecimal text

Two digits for a byte, in either case.  Text with a digit left over, or with anything
that is not a digit, denotes nothing.
-/

namespace Text

def hexDigit? (c : Char) : Option Nat :=
  if '0' ≤ c ∧ c ≤ '9' then some (c.toNat - '0'.toNat)
  else if 'a' ≤ c ∧ c ≤ 'f' then some (c.toNat - 'a'.toNat + 10)
  else if 'A' ≤ c ∧ c ≤ 'F' then some (c.toNat - 'A'.toNat + 10)
  else none

def hexByte? (high low : Char) : Option UInt8 :=
  (hexDigit? high).bind fun h => (hexDigit? low).map fun l => UInt8.ofNat (h * 16 + l)

def decodeHex : List Char → Option (List UInt8)
  | [] => some []
  | [_] => none
  | high :: low :: rest =>
      (hexByte? high low).bind fun byte => (decodeHex rest).map fun bytes => byte :: bytes

theorem char_le_iff {c d : Char} : c ≤ d ↔ c.toNat ≤ d.toNat := Iff.rfl

theorem hexDigit?_eq_some {c : Char} {value : Nat} (hdigit : hexDigit? c = some value) :
    value < 16 ∧ c.toNat < 128 := by
  have hbounds : ('0'.toNat = 48 ∧ '9'.toNat = 57) ∧ ('a'.toNat = 97 ∧ 'f'.toNat = 102) ∧
      'A'.toNat = 65 ∧ 'F'.toNat = 70 := by decide
  simp only [hexDigit?, char_le_iff] at hdigit
  split at hdigit
  · cases hdigit
    omega
  · split at hdigit
    · cases hdigit
      omega
    · split at hdigit
      · cases hdigit
        omega
      · cases hdigit

theorem hexByte?_isSome {high low : Char} :
    (hexByte? high low).isSome ↔ (hexDigit? high).isSome ∧ (hexDigit? low).isSome := by
  cases hhigh : hexDigit? high <;> cases hlow : hexDigit? low <;> simp [hexByte?, hhigh, hlow]

theorem length_of_decodeHex {text : List Char} {bytes : List UInt8}
    (hdecode : decodeHex text = some bytes) : text.length = 2 * bytes.length := by
  induction text using decodeHex.induct generalizing bytes with
  | case1 =>
      cases hdecode
      rfl
  | case2 c => cases hdecode
  | case3 high low rest ih =>
      obtain ⟨byte, -, hrest⟩ := Option.bind_eq_some_iff.mp hdecode
      obtain ⟨tail, htail, hbytes⟩ := Option.map_eq_some_iff.mp hrest
      subst hbytes
      simp only [List.length_cons, ih htail]
      omega

/-- Exactly the texts of an even number of digits denote bytes. -/
theorem decodeHex_isSome {text : List Char} :
    (decodeHex text).isSome ↔ text.length % 2 = 0 ∧ ∀ c ∈ text, (hexDigit? c).isSome := by
  induction text using decodeHex.induct with
  | case1 => simp [decodeHex]
  | case2 c => simp [decodeHex]
  | case3 high low rest ih =>
      have hlength : (high :: low :: rest).length % 2 = 0 ↔ rest.length % 2 = 0 := by
        simp only [List.length_cons]
        omega
      have hsplit : (decodeHex (high :: low :: rest)).isSome ↔
          (hexByte? high low).isSome ∧ (decodeHex rest).isSome := by
        rw [decodeHex]
        cases hexByte? high low <;> simp
      rw [hsplit, ih, hexByte?_isSome, hlength, List.forall_mem_cons, List.forall_mem_cons]
      constructor
      · intro ⟨⟨hhigh, hlow⟩, heven, hrest⟩
        exact ⟨heven, hhigh, hlow, hrest⟩
      · intro ⟨heven, hhigh, hlow, hrest⟩
        exact ⟨⟨hhigh, hlow⟩, heven, hrest⟩

end Text
