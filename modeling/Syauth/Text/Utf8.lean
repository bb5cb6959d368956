import Mathlib.Data.List.Basic

/-! # Text as bytes

The UTF-8 bytes of a text as a list, next to what Lean's strings have.
-/

namespace Text

def utf8 (text : List Char) : List UInt8 :=
  text.flatMap String.utf8EncodeChar

@[simp]
theorem utf8_nil : utf8 [] = [] := rfl

@[simp]
theorem utf8_cons (c : Char) (text : List Char) :
    utf8 (c :: text) = String.utf8EncodeChar c ++ utf8 text := rfl

@[simp]
theorem utf8_append (front back : List Char) : utf8 (front ++ back) = utf8 front ++ utf8 back :=
  List.flatMap_append

/-- What was encoded is decoded. -/
theorem fromUTF8?_utf8 (text : List Char) :
    String.fromUTF8? (utf8 text).toByteArray = some (String.ofList text) := by
  have hvalid : (utf8 text).toByteArray.IsValidUTF8 := ⟨text, rfl⟩
  rw [String.fromUTF8?, dif_pos hvalid]
  rfl

/-- The bytes of a text that comes out of the decoder. -/
theorem utf8_of_fromUTF8? {bytes : List UInt8} {text : String}
    (hdecoded : String.fromUTF8? bytes.toByteArray = some text) : utf8 text.toList = bytes := by
  rw [String.fromUTF8?] at hdecoded
  split at hdecoded
  · next hvalid =>
      have hbytes : bytes.toByteArray = text.toByteArray :=
        congrArg String.toByteArray (Option.some.inj hdecoded)
      rw [← String.utf8Encode_toList] at hbytes
      exact (List.toByteArray_inj.mp hbytes).symm
  · cases hdecoded

/-- Where the bytes of a text go on to be those of another one, the text goes on to be it. -/
theorem isPrefix_of_utf8_append {front text : List Char} {rest : List UInt8}
    (hsame : utf8 front ++ rest = utf8 text) : front <+: text := by
  apply List.isPrefix_of_utf8Encode_append_eq_utf8Encode rest.toByteArray
  have hbytes := congrArg List.toByteArray hsame
  rwa [List.toByteArray_append] at hbytes

/-- Only an ASCII character has an ASCII byte. -/
theorem toNat_eq_of_mem_utf8EncodeChar {c : Char} {byte : UInt8}
    (hmem : byte ∈ String.utf8EncodeChar c) (hascii : byte.toNat < 128) :
    c.toNat = byte.toNat := by
  simp only [String.utf8EncodeChar] at hmem
  split at hmem
  · next hsmall =>
      change c.toNat ≤ 127 at hsmall
      rw [List.mem_singleton] at hmem
      subst hmem
      rw [UInt8.toNat_ofNat']
      change c.toNat = c.toNat % 256
      omega
  · split at hmem
    · simp only [List.mem_cons, List.not_mem_nil, or_false] at hmem
      rcases hmem with rfl | rfl <;> rw [UInt8.toNat_ofNat'] at hascii <;> omega
    · split at hmem
      · simp only [List.mem_cons, List.not_mem_nil, or_false] at hmem
        rcases hmem with rfl | rfl | rfl <;> rw [UInt8.toNat_ofNat'] at hascii <;> omega
      · simp only [List.mem_cons, List.not_mem_nil, or_false] at hmem
        rcases hmem with rfl | rfl | rfl | rfl <;> rw [UInt8.toNat_ofNat'] at hascii <;> omega

theorem exists_mem_of_mem_utf8 {text : List Char} {byte : UInt8} (hmem : byte ∈ utf8 text)
    (hascii : byte.toNat < 128) : ∃ c ∈ text, c.toNat = byte.toNat := by
  obtain ⟨c, hc, hbyte⟩ := List.mem_flatMap.mp hmem
  exact ⟨c, hc, toNat_eq_of_mem_utf8EncodeChar hbyte hascii⟩

/-! ## Places between bytes -/

/-- The text up to a number of bytes and the rest, unless a character would be cut. -/
def splitAtByte : Nat → List Char → Option (List Char × List Char)
  | 0, text => some ([], text)
  | _ + 1, [] => none
  | n + 1, c :: rest =>
      if c.utf8Size ≤ n + 1 then
        (splitAtByte (n + 1 - c.utf8Size) rest).map fun split => (c :: split.1, split.2)
      else none

theorem length_utf8_cons (c : Char) (text : List Char) :
    (utf8 (c :: text)).length = c.utf8Size + (utf8 text).length := by
  rw [utf8_cons, List.length_append, String.length_utf8EncodeChar]

theorem utf8_eq_nil_iff {text : List Char} : (utf8 text).length = 0 ↔ text = [] := by
  cases text with
  | nil => simp
  | cons c text =>
      have hpos := c.utf8Size_pos
      rw [length_utf8_cons]
      simp only [reduceCtorEq, iff_false]
      omega

theorem splitAtByte_eq_some {n : Nat} {text front back : List Char} :
    splitAtByte n text = some (front, back) ↔ text = front ++ back ∧ (utf8 front).length = n := by
  induction n, text using splitAtByte.induct generalizing front with
  | case1 text =>
      rw [splitAtByte, utf8_eq_nil_iff]
      constructor
      · intro hsplit
        cases hsplit
        exact ⟨rfl, rfl⟩
      · intro ⟨htext, hfront⟩
        rw [htext, hfront]
        rfl
  | case2 n =>
      rw [splitAtByte]
      constructor
      · intro hsplit
        cases hsplit
      · intro ⟨htext, hlength⟩
        rw [(List.append_eq_nil_iff.mp htext.symm).1] at hlength
        cases hlength
  | case3 n c rest hfits ih =>
      rw [splitAtByte, if_pos hfits]
      constructor
      · intro hsplit
        obtain ⟨⟨tail, back'⟩, hfound, hpair⟩ := Option.map_eq_some_iff.mp hsplit
        cases hpair
        obtain ⟨hrest, hlength⟩ := ih.mp hfound
        refine ⟨by rw [hrest]; rfl, ?_⟩
        rw [length_utf8_cons, hlength]
        omega
      · intro ⟨htext, hlength⟩
        cases front with
        | nil => cases hlength
        | cons d tail =>
            obtain ⟨hd, hrest⟩ := List.cons.inj htext
            subst hd
            rw [length_utf8_cons] at hlength
            rw [ih.mpr ⟨hrest, by omega⟩]
            rfl
  | case4 n c rest hcut =>
      rw [splitAtByte, if_neg hcut]
      constructor
      · intro hsplit
        cases hsplit
      · intro ⟨htext, hlength⟩
        cases front with
        | nil => cases hlength
        | cons d tail =>
            obtain ⟨hd, -⟩ := List.cons.inj htext
            rw [length_utf8_cons, ← hd] at hlength
            omega

end Text
