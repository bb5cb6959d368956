import Syauth.Core.Crypto
import Syauth.Text.Hex
import Syauth.Text.Utf8

/-! # The public key of a bond record as text

The module `hex_pubkey` of `crates/syauth-core/src/bond.rs`.  The length is checked in
bytes, and the text is then cut at every second byte.
-/

namespace Syauth

open Text

/-- What comes of a text that is not taken; a slice that would cut a character panics. -/
inductive HexPubkeyFault where
  | length (got : Nat)
  | parse (byte : Nat)
  | panic
  deriving DecidableEq

/-- The `Display` text of the errors. -/
def HexPubkeyFault.message? : HexPubkeyFault → Option String
  | .length got => some s!"pubkey hex must be 64 chars, got {got}"
  | .parse byte => some s!"pubkey hex parse error at byte {byte}: invalid digit found in string"
  | .panic => none

/-- `u8::from_str_radix(_, 16)` without its sign. -/
def parseHexDigits (digits : List Char) : Option UInt8 :=
  if digits = [] then none
  else
    (digits.foldlM (fun (value : Nat) c => (hexDigit? c).map fun d => value * 16 + d) 0).bind
      fun value => if value ≤ 255 then some (UInt8.ofNat value) else none

/-- One leading plus is taken as a sign. -/
def u8FromStrRadix16 : List Char → Option UInt8
  | '+' :: digits => parseHexDigits digits
  | digits => parseHexDigits digits

/-- The pairs from the `i`-th on; the text is what is behind the ones before. -/
def parsePairs : Nat → Nat → List Char → Except HexPubkeyFault Bytes
  | 0, _, _ => .ok []
  | n + 1, i, text =>
      match splitAtByte 2 text with
      | none => .error .panic
      | some (pair, rest) =>
          match u8FromStrRadix16 pair with
          | none => .error (.parse i)
          | some byte => (parsePairs n (i + 1) rest).map fun bytes => byte :: bytes

def hexPubkeyDeserialize (raw : String) : Except HexPubkeyFault Bytes :=
  let got := (utf8 raw.toList).length
  if got ≠ pubkeyLen * 2 then .error (.length got)
  else parsePairs pubkeyLen 0 raw.toList

def hexPubkeySerialize (pubkey : Pubkey) : String :=
  hexLowercase pubkey.val

/-! ## Pairs of characters -/

/-- Two characters that the parser takes for a byte. -/
structure HexPair where
  first : Char
  second : Char
  taken : ((hexDigit? first).isSome ∨ first = '+') ∧ (hexDigit? second).isSome

def HexPair.text (pair : HexPair) : List Char :=
  [pair.first, pair.second]

/-- The first of the two is a sign. -/
def HexPair.IsSigned (pair : HexPair) : Prop :=
  pair.first = '+'

theorem utf8Size_of_hexDigit? {c : Char} (hdigit : (hexDigit? c).isSome) : c.utf8Size = 1 := by
  obtain ⟨value, hvalue⟩ := Option.isSome_iff_exists.mp hdigit
  rw [Char.utf8Size_eq_one_iff]
  exact Nat.lt_succ_iff.mp (hexDigit?_eq_some hvalue).2

theorem HexPair.length_utf8 (pair : HexPair) : (utf8 pair.text).length = 2 := by
  have hfirst : pair.first.utf8Size = 1 := by
    rcases pair.taken.1 with hdigit | hsign
    · exact utf8Size_of_hexDigit? hdigit
    · rw [hsign]
      rfl
  rw [text, length_utf8_cons, length_utf8_cons, hfirst, utf8Size_of_hexDigit? pair.taken.2]
  rfl

theorem parseHexDigits_singleton (c : Char) :
    parseHexDigits [c] = (hexDigit? c).map UInt8.ofNat := by
  cases hc : hexDigit? c with
  | none => simp [parseHexDigits, hc]
  | some value =>
      have hlt := (hexDigit?_eq_some hc).1
      have hsmall : value ≤ 255 := by omega
      simp [parseHexDigits, hc, hsmall]

theorem parseHexDigits_pair (high low : Char) :
    parseHexDigits [high, low] = hexByte? high low := by
  cases hhigh : hexDigit? high with
  | none => simp [parseHexDigits, hexByte?, hhigh]
  | some h =>
      cases hlow : hexDigit? low with
      | none => simp [parseHexDigits, hexByte?, hhigh, hlow]
      | some l =>
          have hhighLt := (hexDigit?_eq_some hhigh).1
          have hlowLt := (hexDigit?_eq_some hlow).1
          have hsmall : h * 16 + l ≤ 255 := by omega
          simp [parseHexDigits, hexByte?, hhigh, hlow, hsmall]

theorem u8FromStrRadix16_of_ne {digits : List Char} (hsign : digits.head? ≠ some '+') :
    u8FromStrRadix16 digits = parseHexDigits digits := by
  unfold u8FromStrRadix16
  split
  · exact absurd rfl hsign
  · rfl

theorem u8FromStrRadix16_digits {high low : Char} (hhigh : (hexDigit? high).isSome) :
    u8FromStrRadix16 [high, low] = hexByte? high low := by
  rw [u8FromStrRadix16_of_ne, parseHexDigits_pair]
  intro hsign
  cases hsign
  revert hhigh
  decide

/-- Of the slices of two bytes exactly these pairs are taken. -/
theorem u8FromStrRadix16_isSome_iff {pair : List Char} (hbytes : (utf8 pair).length = 2) :
    (u8FromStrRadix16 pair).isSome ↔ ∃ p : HexPair, pair = p.text := by
  constructor
  · intro hsome
    match pair, hbytes, hsome with
    | [], hbytes, _ => cases hbytes
    | [c], hbytes, hsome =>
        rw [length_utf8_cons] at hbytes
        have hc : c.utf8Size = 2 := hbytes
        have hsign : [c].head? ≠ some '+' := by
          intro hplus
          cases hplus
          cases hc
        rw [u8FromStrRadix16_of_ne hsign, parseHexDigits_singleton, Option.isSome_map] at hsome
        rw [utf8Size_of_hexDigit? hsome] at hc
        cases hc
    | [c, d], _, hsome =>
        by_cases hsign : c = '+'
        · subst hsign
          change (parseHexDigits [d]).isSome = true at hsome
          rw [parseHexDigits_singleton, Option.isSome_map] at hsome
          exact ⟨⟨'+', d, .inr rfl, hsome⟩, rfl⟩
        · have hhead : [c, d].head? ≠ some '+' := fun hplus => hsign (Option.some.inj hplus)
          rw [u8FromStrRadix16_of_ne hhead, parseHexDigits_pair, hexByte?_isSome] at hsome
          exact ⟨⟨c, d, .inl hsome.1, hsome.2⟩, rfl⟩
    | c :: d :: e :: rest, hbytes, _ =>
        have hc := c.utf8Size_pos
        have hd := d.utf8Size_pos
        have he := e.utf8Size_pos
        rw [length_utf8_cons, length_utf8_cons, length_utf8_cons] at hbytes
        omega
  · intro ⟨p, hp⟩
    subst hp
    rcases p.taken.1 with hdigit | hsign
    · rw [HexPair.text, u8FromStrRadix16_digits hdigit, hexByte?_isSome]
      exact ⟨hdigit, p.taken.2⟩
    · rw [HexPair.text, hsign]
      change (parseHexDigits [p.second]).isSome = true
      rw [parseHexDigits_singleton, Option.isSome_map]
      exact p.taken.2

/-! ## The loop -/

/-- The characters of the pairs. -/
def pairsText (pairs : List HexPair) : List Char :=
  pairs.flatMap HexPair.text

theorem length_utf8_pairsText (pairs : List HexPair) :
    (utf8 (pairsText pairs)).length = 2 * pairs.length := by
  induction pairs with
  | nil => rfl
  | cons pair pairs ih =>
      rw [pairsText, List.flatMap_cons, utf8_append, List.length_append, pair.length_utf8]
      change 2 + (utf8 (pairsText pairs)).length = _
      rw [ih, List.length_cons]
      omega

/-- A slice of two bytes would cut a character of the text. -/
def CutsCharacter (text : List Char) : Prop :=
  2 ≤ (utf8 text).length ∧ ∀ front back, text = front ++ back → (utf8 front).length ≠ 2

theorem splitAtByte_pair (pair : HexPair) (rest : List Char) :
    splitAtByte 2 (pair.text ++ rest) = some (pair.text, rest) :=
  splitAtByte_eq_some.mpr ⟨rfl, pair.length_utf8⟩

/-- Every pair is taken. -/
theorem parsePairs_eq_ok {n i : Nat} {text : List Char} {bytes : Bytes}
    (hparse : parsePairs n i text = .ok bytes) :
    ∃ pairs rest, pairs.length = n ∧ text = pairsText pairs ++ rest := by
  induction n generalizing i text bytes with
  | zero => exact ⟨[], text, rfl, rfl⟩
  | succ n ih =>
      rw [parsePairs] at hparse
      split at hparse
      · cases hparse
      · next pair rest hsplit =>
          obtain ⟨htext, hbytes⟩ := splitAtByte_eq_some.mp hsplit
          split at hparse
          · cases hparse
          · next byte hbyte =>
              obtain ⟨p, hp⟩ := (u8FromStrRadix16_isSome_iff hbytes).mp (by rw [hbyte]; rfl)
              cases hrest : parsePairs n (i + 1) rest with
              | error fault =>
                  rw [hrest] at hparse
                  cases hparse
              | ok tail =>
                  obtain ⟨pairs, rest', hlength, hpairs⟩ := ih hrest
                  refine ⟨p :: pairs, rest', by rw [List.length_cons, hlength], ?_⟩
                  rw [htext, hp, hpairs, pairsText, pairsText, List.flatMap_cons,
                    List.append_assoc]

theorem parsePairs_eq_panic {n i : Nat} {text : List Char}
    (hlength : (utf8 text).length = 2 * n) (hparse : parsePairs n i text = .error .panic) :
    ∃ pairs rest, text = pairsText pairs ++ rest ∧ CutsCharacter rest := by
  induction n generalizing i text with
  | zero => cases hparse
  | succ n ih =>
      rw [parsePairs] at hparse
      split at hparse
      · next hnone =>
          refine ⟨[], text, rfl, by omega, fun front back htext hfront => ?_⟩
          rw [splitAtByte_eq_some.mpr ⟨htext, hfront⟩] at hnone
          cases hnone
      · next pair rest hsplit =>
          obtain ⟨htext, hbytes⟩ := splitAtByte_eq_some.mp hsplit
          split at hparse
          · cases hparse
          · next byte hbyte =>
              obtain ⟨p, hp⟩ := (u8FromStrRadix16_isSome_iff hbytes).mp (by rw [hbyte]; rfl)
              have hrest : parsePairs n (i + 1) rest = .error .panic := by
                cases htail : parsePairs n (i + 1) rest with
                | error fault =>
                    rw [htail] at hparse
                    exact hparse
                | ok tail =>
                    rw [htail] at hparse
                    cases hparse
              rw [htext, utf8_append, List.length_append, hbytes] at hlength
              obtain ⟨pairs, rest', hpairs, hcuts⟩ := ih (by omega) hrest
              refine ⟨p :: pairs, rest', ?_, hcuts⟩
              rw [htext, hp, hpairs, pairsText, pairsText, List.flatMap_cons, List.append_assoc]

/-- The loop gets behind every pair that it takes. -/
theorem parsePairs_append (pairs : List HexPair) (n i : Nat) (rest : List Char) :
    ∃ bytes, parsePairs (pairs.length + n) i (pairsText pairs ++ rest) =
      (parsePairs n (i + pairs.length) rest).map fun tail => bytes ++ tail := by
  induction pairs generalizing i with
  | nil =>
      refine ⟨[], ?_⟩
      rw [List.length_nil, Nat.zero_add]
      change parsePairs n i rest = _
      cases parsePairs n i rest <;> rfl
  | cons pair pairs ih =>
      obtain ⟨byte, hbyte⟩ := Option.isSome_iff_exists.mp
        ((u8FromStrRadix16_isSome_iff pair.length_utf8).mpr ⟨pair, rfl⟩)
      obtain ⟨bytes, hbytes⟩ := ih (i + 1)
      have hcount : (pair :: pairs).length + n = (pairs.length + n) + 1 := by
        rw [List.length_cons]
        omega
      have htext : pairsText (pair :: pairs) ++ rest = pair.text ++ (pairsText pairs ++ rest) := by
        rw [pairsText, List.flatMap_cons, List.append_assoc]
        rfl
      have hindex : i + 1 + pairs.length = i + (pair :: pairs).length := by
        rw [List.length_cons]
        omega
      refine ⟨byte :: bytes, ?_⟩
      rw [hcount, htext, parsePairs, splitAtByte_pair]
      dsimp only
      rw [hbyte]
      dsimp only
      rw [hbytes, hindex]
      cases parsePairs n (i + (pair :: pairs).length) rest <;> rfl

theorem parsePairs_of_cuts {n i : Nat} {rest : List Char} (hcuts : CutsCharacter rest) :
    parsePairs (n + 1) i rest = .error .panic := by
  rw [parsePairs]
  split
  · rfl
  · next pair back hsplit =>
      obtain ⟨htext, hbytes⟩ := splitAtByte_eq_some.mp hsplit
      exact absurd hbytes (hcuts.2 pair back htext)

/-- Digits are read as the bytes they denote. -/
theorem parsePairs_of_decodeHex {text : List Char} {bytes : Bytes}
    (hdecode : decodeHex text = some bytes) (i : Nat) :
    parsePairs bytes.length i text = .ok bytes := by
  induction text using decodeHex.induct generalizing bytes i with
  | case1 =>
      cases hdecode
      rfl
  | case2 c => cases hdecode
  | case3 high low rest ih =>
      obtain ⟨byte, hbyte, hrest⟩ := Option.bind_eq_some_iff.mp hdecode
      obtain ⟨tail, htail, hbytes⟩ := Option.map_eq_some_iff.mp hrest
      subst hbytes
      obtain ⟨hhigh, hlow⟩ := hexByte?_isSome.mp (by rw [hbyte]; rfl)
      have hsplit : splitAtByte 2 (high :: low :: rest) = some ([high, low], rest) :=
        splitAtByte_pair ⟨high, low, .inl hhigh, hlow⟩ rest
      rw [List.length_cons, parsePairs, hsplit]
      dsimp only
      rw [u8FromStrRadix16_digits hhigh, hbyte]
      dsimp only
      rw [ih htail (i + 1)]
      rfl

theorem length_of_parsePairs {n i : Nat} {text : List Char} {bytes : Bytes}
    (hparse : parsePairs n i text = .ok bytes) : bytes.length = n := by
  induction n generalizing i text bytes with
  | zero =>
      cases hparse
      rfl
  | succ n ih =>
      rw [parsePairs] at hparse
      split at hparse
      · cases hparse
      · next pair rest _ =>
          split at hparse
          · cases hparse
          · cases hrest : parsePairs n (i + 1) rest with
            | error fault =>
                rw [hrest] at hparse
                cases hparse
            | ok tail =>
                rw [hrest] at hparse
                cases hparse
                rw [List.length_cons, ih hrest]

theorem length_of_hexPubkeyDeserialize {raw : String} {bytes : Bytes}
    (hread : hexPubkeyDeserialize raw = .ok bytes) : bytes.length = pubkeyLen := by
  simp only [hexPubkeyDeserialize] at hread
  split at hread
  · cases hread
  · exact length_of_parsePairs hread

/-! ## What the text of a key is -/

/-- As many digits as the key needs, in either case. -/
def IsHexPubkey (raw : String) : Prop :=
  raw.toList.length = pubkeyLen * 2 ∧ ∀ c ∈ raw.toList, (hexDigit? c).isSome

/-- The digits of a key are read as its bytes, and on every other text there is an error. -/
structure DecodesExactly (raw : String) : Prop where
  digits : IsHexPubkey raw →
    ∃ bytes, decodeHex raw.toList = some bytes ∧ hexPubkeyDeserialize raw = .ok bytes
  other : ¬ IsHexPubkey raw → ∃ fault, hexPubkeyDeserialize raw = .error fault ∧ fault ≠ .panic

/-- A text of the right number of bytes, and behind pairs that are taken comes nothing although
one of them has a sign, or a character that the next slice cuts. -/
def Misread (raw : String) : Prop :=
  (utf8 raw.toList).length = pubkeyLen * 2 ∧
    ∃ pairs rest, raw.toList = pairsText pairs ++ rest ∧
      ((rest = [] ∧ ∃ pair ∈ pairs, pair.IsSigned) ∨ CutsCharacter rest)

theorem length_utf8_of_digits {text : List Char} (hdigits : ∀ c ∈ text, (hexDigit? c).isSome) :
    (utf8 text).length = text.length := by
  induction text with
  | nil => rfl
  | cons c text ih =>
      obtain ⟨hc, htext⟩ := List.forall_mem_cons.mp hdigits
      rw [length_utf8_cons, utf8Size_of_hexDigit? hc, ih htext, List.length_cons]
      omega

/-- The slice of two digits cuts nothing. -/
theorem not_cutsCharacter_of_digits {text : List Char}
    (hdigits : ∀ c ∈ text, (hexDigit? c).isSome) : ¬ CutsCharacter text := by
  intro ⟨hlength, hcuts⟩
  match text, hdigits, hlength with
  | [], _, hlength => cases hlength
  | [c], hdigits, hlength =>
      rw [length_utf8_of_digits hdigits, List.length_singleton] at hlength
      exact absurd hlength (by decide)
  | c :: d :: rest, hdigits, _ =>
      have hpair : ∀ e ∈ [c, d], (hexDigit? e).isSome := by
        intro e he
        exact hdigits e (List.mem_append_left rest he)
      exact hcuts [c, d] rest rfl (length_utf8_of_digits hpair)

theorem not_digit_of_signed {pairs : List HexPair} {pair : HexPair} (hmem : pair ∈ pairs)
    (hsigned : pair.IsSigned) : ¬ ∀ c ∈ pairsText pairs, (hexDigit? c).isSome := by
  intro hdigits
  have hplus : pair.first ∈ pairsText pairs :=
    List.mem_flatMap.mpr ⟨pair, hmem, List.mem_cons_self⟩
  have hdigit := hdigits pair.first hplus
  rw [hsigned] at hdigit
  revert hdigit
  decide

theorem not_misread_of_isHexPubkey {raw : String} (hhex : IsHexPubkey raw) : ¬ Misread raw := by
  intro ⟨_, pairs, rest, hraw, hmisread⟩
  have hdigits := hhex.2
  rw [hraw] at hdigits
  obtain ⟨hpairs, hrest⟩ := List.forall_mem_append.mp hdigits
  rcases hmisread with ⟨-, pair, hmem, hsigned⟩ | hcuts
  · exact not_digit_of_signed hmem hsigned hpairs
  · exact not_cutsCharacter_of_digits hrest hcuts

theorem hexPubkeyDeserialize_of_length {raw : String}
    (hlength : (utf8 raw.toList).length = pubkeyLen * 2) :
    hexPubkeyDeserialize raw = parsePairs pubkeyLen 0 raw.toList :=
  if_neg (not_not.mpr hlength)

/-- Such a text is taken, or the loop panics. -/
theorem deserialize_of_misread {raw : String} (hmisread : Misread raw) :
    (∃ bytes, hexPubkeyDeserialize raw = .ok bytes) ∨
      hexPubkeyDeserialize raw = .error .panic := by
  obtain ⟨hlength, pairs, rest, hraw, hcases⟩ := hmisread
  have hbytes := hlength
  rw [hraw, utf8_append, List.length_append, length_utf8_pairsText] at hbytes
  rw [hexPubkeyDeserialize_of_length hlength, hraw]
  rcases hcases with ⟨hnil, -⟩ | hcuts
  · rw [hnil, utf8_nil, List.length_nil] at hbytes
    obtain ⟨bytes, hparse⟩ := parsePairs_append pairs 0 0 rest
    rw [show pubkeyLen = pairs.length + 0 by omega, hparse]
    exact .inl ⟨_, rfl⟩
  · obtain ⟨n, hn⟩ : ∃ n, pubkeyLen = pairs.length + (n + 1) := by
      obtain ⟨hrest, -⟩ := hcuts
      exact ⟨pubkeyLen - pairs.length - 1, by omega⟩
    obtain ⟨bytes, hparse⟩ := parsePairs_append pairs (n + 1) 0 rest
    rw [hn, hparse, parsePairs_of_cuts hcuts]
    exact .inr rfl

/-- A text that is taken and is not a key's, or that panics, is such a text. -/
theorem misread_of_deserialize {raw : String} (hhex : ¬ IsHexPubkey raw)
    (hresult : (∃ bytes, hexPubkeyDeserialize raw = .ok bytes) ∨
      hexPubkeyDeserialize raw = .error .panic) : Misread raw := by
  have hlength : (utf8 raw.toList).length = pubkeyLen * 2 := by
    by_cases hgot : (utf8 raw.toList).length = pubkeyLen * 2
    · exact hgot
    · have herror : hexPubkeyDeserialize raw = .error (.length _) := if_pos hgot
      rw [herror] at hresult
      rcases hresult with ⟨bytes, hok⟩ | hpanic
      · cases hok
      · cases hpanic
  rw [hexPubkeyDeserialize_of_length hlength] at hresult
  refine ⟨hlength, ?_⟩
  rcases hresult with ⟨bytes, hok⟩ | hpanic
  · obtain ⟨pairs, rest, hcount, hraw⟩ := parsePairs_eq_ok hok
    have hbytes := hlength
    rw [hraw, utf8_append, List.length_append, length_utf8_pairsText, hcount] at hbytes
    have hnil : rest = [] := utf8_eq_nil_iff.mp (by omega)
    refine ⟨pairs, rest, hraw, .inl ⟨hnil, ?_⟩⟩
    apply Classical.byContradiction
    intro hunsigned
    have hdigits : ∀ c ∈ pairsText pairs, (hexDigit? c).isSome := by
      intro c hc
      obtain ⟨pair, hmem, htext⟩ := List.mem_flatMap.mp hc
      have hfirst : (hexDigit? pair.first).isSome := by
        rcases pair.taken.1 with hdigit | hsign
        · exact hdigit
        · exact absurd ⟨pair, hmem, hsign⟩ hunsigned
      rcases List.mem_cons.mp htext with heq | hrest
      · exact heq ▸ hfirst
      · exact List.mem_singleton.mp hrest ▸ pair.taken.2
    apply hhex
    rw [hnil, List.append_nil] at hraw
    rw [hraw] at hlength
    rw [IsHexPubkey, hraw]
    exact ⟨(length_utf8_of_digits hdigits).symm.trans hlength, hdigits⟩
  · rw [Nat.mul_comm] at hlength
    obtain ⟨pairs, rest, hraw, hcuts⟩ := parsePairs_eq_panic hlength hpanic
    exact ⟨pairs, rest, hraw, .inr hcuts⟩

theorem hexDigit?_hexChars {value : Nat} (hlt : value < 16) :
    hexDigit? (hexChars.getD value '0') = some value := by
  have hall : ∀ i < 16, hexDigit? (hexChars.getD i '0') = some i := by decide
  exact hall value hlt

theorem decodeHex_hexLowercase (bytes : Bytes) :
    decodeHex (hexLowercase bytes).toList = some bytes := by
  rw [hexLowercase, String.toList_ofList]
  induction bytes with
  | nil => rfl
  | cons byte bytes ih =>
      have hbyte : byte.toNat < 256 := byte.toNat_lt
      rw [List.flatMap_cons, List.cons_append, List.cons_append, List.nil_append, decodeHex, ih,
        hexByte?, hexDigit?_hexChars (by omega), hexDigit?_hexChars (by omega), Option.bind_some,
        Option.map_some, Option.bind_some, Option.map_some,
        show byte.toNat / 16 * 16 + byte.toNat % 16 = byte.toNat by omega, UInt8.ofNat_toNat]

theorem hexPubkeyDeserialize_of_digits {raw : String} (hhex : IsHexPubkey raw) :
    ∃ bytes, decodeHex raw.toList = some bytes ∧ hexPubkeyDeserialize raw = .ok bytes := by
  have heven : raw.toList.length % 2 = 0 := by
    rw [hhex.1]
    rfl
  obtain ⟨bytes, hbytes⟩ := Option.isSome_iff_exists.mp (decodeHex_isSome.mpr ⟨heven, hhex.2⟩)
  have hcount : bytes.length = pubkeyLen := by
    have hlength := length_of_decodeHex hbytes
    rw [hhex.1] at hlength
    omega
  refine ⟨bytes, hbytes, ?_⟩
  rw [hexPubkeyDeserialize_of_length ((length_utf8_of_digits hhex.2).trans hhex.1), ← hcount]
  exact parsePairs_of_decodeHex hbytes 0

theorem isHexPubkey_serialize (pubkey : Pubkey) : IsHexPubkey (hexPubkeySerialize pubkey) := by
  have hdecode : decodeHex (hexPubkeySerialize pubkey).toList = some pubkey.val :=
    decodeHex_hexLowercase pubkey.val
  constructor
  · rw [length_of_decodeHex hdecode, pubkey.property, Nat.mul_comm]
  · exact (decodeHex_isSome.mp (by rw [hdecode]; rfl)).2

theorem hexPubkeyDeserialize_serialize (pubkey : Pubkey) :
    hexPubkeyDeserialize (hexPubkeySerialize pubkey) = .ok pubkey.val := by
  obtain ⟨bytes, hbytes, hread⟩ := hexPubkeyDeserialize_of_digits (isHexPubkey_serialize pubkey)
  have hsame : some bytes = some pubkey.val := hbytes.symm.trans (decodeHex_hexLowercase pubkey.val)
  rw [hread, Option.some.inj hsame]

/-- Exactly the texts that are misread are not decoded as they should be; what the serializer
writes is read back. -/
theorem hexPubkeyDeserialize_exact_iff (raw : String) :
    (DecodesExactly raw ↔ ¬ Misread raw) ∧
      ∀ pubkey : Pubkey, raw = hexPubkeySerialize pubkey →
        hexPubkeyDeserialize raw = .ok pubkey.val := by
  refine ⟨⟨?_, ?_⟩, ?_⟩
  · intro hexact hmisread
    have hhex : ¬ IsHexPubkey raw := fun hhex => not_misread_of_isHexPubkey hhex hmisread
    obtain ⟨fault, hfault, hne⟩ := hexact.other hhex
    rcases deserialize_of_misread hmisread with ⟨bytes, hok⟩ | hpanic
    · rw [hfault] at hok
      cases hok
    · rw [hfault] at hpanic
      exact hne (Except.error.inj hpanic)
  · intro hread
    refine ⟨hexPubkeyDeserialize_of_digits, fun hhex => ?_⟩
    cases hresult : hexPubkeyDeserialize raw with
    | ok bytes => exact absurd (misread_of_deserialize hhex (.inl ⟨bytes, hresult⟩)) hread
    | error fault =>
        refine ⟨fault, rfl, fun hpanic => ?_⟩
        rw [hpanic] at hresult
        exact hread (misread_of_deserialize hhex (.inr hresult))
  · intro pubkey hraw
    rw [hraw]
    exact hexPubkeyDeserialize_serialize pubkey

/-- The first byte has a sign. -/
def signedKey : String :=
  String.ofList ('+' :: List.replicate 63 '0')

/-- A character of three bytes comes first. -/
def euroKey : String :=
  String.ofList ('€' :: List.replicate 61 '0')

/-- One of the texts is taken for the key of zeros, the other ends the program. -/
theorem hexPubkeyDeserialize_misreads :
    (hexPubkeyDeserialize signedKey = .ok (List.replicate 32 0) ∧ ¬ DecodesExactly signedKey) ∧
      hexPubkeyDeserialize euroKey = .error .panic ∧ ¬ DecodesExactly euroKey := by
  have hsigned : hexPubkeyDeserialize signedKey = .ok (List.replicate 32 0) := by
    decide +kernel
  have heuro : hexPubkeyDeserialize euroKey = .error .panic := by
    decide +kernel
  refine ⟨⟨hsigned, fun hexact => ?_⟩, heuro, fun hexact => ?_⟩
  · have hother : ¬ IsHexPubkey signedKey := by
      intro hhex
      have hplus := hhex.2 '+' (by decide)
      revert hplus
      decide
    obtain ⟨fault, hfault, -⟩ := hexact.other hother
    rw [hsigned] at hfault
    cases hfault
  · have hother : ¬ IsHexPubkey euroKey := by
      intro hhex
      have hmark := hhex.2 '€' (by decide)
      revert hmark
      decide
    obtain ⟨fault, hfault, hne⟩ := hexact.other hother
    rw [heuro] at hfault
    cases hfault
    exact hne rfl

end Syauth
