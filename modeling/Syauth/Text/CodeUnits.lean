import Syauth.Text.Delimited
import Syauth.Text.Lines
import Mathlib.Algebra.Group.Int.Defs
import Mathlib.Algebra.Group.Nat.Defs
import Mathlib.Data.List.DropRight

/-! # Text in UTF-16 code units

Strings of a platform whose characters are 16-bit units, with the operations of its standard
library on them: lines, blanks and decimal numbers.  A surrogate may stand alone.
-/

namespace Text

abbrev CodeUnit := UInt16

/-- The unit of a character of the first plane. -/
def codeUnit (c : Char) : CodeUnit := UInt16.ofNat c.toNat

/-- The units of a text of the first plane. -/
def codeUnits (text : String) : List CodeUnit := text.toList.map codeUnit

/-! ## Lines -/

namespace CodeUnit

def lineFeed : CodeUnit := codeUnit '\n'
def carriageReturn : CodeUnit := codeUnit '\r'

def isBreak (c : CodeUnit) : Bool := c = lineFeed ∨ c = carriageReturn

end CodeUnit

/-- The lines of a text, which end at `\r\n`, `\n` or `\r`. -/
def lineSequence : List CodeUnit → List (List CodeUnit)
  | [] => [[]]
  | [c] => if c.isBreak then [[], []] else [[c]]
  | c :: next :: rest =>
      if c = CodeUnit.carriageReturn ∧ next = CodeUnit.lineFeed then [] :: lineSequence rest
      else if c.isBreak then [] :: lineSequence (next :: rest)
      else (lineSequence (next :: rest)).modifyHead (c :: ·)

/-- A text in one line. -/
def OneLine (text : List CodeUnit) : Prop := ∀ c ∈ text, c.isBreak = false

theorem lineSequence_ne_nil (text : List CodeUnit) : lineSequence text ≠ [] := by
  induction text using lineSequence.induct with
  | case1 => exact List.cons_ne_nil _ _
  | case2 c hbreak => simp [lineSequence, hbreak]
  | case3 c hbreak => simp [lineSequence, hbreak]
  | case4 c next rest hpair ih => simp [lineSequence, hpair]
  | case5 c next rest hpair hbreak ih => simp [lineSequence, hpair, hbreak]
  | case6 c next rest hpair hbreak ih =>
      simpa [lineSequence, hpair, hbreak] using ih

theorem lineSequence_cons_of_not_break {c : CodeUnit} (hc : c.isBreak = false)
    (rest : List CodeUnit) :
    lineSequence (c :: rest) = (lineSequence rest).modifyHead (c :: ·) := by
  cases rest with
  | nil => simp [lineSequence, hc]
  | cons next rest =>
      have hreturn : c ≠ CodeUnit.carriageReturn := by
        intro h
        subst h
        cases hc
      simp [lineSequence, hc, hreturn]

theorem lineSequence_lineFeed_cons (rest : List CodeUnit) :
    lineSequence (CodeUnit.lineFeed :: rest) = [] :: lineSequence rest := by
  cases rest with
  | nil => rfl
  | cons next rest =>
      have hreturn : CodeUnit.lineFeed ≠ CodeUnit.carriageReturn := by decide
      have hbreak : CodeUnit.lineFeed.isBreak = true := by decide
      simp [lineSequence, hreturn, hbreak]

theorem lineSequence_append_lineFeed {line : List CodeUnit} (hline : OneLine line)
    (rest : List CodeUnit) :
    lineSequence (line ++ CodeUnit.lineFeed :: rest) = line :: lineSequence rest := by
  induction line with
  | nil => exact lineSequence_lineFeed_cons rest
  | cons c line ih =>
      obtain ⟨hc, htail⟩ := List.forall_mem_cons.mp hline
      rw [List.cons_append, lineSequence_cons_of_not_break hc, ih htail, List.modifyHead_cons]

/-- Behind the last line feed there is an empty line. -/
theorem lineSequence_terminated {lines : List (List CodeUnit)}
    (hlines : ∀ line ∈ lines, OneLine line) :
    lineSequence (terminated CodeUnit.lineFeed lines) = lines ++ [[]] := by
  induction lines with
  | nil => rfl
  | cons line lines ih =>
      obtain ⟨hline, htail⟩ := List.forall_mem_cons.mp hlines
      rw [terminated_cons, lineSequence_append_lineFeed hline, ih htail, List.cons_append]

/-- The lines of a text are lines. -/
theorem oneLine_of_mem_lineSequence {text line : List CodeUnit}
    (hline : line ∈ lineSequence text) : OneLine line := by
  have hnil : OneLine [] := fun c hc => absurd hc List.not_mem_nil
  induction text using lineSequence.induct generalizing line with
  | case1 =>
      rw [lineSequence, List.mem_singleton] at hline
      rw [hline]
      exact hnil
  | case2 c hbreak =>
      simp only [lineSequence, hbreak, if_true, List.mem_cons, List.not_mem_nil, or_false,
        or_self] at hline
      rw [hline]
      exact hnil
  | case3 c hbreak =>
      simp only [lineSequence, hbreak, if_false, List.mem_singleton, Bool.false_eq_true] at hline
      rw [hline]
      exact List.forall_mem_singleton.mpr (Bool.eq_false_iff.mpr hbreak)
  | case4 c next rest hpair ih =>
      rw [lineSequence, if_pos hpair] at hline
      rcases List.mem_cons.mp hline with rfl | htail
      · exact hnil
      · exact ih htail
  | case5 c next rest hpair hbreak ih =>
      rw [lineSequence, if_neg hpair, if_pos hbreak] at hline
      rcases List.mem_cons.mp hline with rfl | htail
      · exact hnil
      · exact ih htail
  | case6 c next rest hpair hbreak ih =>
      rw [lineSequence, if_neg hpair, if_neg hbreak] at hline
      obtain ⟨first, others, hlines⟩ :=
        List.exists_cons_of_ne_nil (lineSequence_ne_nil (next :: rest))
      rw [hlines, List.modifyHead_cons] at hline
      rcases List.mem_cons.mp hline with rfl | htail
      · have hfirst : OneLine first := ih (hlines ▸ List.mem_cons_self)
        exact List.forall_mem_cons.mpr ⟨Bool.eq_false_iff.mpr hbreak, hfirst⟩
      · exact ih (hlines ▸ List.mem_cons_of_mem _ htail)

/-! ## Blanks -/

/-- White space and space characters, as the platform's `isWhitespace` has them. -/
def CodeUnit.isBlank (c : CodeUnit) : Bool :=
  (0x9 ≤ c && c ≤ 0xD) || (0x1C ≤ c && c ≤ 0x20) || c == 0xA0 || c == 0x1680 ||
    (0x2000 ≤ c && c ≤ 0x200A) || c == 0x2028 || c == 0x2029 || c == 0x202F || c == 0x205F ||
    c == 0x3000

def trim (text : List CodeUnit) : List CodeUnit :=
  (text.dropWhile CodeUnit.isBlank).rdropWhile CodeUnit.isBlank

theorem trim_blank_cons {c : CodeUnit} (hc : c.isBlank = true) (text : List CodeUnit) :
    trim (c :: text) = trim text := by
  rw [trim, List.dropWhile_cons_of_pos hc]
  rfl

/-- A text whose ends are not blank is trimmed. -/
theorem trim_of_ends {first last : CodeUnit} (hfirst : first.isBlank = false)
    (hlast : last.isBlank = false) (middle : List CodeUnit) :
    trim (first :: (middle ++ [last])) = first :: (middle ++ [last]) := by
  have hstart : ¬ first.isBlank = true := by simp [hfirst]
  have hend : ¬ last.isBlank = true := by simp [hlast]
  rw [trim, List.dropWhile_cons_of_neg hstart, ← List.cons_append,
    List.rdropWhile_concat_neg _ _ _ hend]

theorem mem_of_mem_trim {text : List CodeUnit} {c : CodeUnit} (hc : c ∈ trim text) : c ∈ text :=
  (List.dropWhile_suffix _).mem ((List.rdropWhile_prefix _ _).mem hc)

/-! ## Numbers -/

/-- The zeros of the decimal digits in the first plane; the digits follow them. -/
def digitZeros : List CodeUnit :=
  [0x0030, 0x0660, 0x06F0, 0x07C0, 0x0966, 0x09E6, 0x0A66, 0x0AE6, 0x0B66, 0x0BE6, 0x0C66, 0x0CE6,
    0x0D66, 0x0DE6, 0x0E50, 0x0ED0, 0x0F20, 0x1040, 0x1090, 0x17E0, 0x1810, 0x1946, 0x19D0, 0x1A80,
    0x1A90, 0x1B50, 0x1BB0, 0x1C40, 0x1C50, 0xA620, 0xA8D0, 0xA900, 0xA9D0, 0xA9F0, 0xAA50, 0xABF0,
    0xFF10]

def digit? (c : CodeUnit) : Option Nat :=
  digitZeros.findSome? fun zero => if zero ≤ c ∧ c < zero + 10 then some (c - zero).toNat else none

def digits? (text : List CodeUnit) : Option Nat :=
  text.foldl (fun value c => value.bind fun v => (digit? c).map fun d => v * 10 + d) (some 0)

/-- `toIntOrNull`: a 32-bit number with an optional sign. -/
def toIntOrNull : List CodeUnit → Option Int
  | [] => none
  | first :: rest =>
      if first < codeUnit '0' then
        if rest = [] then none
        else if first = codeUnit '-' then
          (digits? rest).bind fun value => if value ≤ 2 ^ 31 then some (-(value : Int)) else none
        else if first = codeUnit '+' then
          (digits? rest).bind fun value => if value < 2 ^ 31 then some (value : Int) else none
        else none
      else
        (digits? (first :: rest)).bind fun value =>
          if value < 2 ^ 31 then some (value : Int) else none

/-- `toLong`: a 64-bit number with an optional sign; nothing when it throws. -/
def toLong : List CodeUnit → Option Int64
  | [] => none
  | first :: rest =>
      if first < codeUnit '0' then
        if first = codeUnit '-' then
          if rest = [] then none
          else (digits? rest).bind fun value =>
            if value ≤ 2 ^ 63 then some (Int64.ofInt (-value)) else none
        else if first = codeUnit '+' then
          if rest = [] then none
          else (digits? rest).bind fun value =>
            if value < 2 ^ 63 then some (Int64.ofInt value) else none
        else none
      else
        (digits? (first :: rest)).bind fun value =>
          if value < 2 ^ 63 then some (Int64.ofInt value) else none

/-- `toString` of a 64-bit number. -/
def longText (value : Int64) : List CodeUnit := codeUnits (toString value.toInt)

def natUnits (n : Nat) : List CodeUnit := (Nat.toDigits 10 n).map codeUnit

theorem natUnits_of_lt {n : Nat} (hn : n < 10) : natUnits n = [codeUnit n.digitChar] := by
  rw [natUnits, Nat.toDigits_of_lt_base hn]
  rfl

theorem natUnits_of_le {n : Nat} (hn : 10 ≤ n) :
    natUnits n = natUnits (n / 10) ++ [codeUnit (n % 10).digitChar] := by
  rw [natUnits, Nat.toDigits_of_base_le (by decide) hn, List.map_append]
  rfl

theorem digits?_concat (text : List CodeUnit) (c : CodeUnit) :
    digits? (text ++ [c]) =
      (digits? text).bind fun v => (digit? c).map fun d => v * 10 + d := by
  rw [digits?, List.foldl_append]
  rfl

theorem digits?_natUnits (n : Nat) : digits? (natUnits n) = some n := by
  have hdigit : ∀ d < 10, digit? (codeUnit d.digitChar) = some d := by decide
  induction n using Nat.strongRecOn with
  | ind n ih =>
      by_cases hsmall : n < 10
      · have hone : digits? ([] ++ [codeUnit n.digitChar]) = some n := by
          rw [digits?_concat, hdigit n hsmall]
          simp [digits?]
        rw [natUnits_of_lt hsmall]
        exact hone
      · have hlarge : 10 ≤ n := Nat.le_of_not_lt hsmall
        rw [natUnits_of_le hlarge, digits?_concat, ih (n / 10) (by omega),
          hdigit (n % 10) (Nat.mod_lt n (by decide))]
        simp only [Option.bind_some, Option.map_some, Option.some_inj]
        omega

/-- What is so of the ten digits is so of the text of any number. -/
theorem forall_mem_natUnits {p : CodeUnit → Prop} (hdigit : ∀ d < 10, p (codeUnit d.digitChar))
    (n : Nat) : ∀ c ∈ natUnits n, p c := by
  induction n using Nat.strongRecOn with
  | ind n ih =>
      by_cases hsmall : n < 10
      · rw [natUnits_of_lt hsmall]
        exact List.forall_mem_singleton.mpr (hdigit n hsmall)
      · have hlarge : 10 ≤ n := Nat.le_of_not_lt hsmall
        rw [natUnits_of_le hlarge]
        refine List.forall_mem_append.mpr ⟨ih (n / 10) (by omega), ?_⟩
        exact List.forall_mem_singleton.mpr (hdigit (n % 10) (Nat.mod_lt n (by decide)))

theorem natUnits_ne_nil (n : Nat) : natUnits n ≠ [] := by
  intro hnil
  exact Nat.toDigits_ne_nil (List.map_eq_nil_iff.mp hnil)

/-- A number is written with its digits, behind a sign when it is negative. -/
theorem longText_eq (value : Int64) :
    longText value =
      if 0 ≤ value.toInt then natUnits value.toInt.toNat
      else codeUnit '-' :: natUnits (-value.toInt).toNat := by
  unfold longText codeUnits
  rw [Int.toString_eq_repr, Int.repr_eq_if]
  split
  next => rw [Nat.toList_repr, natUnits]
  next =>
    rw [String.toList_append, Nat.toList_repr, List.map_append, natUnits]
    rfl

/-- Every number is read back from its text. -/
theorem toLong_longText (value : Int64) : toLong (longText value) = some value := by
  have hlow := value.le_toInt
  have hhigh := value.toInt_lt
  rw [longText_eq]
  split
  next hpos =>
    have hfirst : ∀ c ∈ natUnits value.toInt.toNat, ¬ c < codeUnit '0' :=
      forall_mem_natUnits (by decide) _
    obtain ⟨first, rest, hunits⟩ :=
      List.exists_cons_of_ne_nil (natUnits_ne_nil value.toInt.toNat)
    rw [hunits] at hfirst
    have hbound : value.toInt.toNat < 2 ^ 63 := by omega
    rw [hunits, toLong, if_neg (hfirst first List.mem_cons_self), ← hunits, digits?_natUnits,
      Option.bind_some, if_pos hbound, Int.toNat_of_nonneg hpos, Int64.ofInt_toInt]
  next hneg =>
    have hsign : codeUnit '-' < codeUnit '0' := by decide
    have hbound : (-value.toInt).toNat ≤ 2 ^ 63 := by omega
    rw [toLong, if_pos hsign, if_pos rfl, if_neg (natUnits_ne_nil _), digits?_natUnits,
      Option.bind_some, if_pos hbound, Int.toNat_of_nonneg (by omega), Int.neg_neg,
      Int64.ofInt_toInt]

theorem forall_mem_longText {p : CodeUnit → Prop} (hsign : p (codeUnit '-'))
    (hdigit : ∀ d < 10, p (codeUnit d.digitChar)) (value : Int64) :
    ∀ c ∈ longText value, p c := by
  rw [longText_eq]
  split
  · exact forall_mem_natUnits hdigit _
  · exact List.forall_mem_cons.mpr ⟨hsign, forall_mem_natUnits hdigit _⟩

/-! ## Through a file

A text is written to a file in UTF-8, which has no place for a surrogate that stands alone.
-/

namespace CodeUnit

def isHighSurrogate (c : CodeUnit) : Bool := 0xD800 ≤ c && c ≤ 0xDBFF
def isLowSurrogate (c : CodeUnit) : Bool := 0xDC00 ≤ c && c ≤ 0xDFFF
def isSurrogate (c : CodeUnit) : Bool := c.isHighSurrogate || c.isLowSurrogate

/-- What a unit outside a pair is replaced by. -/
def encodable (c : CodeUnit) : CodeUnit := if c.isSurrogate then codeUnit '?' else c

end CodeUnit

/-- What is read of a text that was written. -/
def throughUtf8 : List CodeUnit → List CodeUnit
  | [] => []
  | [c] => [c.encodable]
  | c :: next :: rest =>
      if c.isHighSurrogate ∧ next.isLowSurrogate then c :: next :: throughUtf8 rest
      else c.encodable :: throughUtf8 (next :: rest)

theorem encodable_of_not_surrogate {c : CodeUnit} (hc : c.isSurrogate = false) :
    c.encodable = c := by
  simp [CodeUnit.encodable, hc]

theorem throughUtf8_cons_of_not_surrogate {c : CodeUnit} (hc : c.isSurrogate = false)
    (rest : List CodeUnit) : throughUtf8 (c :: rest) = c :: throughUtf8 rest := by
  have hhigh : c.isHighSurrogate = false := (Bool.or_eq_false_iff.mp hc).1
  cases rest with
  | nil => simp [throughUtf8, encodable_of_not_surrogate hc]
  | cons next rest => simp [throughUtf8, hhigh, encodable_of_not_surrogate hc]

/-- A unit that is no surrogate divides a text. -/
theorem throughUtf8_append_cons {c : CodeUnit} (hc : c.isSurrogate = false)
    (front back : List CodeUnit) :
    throughUtf8 (front ++ c :: back) = throughUtf8 front ++ c :: throughUtf8 back := by
  induction front using throughUtf8.induct with
  | case1 => exact throughUtf8_cons_of_not_surrogate hc back
  | case2 d =>
      have hlow : c.isLowSurrogate = false := (Bool.or_eq_false_iff.mp hc).2
      simp [throughUtf8, hlow, throughUtf8_cons_of_not_surrogate hc]
  | case3 d next rest hpair ih => simp [throughUtf8, hpair, ih]
  | case4 d next rest hpair ih =>
      rw [List.cons_append] at ih
      simp [throughUtf8, hpair, ih]

theorem throughUtf8_append {front : List CodeUnit}
    (hfront : ∀ c ∈ front, c.isSurrogate = false) (back : List CodeUnit) :
    throughUtf8 (front ++ back) = front ++ throughUtf8 back := by
  induction front with
  | nil => rfl
  | cons c front ih =>
      obtain ⟨hc, htail⟩ := List.forall_mem_cons.mp hfront
      rw [List.cons_append, throughUtf8_cons_of_not_surrogate hc, ih htail, List.cons_append]

/-- A text that UTF-8 keeps: its surrogates come in pairs. -/
def InUtf8 (text : List CodeUnit) : Prop := throughUtf8 text = text

theorem oneLine_throughUtf8 {text : List CodeUnit} (htext : OneLine text) :
    OneLine (throughUtf8 text) := by
  have hencodable : ∀ c : CodeUnit, c.isBreak = false → c.encodable.isBreak = false := by
    intro c hc
    unfold CodeUnit.encodable
    split
    · decide
    · exact hc
  induction text using throughUtf8.induct with
  | case1 => exact htext
  | case2 c =>
      rw [throughUtf8]
      exact List.forall_mem_singleton.mpr (hencodable c (htext c List.mem_cons_self))
  | case3 c next rest hpair ih =>
      obtain ⟨hc, hnext, hrest⟩ : c.isBreak = false ∧ next.isBreak = false ∧ OneLine rest := by
        simpa [OneLine, List.forall_mem_cons] using htext
      rw [throughUtf8, if_pos hpair]
      exact List.forall_mem_cons.mpr ⟨hc, List.forall_mem_cons.mpr ⟨hnext, ih hrest⟩⟩
  | case4 c next rest hpair ih =>
      obtain ⟨hc, hrest⟩ := List.forall_mem_cons.mp htext
      rw [throughUtf8, if_neg hpair]
      exact List.forall_mem_cons.mpr ⟨hencodable c hc, ih hrest⟩

/-! ## Encoding -/

def utf16Char (c : Char) : List CodeUnit :=
  if c.toNat < 0x10000 then [UInt16.ofNat c.toNat]
  else [UInt16.ofNat (0xD800 + (c.toNat - 0x10000) / 0x400),
    UInt16.ofNat (0xDC00 + (c.toNat - 0x10000) % 0x400)]

/-- The units of any text. -/
def utf16 (text : String) : List CodeUnit := text.toList.flatMap utf16Char

theorem CodeUnit.isHighSurrogate_iff {c : CodeUnit} :
    c.isHighSurrogate = true ↔ 0xD800 ≤ c.toNat ∧ c.toNat ≤ 0xDBFF := by
  simp only [isHighSurrogate, Bool.and_eq_true, decide_eq_true_eq]
  exact Iff.rfl

theorem CodeUnit.isLowSurrogate_iff {c : CodeUnit} :
    c.isLowSurrogate = true ↔ 0xDC00 ≤ c.toNat ∧ c.toNat ≤ 0xDFFF := by
  simp only [isLowSurrogate, Bool.and_eq_true, decide_eq_true_eq]
  exact Iff.rfl

theorem CodeUnit.isSurrogate_eq_false {c : CodeUnit}
    (hc : c.toNat < 0xD800 ∨ 0xDFFF < c.toNat) : c.isSurrogate = false := by
  unfold isSurrogate
  rw [Bool.or_eq_false_iff, Bool.eq_false_iff, Bool.eq_false_iff, ne_eq, ne_eq,
    isHighSurrogate_iff, isLowSurrogate_iff]
  omega

theorem throughUtf8_utf16Char (c : Char) (rest : List CodeUnit) :
    throughUtf8 (utf16Char c ++ rest) = utf16Char c ++ throughUtf8 rest := by
  have hvalid : c.toNat < 0xD800 ∨ 0xDFFF < c.toNat ∧ c.toNat < 0x110000 := c.valid
  have htoNat : ∀ n < 0x10000, (UInt16.ofNat n).toNat = n :=
    fun n hn => UInt16.toNat_ofNat_of_lt' hn
  unfold utf16Char
  split
  next hplane =>
    refine throughUtf8_cons_of_not_surrogate (CodeUnit.isSurrogate_eq_false ?_) rest
    rw [htoNat _ hplane]
    omega
  next hplane =>
    -- A character beyond the first plane is a pair.
    have hhigh : CodeUnit.isHighSurrogate
        (UInt16.ofNat (0xD800 + (c.toNat - 0x10000) / 0x400)) = true := by
      rw [CodeUnit.isHighSurrogate_iff, htoNat _ (by omega)]
      omega
    have hlow : CodeUnit.isLowSurrogate
        (UInt16.ofNat (0xDC00 + (c.toNat - 0x10000) % 0x400)) = true := by
      rw [CodeUnit.isLowSurrogate_iff, htoNat _ (by omega)]
      omega
    simp only [List.cons_append, List.nil_append, throughUtf8, hhigh, hlow, and_self, if_true]

theorem inUtf8_utf16 (text : String) : InUtf8 (utf16 text) := by
  unfold InUtf8 utf16
  induction text.toList with
  | nil => rfl
  | cons c rest ih => rw [List.flatMap_cons, throughUtf8_utf16Char, ih]

end Text
