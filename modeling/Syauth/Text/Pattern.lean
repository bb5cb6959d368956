import Syauth.Text.Lines

/-! # Patterns of character classes

The fragment of regular expressions without alternatives, groups and counts: a
sequence of single characters of a class, of runs of a class of any length, and of
assertions about the two characters around a position.  Matching tries every length
of every run, so that whether there is a match does not depend on the order of the
attempts.
-/

namespace Text

universe u

/-- One part of a pattern. -/
inductive Item (α : Type u) where
  | one (p : α → Bool)
  | many (p : α → Bool)
  /-- A look at the characters before and behind a position, if there are any. -/
  | look (p : Option α → Option α → Bool)

abbrev Pattern (α : Type u) : Type u := List (Item α)

variable {α : Type u}

/-- `p+`. -/
def some1 (p : α → Bool) : Pattern α := [.one p, .many p]

def literal [DecidableEq α] (word : List α) : Pattern α := word.map fun c => .one (· == c)

/-- A run of the class and what is demanded behind it. -/
def manyThen (p : α → Bool) (behind : Option α → List α → Bool) : Option α → List α → Bool
  | prev, [] => behind prev []
  | prev, c :: rest => behind prev (c :: rest) || (p c && manyThen p behind (some c) rest)

/-- The pattern matches a beginning of the text, which comes after the character `prev`. -/
def matchesAt : Pattern α → Option α → List α → Bool
  | [], _, _ => true
  | .one _ :: _, _, [] => false
  | .one p :: items, _, c :: rest => p c && matchesAt items (some c) rest
  | .many p :: items, prev, text =>
      manyThen p (fun prev rest => matchesAt items prev rest) prev text
  | .look p :: items, prev, text => p prev text.head? && matchesAt items prev text

/-- The pattern matches somewhere in the text. -/
def search (items : Pattern α) : Option α → List α → Bool
  | prev, [] => matchesAt items prev []
  | prev, c :: rest => matchesAt items prev (c :: rest) || search items (some c) rest

def isMatch (items : Pattern α) (text : List α) : Bool := search items none text

/-! ## What a match is -/

variable {items : Pattern α} {p : α → Bool} {prev : Option α} {text : List α}

theorem getLast?_cons_or (c : α) (run : List α) (prev : Option α) :
    (c :: run).getLast?.or prev = run.getLast?.or (some c) := by
  rw [List.getLast?_cons, Option.or_some, Option.some_or]

theorem manyThen_iff {behind : Option α → List α → Bool} :
    manyThen p behind prev text = true ↔
      ∃ run rest, text = run ++ rest ∧ (∀ c ∈ run, p c = true) ∧
        behind (run.getLast?.or prev) rest = true := by
  induction text generalizing prev with
  | nil =>
      constructor
      · intro hbehind
        exact ⟨[], [], rfl, by simp, hbehind⟩
      · rintro ⟨run, rest, hsplit, -, hbehind⟩
        obtain ⟨rfl, rfl⟩ := List.append_eq_nil_iff.mp hsplit.symm
        exact hbehind
  | cons c text ih =>
      rw [manyThen, Bool.or_eq_true, Bool.and_eq_true, ih]
      constructor
      · rintro (hbehind | ⟨hc, run, rest, rfl, hrun, hbehind⟩)
        · exact ⟨[], c :: text, rfl, by simp, hbehind⟩
        · refine ⟨c :: run, rest, rfl, List.forall_mem_cons.mpr ⟨hc, hrun⟩, ?_⟩
          rw [getLast?_cons_or]
          exact hbehind
      · rintro ⟨run, rest, hsplit, hrun, hbehind⟩
        cases run with
        | nil =>
            rw [List.nil_append] at hsplit
            subst hsplit
            exact .inl hbehind
        | cons d run =>
            obtain ⟨rfl, rfl⟩ := List.cons.inj hsplit
            obtain ⟨hc, hrun⟩ := List.forall_mem_cons.mp hrun
            rw [getLast?_cons_or] at hbehind
            exact .inr ⟨hc, run, rest, rfl, hrun, hbehind⟩

theorem matchesAt_one :
    matchesAt (.one p :: items) prev text = true ↔
      ∃ c rest, text = c :: rest ∧ p c = true ∧ matchesAt items (some c) rest = true := by
  cases text with
  | nil => simp [matchesAt]
  | cons c text => simp [matchesAt]

theorem matchesAt_many :
    matchesAt (.many p :: items) prev text = true ↔
      ∃ run rest, text = run ++ rest ∧ (∀ c ∈ run, p c = true) ∧
        matchesAt items (run.getLast?.or prev) rest = true := by
  rw [matchesAt]
  exact manyThen_iff

theorem matchesAt_look {look : Option α → Option α → Bool} :
    matchesAt (.look look :: items) prev text = true ↔
      look prev text.head? = true ∧ matchesAt items prev text = true := by
  rw [matchesAt, Bool.and_eq_true]

theorem matchesAt_some1 :
    matchesAt (some1 p ++ items) prev text = true ↔
      ∃ run rest, text = run ++ rest ∧ run ≠ [] ∧ (∀ c ∈ run, p c = true) ∧
        matchesAt items run.getLast? rest = true := by
  rw [some1, List.cons_append, matchesAt_one]
  simp only [List.cons_append, List.nil_append, matchesAt_many]
  constructor
  · rintro ⟨c, _, rfl, hc, run, rest, rfl, hrun, hbehind⟩
    refine ⟨c :: run, rest, rfl, List.cons_ne_nil c run, List.forall_mem_cons.mpr ⟨hc, hrun⟩, ?_⟩
    rw [List.getLast?_cons, ← Option.or_some]
    exact hbehind
  · rintro ⟨run, rest, rfl, hne, hrun, hbehind⟩
    cases run with
    | nil => exact absurd rfl hne
    | cons c run =>
        obtain ⟨hc, hrun⟩ := List.forall_mem_cons.mp hrun
        rw [List.getLast?_cons, ← Option.or_some] at hbehind
        exact ⟨c, run ++ rest, rfl, hc, run, rest, rfl, hrun, hbehind⟩

theorem matchesAt_literal [DecidableEq α] {word : List α} :
    matchesAt (literal word ++ items) prev text = true ↔
      ∃ rest, text = word ++ rest ∧ matchesAt items (word.getLast?.or prev) rest = true := by
  induction word generalizing prev text with
  | nil => simp [literal]
  | cons c word ih =>
      change matchesAt (.one (· == c) :: (literal word ++ items)) prev text = true ↔ _
      rw [matchesAt_one, getLast?_cons_or]
      constructor
      · rintro ⟨d, _, rfl, hd, hrest⟩
        obtain rfl := eq_of_beq hd
        obtain ⟨rest, rfl, hbehind⟩ := ih.mp hrest
        exact ⟨rest, rfl, hbehind⟩
      · rintro ⟨rest, rfl, hbehind⟩
        exact ⟨c, word ++ rest, rfl, beq_self_eq_true c, ih.mpr ⟨rest, rfl, hbehind⟩⟩

theorem search_iff :
    search items prev text = true ↔
      ∃ front back, text = front ++ back ∧
        matchesAt items (front.getLast?.or prev) back = true := by
  induction text generalizing prev with
  | nil =>
      constructor
      · intro hmatch
        exact ⟨[], [], rfl, hmatch⟩
      · rintro ⟨front, back, hsplit, hmatch⟩
        obtain ⟨rfl, rfl⟩ := List.append_eq_nil_iff.mp hsplit.symm
        exact hmatch
  | cons c text ih =>
      rw [search, Bool.or_eq_true, ih]
      constructor
      · rintro (hmatch | ⟨front, back, rfl, hmatch⟩)
        · exact ⟨[], c :: text, rfl, hmatch⟩
        · refine ⟨c :: front, back, rfl, ?_⟩
          rw [getLast?_cons_or]
          exact hmatch
      · rintro ⟨front, back, hsplit, hmatch⟩
        cases front with
        | nil =>
            rw [List.nil_append] at hsplit
            subst hsplit
            exact .inl hmatch
        | cons d front =>
            obtain ⟨rfl, rfl⟩ := List.cons.inj hsplit
            rw [getLast?_cons_or] at hmatch
            exact .inr ⟨front, back, rfl, hmatch⟩

theorem isMatch_iff :
    isMatch items text = true ↔
      ∃ front back, text = front ++ back ∧ matchesAt items front.getLast? back = true := by
  rw [isMatch, search_iff]
  simp only [Option.or_none]

/-! ## Assertions about characters -/

/-- `^` in multi-line mode. -/
def lineStart (prev _next : Option Char) : Bool := prev == none || prev == some '\n'

/-- `\w`: in the ASCII range letters, digits and the underscore, beyond it what the Unicode
tables say, and never white space. -/
def isWordChar (unicodeWord : Char → Bool) (c : Char) : Bool :=
  if c.toNat < 128 then c.isAlphanum || c == '_' else !isWhitespace c && unicodeWord c

/-- `\b`. -/
def wordBoundary (unicodeWord : Char → Bool) (prev next : Option Char) : Bool :=
  prev.any (isWordChar unicodeWord) != next.any (isWordChar unicodeWord)

theorem isWordChar_of_isWhitespace {unicodeWord : Char → Bool} {c : Char}
    (hspace : isWhitespace c = true) : isWordChar unicodeWord c = false := by
  unfold isWordChar
  split
  · next hascii =>
      have hcode : (9 ≤ c.toNat ∧ c.toNat ≤ 13) ∨ c.toNat = 32 := by
        simp only [isWhitespace, Bool.or_eq_true, Bool.and_eq_true, decide_eq_true_eq,
          beq_iff_eq] at hspace
        omega
      have hlist : c.toNat ∈ [9, 10, 11, 12, 13, 32] := by
        simp only [List.mem_cons, List.not_mem_nil, or_false]
        omega
      have hnone : ∀ n ∈ [9, 10, 11, 12, 13, 32],
          ((Char.ofNat n).isAlphanum || Char.ofNat n == '_') = false := by decide
      rw [← Char.ofNat_toNat c]
      exact hnone c.toNat hlist
  · rw [hspace]
    rfl

end Text
