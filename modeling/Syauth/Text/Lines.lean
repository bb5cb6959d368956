import Mathlib.Data.List.DropRight

/-! # Lines and words

The splittings of text that programs use: pieces up to and including a terminator,
lines without their endings, and words between runs of separators.
-/

namespace Text

universe u

/-! ## Pieces with their terminator -/

section Pieces

variable {α : Type u} [DecidableEq α] {delim : α} {piece rest : List α}

/-- Pieces that end with the delimiter, and what is left behind the last one. -/
def splitInclusive (delim : α) : List α → List (List α)
  | [] => []
  | c :: rest =>
      if c = delim then [c] :: splitInclusive delim rest
      else
        match splitInclusive delim rest with
        | [] => [[c]]
        | piece :: pieces => (c :: piece) :: pieces

@[simp]
theorem splitInclusive_nil : splitInclusive delim [] = [] := rfl

/-- Nothing of the text is lost. -/
theorem flatten_splitInclusive (text : List α) : (splitInclusive delim text).flatten = text := by
  induction text with
  | nil => rfl
  | cons c rest ih =>
      rw [splitInclusive]
      split
      · rw [List.flatten_cons, ih]
        rfl
      · split
        · next hnil =>
            rw [hnil] at ih
            simpa using ih
        · next head pieces hpieces =>
            rw [hpieces, List.flatten_cons] at ih
            rw [List.flatten_cons, List.cons_append, ih]

theorem splitInclusive_append_cons (hfree : delim ∉ piece) (rest : List α) :
    splitInclusive delim (piece ++ delim :: rest) =
      (piece ++ [delim]) :: splitInclusive delim rest := by
  induction piece with
  | nil => simp [splitInclusive]
  | cons c piece ih =>
      have hc : c ≠ delim := fun heq => hfree (heq ▸ List.mem_cons_self)
      have hpiece : delim ∉ piece := fun hmem => hfree (List.mem_cons_of_mem c hmem)
      rw [List.cons_append, splitInclusive, if_neg hc, ih hpiece]
      rfl

theorem splitInclusive_of_notMem (hfree : delim ∉ piece) (hne : piece ≠ []) :
    splitInclusive delim piece = [piece] := by
  induction piece with
  | nil => exact absurd rfl hne
  | cons c piece ih =>
      have hc : c ≠ delim := fun heq => hfree (heq ▸ List.mem_cons_self)
      have hpiece : delim ∉ piece := fun hmem => hfree (List.mem_cons_of_mem c hmem)
      rw [splitInclusive, if_neg hc]
      cases piece with
      | nil => rfl
      | cons d piece => rw [ih hpiece (List.cons_ne_nil d piece)]

/-- Text that ends with the delimiter is split on its own. -/
theorem splitInclusive_append (text rest : List α) :
    splitInclusive delim (text ++ delim :: rest) =
      splitInclusive delim (text ++ [delim]) ++ splitInclusive delim rest := by
  induction text with
  | nil => simp [splitInclusive]
  | cons c text ih =>
      simp only [List.cons_append, splitInclusive]
      split
      · rw [ih, List.cons_append]
      · rw [ih]
        cases hpieces : splitInclusive delim (text ++ [delim]) with
        | nil =>
            -- the pieces of a text that is not empty are not none
            have hflat : (splitInclusive delim (text ++ [delim])).flatten = text ++ [delim] :=
              flatten_splitInclusive _
            rw [hpieces] at hflat
            simp at hflat
        | cons head pieces => rfl

/-- A piece with the delimiter at its end and nowhere else. -/
def IsTerminated (delim : α) (piece : List α) : Prop :=
  ∃ body, delim ∉ body ∧ piece = body ++ [delim]

/-- Terminated pieces are given back, whatever comes after them. -/
theorem splitInclusive_flatten_append {pieces : List (List α)}
    (hpieces : ∀ piece ∈ pieces, IsTerminated delim piece) (rest : List α) :
    splitInclusive delim (pieces.flatten ++ rest) = pieces ++ splitInclusive delim rest := by
  induction pieces with
  | nil => rfl
  | cons piece pieces ih =>
      obtain ⟨⟨body, hfree, rfl⟩, hrest⟩ := List.forall_mem_cons.mp hpieces
      rw [List.flatten_cons, List.append_assoc, List.append_assoc, List.singleton_append,
        splitInclusive_append_cons hfree, ih hrest, List.cons_append]

/-- Only the last piece can lack its delimiter. -/
theorem isTerminated_of_splitInclusive {text : List α} {front back : List (List α)}
    (hsplit : splitInclusive delim text = front ++ back) (hback : back ≠ []) :
    ∀ piece ∈ front, IsTerminated delim piece := by
  induction front generalizing text with
  | nil => simp
  | cons head front ih =>
      by_cases hmem : delim ∈ text
      · obtain ⟨body, rest, rfl, hfree⟩ := List.eq_append_cons_of_mem hmem
        rw [splitInclusive_append_cons hfree, List.cons_append] at hsplit
        obtain ⟨rfl, hrest⟩ := List.cons.inj hsplit
        exact List.forall_mem_cons.mpr ⟨⟨body, hfree, rfl⟩, ih hrest⟩
      · -- text without the delimiter is at most one piece
        have hlength : (splitInclusive delim text).length ≤ 1 := by
          by_cases hnil : text = []
          · rw [hnil]
            exact Nat.zero_le 1
          · rw [splitInclusive_of_notMem hmem hnil]
            exact Nat.le_refl 1
        rw [hsplit, List.length_append, List.length_cons] at hlength
        have hpos := List.length_pos_iff.mpr hback
        omega

/-- A text is cut between two of its pieces. -/
theorem splitInclusive_of_append {text : List α} {front back : List (List α)}
    (hsplit : splitInclusive delim text = front ++ back) (hback : back ≠ []) :
    splitInclusive delim back.flatten = back := by
  have htext : text = front.flatten ++ back.flatten := by
    rw [← List.flatten_append, ← hsplit, flatten_splitInclusive]
  rw [htext, splitInclusive_flatten_append (isTerminated_of_splitInclusive hsplit hback)] at hsplit
  exact List.append_cancel_left hsplit

end Pieces

/-! ## Parts of a text -/

section Parts

variable {α : Type u} [DecidableEq α]

def contains (needle : List α) : List α → Bool
  | [] => needle.isEmpty
  | c :: rest => needle.isPrefixOf (c :: rest) || contains needle rest

theorem contains_iff {needle text : List α} : contains needle text = true ↔ needle <:+: text := by
  induction text with
  | nil => simp [contains]
  | cons c rest ih =>
      rw [contains, Bool.or_eq_true, ih, List.isPrefixOf_iff_prefix, List.infix_cons_iff]

end Parts

/-- What does not contain a character is on one side of it. -/
theorem isInfix_append_cons {α : Type u} {needle front back : List α} {c : α} (hfree : c ∉ needle)
    (hinside : needle <:+: front ++ c :: back) : needle <:+: front ∨ needle <:+: back := by
  obtain ⟨before, after, hsplit⟩ := hinside
  rw [List.append_assoc, List.append_eq_append_iff] at hsplit
  rcases hsplit with ⟨rest, rfl, hneedle⟩ | ⟨rest, rfl, hback⟩
  · rcases List.append_eq_append_iff.mp hneedle with ⟨gap, rfl, hafter⟩ | ⟨gap, rfl, hcut⟩
    · exact .inl ⟨before, gap, by rw [List.append_assoc]⟩
    · cases gap with
      | nil => exact .inl ⟨before, [], by simp⟩
      | cons d gap =>
          obtain ⟨rfl, -⟩ := List.cons.inj hcut
          simp at hfree
  · cases rest with
    | nil =>
        rw [List.nil_append] at hback
        cases needle with
        | nil => exact .inr (List.nil_infix)
        | cons d needle =>
            obtain ⟨rfl, -⟩ := List.cons.inj hback
            simp at hfree
    | cons d rest =>
        obtain ⟨-, hrest⟩ := List.cons.inj hback
        exact .inr ⟨rest, after, by rw [hrest, List.append_assoc]; rfl⟩

/-- What is so of every element is decided along the list, not over the type. -/
theorem forall_mem_of_all {α : Type u} {p : α → Prop} [DecidablePred p] {text : List α}
    (hall : (text.all fun c => decide (p c)) = true) : ∀ c ∈ text, p c := by
  simpa using hall

/-! ## White space -/

/-- The Unicode property `White_Space`. -/
def isWhitespace (c : Char) : Bool :=
  (0x9 ≤ c.toNat && c.toNat ≤ 0xD) || c.toNat == 0x20 || c.toNat == 0x85 || c.toNat == 0xA0 ||
    c.toNat == 0x1680 || (0x2000 ≤ c.toNat && c.toNat ≤ 0x200A) || c.toNat == 0x2028 ||
    c.toNat == 0x2029 || c.toNat == 0x202F || c.toNat == 0x205F || c.toNat == 0x3000

/-- Without the vertical tab, as the WHATWG standard has it. -/
def isAsciiWhitespace (c : Char) : Bool :=
  c == '\t' || c == '\n' || c == '\x0c' || c == '\r' || c == ' '

/-! ## Lines -/

/-- A line without its ending, a newline with or without a carriage return before it. -/
def stripEol (piece : List Char) : List Char :=
  if piece.getLast? = some '\n' then
    if piece.dropLast.getLast? = some '\r' then piece.dropLast.dropLast else piece.dropLast
  else piece

def lines (text : List Char) : List (List Char) := (splitInclusive '\n' text).map stripEol

@[simp]
theorem lines_nil : lines [] = [] := rfl

theorem lines_append (text rest : List Char) :
    lines (text ++ '\n' :: rest) = lines (text ++ ['\n']) ++ lines rest := by
  rw [lines, splitInclusive_append, List.map_append]
  rfl

/-! ## Rows -/

/-- A piece without its newline. -/
def chomp (piece : List Char) : List Char :=
  if piece.getLast? = some '\n' then piece.dropLast else piece

/-- The text between newlines. -/
def rows (text : List Char) : List (List Char) := (splitInclusive '\n' text).map chomp

section Words

variable {α : Type u} {isSep : α → Bool} {word text : List α}

/-- The runs without separators. -/
def wordsBy (isSep : α → Bool) (text : List α) : List (List α) :=
  (text.splitOnP isSep).filter fun word => !word.isEmpty

@[simp]
theorem wordsBy_nil : wordsBy isSep [] = [] := rfl

theorem wordsBy_append_cons (text rest : List α) {sep : α} (hsep : isSep sep = true) :
    wordsBy isSep (text ++ sep :: rest) = wordsBy isSep text ++ wordsBy isSep rest := by
  rw [wordsBy, List.splitOnP_append_cons text rest hsep, List.filter_append]
  rfl

theorem wordsBy_cons_sep (rest : List α) {sep : α} (hsep : isSep sep = true) :
    wordsBy isSep (sep :: rest) = wordsBy isSep rest :=
  wordsBy_append_cons [] rest hsep

theorem wordsBy_of_word (hword : ∀ c ∈ word, isSep c = false) (hne : word ≠ []) :
    wordsBy isSep word = [word] := by
  rw [wordsBy, List.splitOnP_eq_singleton hword]
  simp [hne]

theorem wordsBy_of_seps {seps : List α} (hseps : ∀ c ∈ seps, isSep c = true) :
    wordsBy isSep seps = [] := by
  induction seps with
  | nil => rfl
  | cons sep seps ih =>
      obtain ⟨hsep, hrest⟩ := List.forall_mem_cons.mp hseps
      rw [wordsBy_cons_sep seps hsep, ih hrest]

/-- Separators at the end are no part of any word. -/
theorem wordsBy_append_seps (text : List α) {seps : List α} (hseps : ∀ c ∈ seps, isSep c = true) :
    wordsBy isSep (text ++ seps) = wordsBy isSep text := by
  cases seps with
  | nil => rw [List.append_nil]
  | cons sep seps =>
      obtain ⟨hsep, hrest⟩ := List.forall_mem_cons.mp hseps
      rw [wordsBy_append_cons text seps hsep, wordsBy_of_seps hrest, List.append_nil]

theorem wordsBy_seps_append {seps : List α} (hseps : ∀ c ∈ seps, isSep c = true) (text : List α) :
    wordsBy isSep (seps ++ text) = wordsBy isSep text := by
  induction seps with
  | nil => rfl
  | cons sep seps ih =>
      obtain ⟨hsep, hrest⟩ := List.forall_mem_cons.mp hseps
      rw [List.cons_append, wordsBy_cons_sep _ hsep, ih hrest]

/-- A word is complete where the text ends or goes on with a separator. -/
theorem wordsBy_word_append (hword : ∀ c ∈ word, isSep c = false) (hne : word ≠ [])
    {rest : List α} (hrest : ∀ c ∈ rest.head?, isSep c = true) :
    wordsBy isSep (word ++ rest) = word :: wordsBy isSep rest := by
  cases rest with
  | nil => rw [List.append_nil, wordsBy_of_word hword hne, wordsBy_nil]
  | cons sep rest =>
      have hsep : isSep sep = true := hrest sep rfl
      rw [wordsBy_append_cons word rest hsep, wordsBy_of_word hword hne, wordsBy_cons_sep rest hsep,
        List.singleton_append]

theorem wordsBy_eq_nil_iff : wordsBy isSep text = [] ↔ ∀ c ∈ text, isSep c = true := by
  constructor
  · intro hnone
    induction text with
    | nil => simp
    | cons c text ih =>
        cases hc : isSep c with
        | true =>
            rw [wordsBy_cons_sep text hc] at hnone
            exact List.forall_mem_cons.mpr ⟨hc, ih hnone⟩
        | false =>
            -- a word begins here
            have hword : ∀ d ∈ c :: text.takeWhile (fun d => !isSep d), isSep d = false := by
              refine List.forall_mem_cons.mpr ⟨hc, fun d hmem => ?_⟩
              simpa using List.mem_takeWhile_imp hmem
            have hrest : ∀ d ∈ (text.dropWhile fun d => !isSep d).head?, isSep d = true := by
              intro d hd
              have hhead := List.head?_dropWhile_not (fun d => !isSep d) text
              rw [Option.mem_def.mp hd] at hhead
              simpa using hhead
            have hcons := wordsBy_word_append hword (List.cons_ne_nil _ _) hrest
            rw [List.cons_append, List.takeWhile_append_dropWhile, hnone] at hcons
            cases hcons
  · exact wordsBy_of_seps

theorem wordsBy_append_seps_append (text : List α) {seps : List α}
    (hseps : ∀ c ∈ seps, isSep c = true) (hgap : seps ≠ []) (rest : List α) :
    wordsBy isSep (text ++ (seps ++ rest)) = wordsBy isSep text ++ wordsBy isSep rest := by
  cases seps with
  | nil => exact absurd rfl hgap
  | cons sep seps =>
      obtain ⟨hsep, hrest⟩ := List.forall_mem_cons.mp hseps
      rw [List.cons_append, wordsBy_append_cons text _ hsep, wordsBy_seps_append hrest]

theorem wordsBy_word_seps_append (hword : ∀ c ∈ word, isSep c = false) (hne : word ≠ [])
    {seps : List α} (hseps : ∀ c ∈ seps, isSep c = true) (hgap : seps ≠ []) (rest : List α) :
    wordsBy isSep (word ++ (seps ++ rest)) = word :: wordsBy isSep rest := by
  rw [wordsBy_append_seps_append word hseps hgap, wordsBy_of_word hword hne, List.singleton_append]

/-- Where the first word stands. -/
theorem wordsBy_eq_cons_iff {words : List (List α)} :
    wordsBy isSep text = word :: words ↔
      ∃ seps rest, text = seps ++ (word ++ rest) ∧ (∀ c ∈ seps, isSep c = true) ∧
        (∀ c ∈ word, isSep c = false) ∧ word ≠ [] ∧ (∀ c ∈ rest.head?, isSep c = true) ∧
        wordsBy isSep rest = words := by
  constructor
  · intro hwords
    let seps := text.takeWhile isSep
    let tail := text.dropWhile isSep
    let first := tail.takeWhile fun c => !isSep c
    let rest := tail.dropWhile fun c => !isSep c
    have htext : text = seps ++ (first ++ rest) := by
      rw [List.takeWhile_append_dropWhile, List.takeWhile_append_dropWhile]
    have hseps : ∀ c ∈ seps, isSep c = true := fun c hmem => List.mem_takeWhile_imp hmem
    have hfirst : ∀ c ∈ first, isSep c = false := by
      intro c hmem
      simpa using List.mem_takeWhile_imp hmem
    have hrest : ∀ c ∈ rest.head?, isSep c = true := by
      intro c hc
      have hhead := List.head?_dropWhile_not (fun c => !isSep c) tail
      rw [Option.mem_def.mp hc] at hhead
      simpa using hhead
    have hne : first ≠ [] := by
      cases htail : tail with
      | nil =>
          rw [wordsBy_of_seps (List.dropWhile_eq_nil_iff.mp htail)] at hwords
          cases hwords
      | cons c more =>
          have hhead := List.head?_dropWhile_not isSep text
          rw [show text.dropWhile isSep = c :: more from htail] at hhead
          have hc : isSep c = false := by simpa using hhead
          simp [first, htail, hc]
    have hall := wordsBy_seps_append hseps (first ++ rest)
    rw [← htext, hwords, wordsBy_word_append hfirst hne hrest] at hall
    obtain ⟨rfl, rfl⟩ := List.cons.inj hall
    exact ⟨seps, rest, htext, hseps, hfirst, hne, hrest, rfl⟩
  · rintro ⟨seps, rest, rfl, hseps, hword, hne, hrest, rfl⟩
    rw [wordsBy_seps_append hseps, wordsBy_word_append hword hne hrest]

/-- Where two words follow each other, separators stand between them. -/
theorem seps_ne_nil {seps rest : List α} (hword : ∀ c ∈ word, isSep c = false) (hne : word ≠ [])
    (hhead : ∀ c ∈ (seps ++ (word ++ rest)).head?, isSep c = true) : seps ≠ [] := by
  rintro rfl
  cases word with
  | nil => exact hne rfl
  | cons c word =>
      have hsep := hhead c rfl
      rw [hword c List.mem_cons_self] at hsep
      cases hsep

/-- A word is a part of the text. -/
theorem isInfix_of_mem_wordsBy (hword : word ∈ wordsBy isSep text) : word <:+: text := by
  generalize hwords : wordsBy isSep text = words at hword
  induction words generalizing text with
  | nil => cases hword
  | cons first words ih =>
      obtain ⟨seps, rest, rfl, -, -, -, -, hrest⟩ := wordsBy_eq_cons_iff.mp hwords
      rcases List.mem_cons.mp hword with rfl | hlater
      · exact ⟨seps, rest, by rw [List.append_assoc]⟩
      · have hinside := ih hrest hlater
        have hsuffix := (List.suffix_append first rest).trans (List.suffix_append seps _)
        exact hinside.trans hsuffix.isInfix

end Words

end Text
