import Syauth.Text.CodeUnits

/-! # The lines of a text file

A file that is written in UTF-8 and read line by line.  Texts that end with a line feed can be
appended to one another, and a file keeps the lines that it gives back.
-/

namespace Text

/-- `readLines`: behind the last line break there is no line. -/
def readLines (text : List CodeUnit) : List (List CodeUnit) :=
  let lines := lineSequence text
  if lines.getLast? = some [] then lines.dropLast else lines

/-- A text whose last line, if there is one, is ended by a line feed. -/
def Ended (text : List CodeUnit) : Prop := ∀ c ∈ text.getLast?, c = CodeUnit.lineFeed

theorem ended_nil : Ended [] := fun _ hc => (nomatch hc)

theorem ended_concat (front : List CodeUnit) : Ended (front ++ [CodeUnit.lineFeed]) := by
  intro c hc
  rw [List.getLast?_concat] at hc
  exact (Option.some.inj hc).symm

theorem Ended.cases {text : List CodeUnit} (hended : Ended text) :
    text = [] ∨ ∃ front, text = front ++ [CodeUnit.lineFeed] := by
  rcases List.eq_nil_or_concat' text with rfl | ⟨front, last, rfl⟩
  · exact .inl rfl
  · have hlast : last = CodeUnit.lineFeed := hended last List.getLast?_concat
    exact .inr ⟨front, by rw [hlast]⟩

theorem Ended.append {front back : List CodeUnit} (hfront : Ended front) (hback : Ended back) :
    Ended (front ++ back) := by
  rcases hback.cases with rfl | ⟨init, rfl⟩
  · rwa [List.append_nil]
  · rw [← List.append_assoc]
    exact ended_concat _

/-- The lines up to a line feed do not depend on what is behind it. -/
theorem exists_lineSequence_append (front : List CodeUnit) :
    ∃ first others, ∀ back, lineSequence (front ++ CodeUnit.lineFeed :: back) =
      first :: (others ++ lineSequence back) := by
  have hfeed : CodeUnit.lineFeed ≠ CodeUnit.carriageReturn := by decide
  induction front using lineSequence.induct with
  | case1 =>
      refine ⟨[], [], ?_⟩
      intro back
      exact lineSequence_lineFeed_cons back
  | case2 c hbreak =>
      by_cases hreturn : c = CodeUnit.carriageReturn
      · refine ⟨[], [], ?_⟩
        intro back
        simp [lineSequence, hreturn]
      · refine ⟨[], [[]], ?_⟩
        intro back
        simp [lineSequence, hreturn, hbreak, lineSequence_lineFeed_cons]
  | case3 c hbreak =>
      refine ⟨[c], [], ?_⟩
      intro back
      rw [List.singleton_append, lineSequence_cons_of_not_break (Bool.eq_false_iff.mpr hbreak),
        lineSequence_lineFeed_cons]
      rfl
  | case4 c next rest hpair ih =>
      obtain ⟨first, others, hlines⟩ := ih
      refine ⟨[], first :: others, ?_⟩
      intro back
      rw [List.cons_append, List.cons_append, lineSequence, if_pos hpair, hlines]
      rfl
  | case5 c next rest hpair hbreak ih =>
      obtain ⟨first, others, hlines⟩ := ih
      refine ⟨[], first :: others, ?_⟩
      intro back
      rw [List.cons_append, List.cons_append, lineSequence, if_neg hpair, if_pos hbreak,
        ← List.cons_append, hlines]
      rfl
  | case6 c next rest hpair hbreak ih =>
      obtain ⟨first, others, hlines⟩ := ih
      refine ⟨c :: first, others, ?_⟩
      intro back
      rw [List.cons_append, lineSequence_cons_of_not_break (Bool.eq_false_iff.mpr hbreak), hlines]
      rfl

theorem readLines_eq (lines : List (List CodeUnit)) {text back : List CodeUnit}
    (htext : lineSequence text = lines ++ lineSequence back) :
    readLines text = lines ++ readLines back := by
  obtain ⟨init, last, hback⟩ : ∃ init last, lineSequence back = init ++ [last] := by
    rcases List.eq_nil_or_concat' (lineSequence back) with hnil | ⟨init, last, hconcat⟩
    · exact absurd hnil (lineSequence_ne_nil back)
    · exact ⟨init, last, hconcat⟩
  unfold readLines
  simp only [htext, hback, ← List.append_assoc, List.getLast?_concat, List.dropLast_concat]
  split <;> simp only [List.append_assoc]

/-- Appended lines come behind those of the file. -/
theorem readLines_append {front : List CodeUnit} (hended : Ended front) (back : List CodeUnit) :
    readLines (front ++ back) = readLines front ++ readLines back := by
  rcases hended.cases with rfl | ⟨init, rfl⟩
  · rfl
  · obtain ⟨first, others, hlines⟩ := exists_lineSequence_append init
    have hfront : readLines (init ++ [CodeUnit.lineFeed]) = (first :: others) ++ readLines [] :=
      readLines_eq (first :: others) (hlines [])
    have hwhole : readLines (init ++ CodeUnit.lineFeed :: back) =
        (first :: others) ++ readLines back := readLines_eq (first :: others) (hlines back)
    rw [hfront, List.append_assoc, List.singleton_append, hwhole]
    simp [readLines, lineSequence]

theorem readLines_terminated {lines : List (List CodeUnit)}
    (hlines : ∀ line ∈ lines, OneLine line) :
    readLines (terminated CodeUnit.lineFeed lines) = lines := by
  have heq : lineSequence (terminated CodeUnit.lineFeed lines) = lines ++ lineSequence [] :=
    lineSequence_terminated hlines
  rw [readLines_eq lines heq]
  exact List.append_nil lines

theorem mem_lineSequence_of_mem_readLines {text line : List CodeUnit}
    (hline : line ∈ readLines text) : line ∈ lineSequence text := by
  unfold readLines at hline
  simp only at hline
  split at hline
  · exact List.dropLast_subset _ hline
  · exact hline

theorem oneLine_of_mem_readLines {text line : List CodeUnit} (hline : line ∈ readLines text) :
    OneLine line :=
  oneLine_of_mem_lineSequence (mem_lineSequence_of_mem_readLines hline)

/-! ## Through UTF-8 -/

theorem isBreak_encodable (c : CodeUnit) : c.encodable.isBreak = c.isBreak := by
  unfold CodeUnit.encodable
  split
  next hsurrogate =>
    have hbreak : c.isBreak = false := by
      apply Bool.eq_false_iff.mpr
      intro hbreak
      rcases of_decide_eq_true hbreak with rfl | rfl <;> cases hsurrogate
    rw [hbreak]
    decide
  next => rfl

theorem encodable_of_isBreak {c : CodeUnit} (hbreak : c.isBreak = true) : c.encodable = c := by
  rcases of_decide_eq_true hbreak with rfl | rfl <;> decide

/-- A pair of surrogates, or a single unit, is what is written first. -/
theorem throughUtf8_cons {c : CodeUnit} {rest : List CodeUnit}
    (hpair : ∀ next ∈ rest.head?, ¬ (c.isHighSurrogate = true ∧ next.isLowSurrogate = true)) :
    throughUtf8 (c :: rest) = c.encodable :: throughUtf8 rest := by
  cases rest with
  | nil => rfl
  | cons next rest => rw [throughUtf8, if_neg (hpair next rfl)]

theorem isBreak_of_isSurrogate {c : CodeUnit} (hc : c.isSurrogate = true) : c.isBreak = false := by
  apply Bool.eq_false_iff.mpr
  intro hbreak
  rcases of_decide_eq_true hbreak with rfl | rfl <;> cases hc

/-- Writing does not turn anything into a line feed. -/
theorem lineFeed_of_head?_throughUtf8 {text : List CodeUnit}
    (hhead : (throughUtf8 text).head? = some CodeUnit.lineFeed) :
    text.head? = some CodeUnit.lineFeed := by
  have hencodable : ∀ {c : CodeUnit}, c.encodable = CodeUnit.lineFeed → c = CodeUnit.lineFeed := by
    intro c hc
    unfold CodeUnit.encodable at hc
    split at hc
    · exact absurd hc (by decide)
    · exact hc
  induction text using throughUtf8.induct with
  | case1 => cases hhead
  | case2 c => exact congrArg some (hencodable (Option.some.inj hhead))
  | case3 c next rest hpair ih =>
      rw [throughUtf8, if_pos hpair] at hhead
      exact hhead
  | case4 c next rest hpair ih =>
      rw [throughUtf8, if_neg hpair] at hhead
      exact congrArg some (hencodable (Option.some.inj hhead))

theorem lineSequence_break_cons {c : CodeUnit} (hbreak : c.isBreak = true) {rest : List CodeUnit}
    (hpair : ¬ (c = CodeUnit.carriageReturn ∧ rest.head? = some CodeUnit.lineFeed)) :
    lineSequence (c :: rest) = [] :: lineSequence rest := by
  cases rest with
  | nil => simp [lineSequence, hbreak]
  | cons next rest =>
      rw [List.head?_cons, Option.some_inj] at hpair
      rw [lineSequence, if_neg hpair, if_pos hbreak]

theorem lineSequence_return_lineFeed (rest : List CodeUnit) :
    lineSequence (CodeUnit.carriageReturn :: CodeUnit.lineFeed :: rest) =
      [] :: lineSequence rest := by
  rw [lineSequence, if_pos ⟨rfl, rfl⟩]

/-- The first line begins where the text does. -/
theorem head?_of_lineSequence {text first : List CodeUnit} {others : List (List CodeUnit)}
    (hlines : lineSequence text = first :: others) {c : CodeUnit} (hc : first.head? = some c) :
    text.head? = some c := by
  cases text with
  | nil =>
      cases hlines
      cases hc
  | cons d rest =>
      by_cases hbreak : d.isBreak = true
      · have hempty : first = [] := by
          by_cases hpair : d = CodeUnit.carriageReturn ∧ rest.head? = some CodeUnit.lineFeed
          · obtain ⟨rfl, hfeed⟩ := hpair
            obtain ⟨back, rfl⟩ := List.head?_eq_some_iff.mp hfeed
            rw [lineSequence_return_lineFeed] at hlines
            exact (List.cons.inj hlines).1.symm
          · rw [lineSequence_break_cons hbreak hpair] at hlines
            exact (List.cons.inj hlines).1.symm
        rw [hempty] at hc
        cases hc
      · obtain ⟨line, lines, hrest⟩ := List.exists_cons_of_ne_nil (lineSequence_ne_nil rest)
        rw [lineSequence_cons_of_not_break (Bool.eq_false_iff.mpr hbreak), hrest,
          List.modifyHead_cons] at hlines
        rw [← (List.cons.inj hlines).1] at hc
        exact hc

/-- UTF-8 keeps the lines of a text apart and writes each of them as it would alone. -/
theorem lineSequence_throughUtf8 (text : List CodeUnit) :
    lineSequence (throughUtf8 text) = (lineSequence text).map throughUtf8 := by
  induction text using throughUtf8.induct with
  | case1 => rfl
  | case2 c =>
      rw [throughUtf8, lineSequence, lineSequence, isBreak_encodable]
      split <;> rfl
  | case3 c next rest hpair ih =>
      have hhigh : c.isBreak = false := by
        apply isBreak_of_isSurrogate
        rw [CodeUnit.isSurrogate, hpair.1, Bool.true_or]
      have hlow : next.isBreak = false := by
        apply isBreak_of_isSurrogate
        rw [CodeUnit.isSurrogate, hpair.2, Bool.or_true]
      obtain ⟨first, others, hlines⟩ := List.exists_cons_of_ne_nil (lineSequence_ne_nil rest)
      rw [throughUtf8, if_pos hpair, lineSequence_cons_of_not_break hhigh,
        lineSequence_cons_of_not_break hlow, ih, lineSequence_cons_of_not_break hhigh,
        lineSequence_cons_of_not_break hlow, hlines]
      simp only [List.map_cons, List.modifyHead_cons, throughUtf8, if_pos hpair]
  | case4 c next rest hpair ih =>
      rw [throughUtf8, if_neg hpair]
      by_cases hbreak : c.isBreak = true
      · rw [encodable_of_isBreak hbreak]
        by_cases hreturn : c = CodeUnit.carriageReturn ∧ next = CodeUnit.lineFeed
        · obtain ⟨rfl, rfl⟩ := hreturn
          have hfeed : CodeUnit.lineFeed.isSurrogate = false := by decide
          rw [throughUtf8_cons_of_not_surrogate hfeed, lineSequence_lineFeed_cons,
            lineSequence_lineFeed_cons, List.map_cons] at ih
          rw [throughUtf8_cons_of_not_surrogate hfeed, lineSequence_return_lineFeed,
            lineSequence_return_lineFeed, List.map_cons]
          exact ih
        · rw [lineSequence_break_cons hbreak, ih, lineSequence_break_cons hbreak, List.map_cons]
          · rfl
          · intro hfollows
            exact hreturn ⟨hfollows.1, Option.some.inj hfollows.2⟩
          · intro hfollows
            have hnext := lineFeed_of_head?_throughUtf8 hfollows.2
            exact hreturn ⟨hfollows.1, Option.some.inj hnext⟩
      · have hplain : c.isBreak = false := Bool.eq_false_iff.mpr hbreak
        have hwritten : c.encodable.isBreak = false := (isBreak_encodable c).trans hplain
        obtain ⟨first, others, hlines⟩ :=
          List.exists_cons_of_ne_nil (lineSequence_ne_nil (next :: rest))
        -- The first line of the rest begins with the next unit, if with any.
        have hfirst : throughUtf8 (c :: first) = c.encodable :: throughUtf8 first := by
          apply throughUtf8_cons
          intro other hother
          have hnext : next = other := Option.some.inj (head?_of_lineSequence hlines hother)
          rw [← hnext]
          exact hpair
        rw [lineSequence_cons_of_not_break hwritten, ih, lineSequence_cons_of_not_break hplain,
          hlines, List.map_cons, List.modifyHead_cons, List.modifyHead_cons, List.map_cons, hfirst]

/-- The lines that a file of UTF-8 gives back are kept by UTF-8. -/
theorem inUtf8_of_mem_readLines {text line : List CodeUnit} (htext : InUtf8 text)
    (hline : line ∈ readLines text) : InUtf8 line := by
  have hlines := lineSequence_throughUtf8 text
  rw [htext] at hlines
  have hsame := hlines.symm.trans (List.map_id _).symm
  exact List.map_inj_left.mp hsame line (mem_lineSequence_of_mem_readLines hline)

theorem inUtf8_throughUtf8 (text : List CodeUnit) : InUtf8 (throughUtf8 text) := by
  have hencodable : ∀ c : CodeUnit, c.encodable.isSurrogate = false := by
    intro c
    unfold CodeUnit.encodable
    split
    next => decide
    next hplain => exact Bool.eq_false_iff.mpr hplain
  unfold InUtf8
  induction text using throughUtf8.induct with
  | case1 => rfl
  | case2 c => rw [throughUtf8, throughUtf8, encodable_of_not_surrogate (hencodable c)]
  | case3 c next rest hpair ih => rw [throughUtf8, if_pos hpair, throughUtf8, if_pos hpair, ih]
  | case4 c next rest hpair ih =>
      rw [throughUtf8, if_neg hpair, throughUtf8_cons_of_not_surrogate (hencodable c), ih]

theorem InUtf8.append {front back : List CodeUnit} (hended : Ended front) (hfront : InUtf8 front)
    (hback : InUtf8 back) : InUtf8 (front ++ back) := by
  rcases hended.cases with rfl | ⟨init, rfl⟩
  · exact hback
  · have hfeed : CodeUnit.lineFeed.isSurrogate = false := by decide
    unfold InUtf8 at hfront hback ⊢
    rw [throughUtf8_append_cons hfeed] at hfront
    rw [List.append_assoc, List.singleton_append, throughUtf8_append_cons hfeed, hback,
      (List.append_inj_left' hfront rfl)]

theorem throughUtf8_terminated (lines : List (List CodeUnit)) :
    throughUtf8 (terminated CodeUnit.lineFeed lines) =
      terminated CodeUnit.lineFeed (lines.map throughUtf8) := by
  have hfeed : CodeUnit.lineFeed.isSurrogate = false := by decide
  induction lines with
  | nil => rfl
  | cons line lines ih =>
      rw [terminated_cons, throughUtf8_append_cons hfeed, ih, List.map_cons, terminated_cons]

/-- Fields that are joined with a separator are written one by one. -/
theorem throughUtf8_intercalate {sep : CodeUnit} (hsep : sep.isSurrogate = false)
    (fields : List (List CodeUnit)) :
    throughUtf8 ([sep].intercalate fields) = [sep].intercalate (fields.map throughUtf8) := by
  induction fields with
  | nil => rfl
  | cons field fields ih =>
      cases fields with
      | nil => simp only [List.map_cons, List.map_nil, List.intercalate_singleton]
      | cons next rest =>
          rw [List.map_cons] at ih
          rw [List.map_cons, List.map_cons, List.intercalate_cons_cons,
            List.intercalate_cons_cons, List.append_assoc, List.append_assoc,
            List.singleton_append, List.singleton_append, throughUtf8_append_cons hsep, ih]

theorem mem_of_mem_throughUtf8 {text : List CodeUnit} {c : CodeUnit}
    (hc : c ∈ throughUtf8 text) : c ∈ text ∨ c = codeUnit '?' := by
  have hencodable : ∀ d : CodeUnit, d.encodable = d ∨ d.encodable = codeUnit '?' := by
    intro d
    unfold CodeUnit.encodable
    split
    · exact .inr rfl
    · exact .inl rfl
  induction text using throughUtf8.induct with
  | case1 => exact .inl hc
  | case2 d =>
      rw [throughUtf8, List.mem_singleton] at hc
      rcases hencodable d with hkept | hmark
      · exact .inl (by rw [hc, hkept]; exact List.mem_cons_self)
      · exact .inr (hc.trans hmark)
  | case3 d next rest hpair ih =>
      rw [throughUtf8, if_pos hpair, List.mem_cons, List.mem_cons] at hc
      rcases hc with rfl | rfl | hrest
      · exact .inl List.mem_cons_self
      · exact .inl (List.mem_cons_of_mem _ List.mem_cons_self)
      · exact (ih hrest).imp_left fun hmem =>
          List.mem_cons_of_mem _ (List.mem_cons_of_mem _ hmem)
  | case4 d next rest hpair ih =>
      rw [throughUtf8, if_neg hpair, List.mem_cons] at hc
      rcases hc with hhead | hrest
      · rcases hencodable d with hkept | hmark
        · exact .inl (by rw [hhead, hkept]; exact List.mem_cons_self)
        · exact .inr (hhead.trans hmark)
      · exact (ih hrest).imp_left (List.mem_cons_of_mem _)

/-- The fields of a line of UTF-8 are kept by UTF-8. -/
theorem inUtf8_of_mem_splitOn {sep : CodeUnit} (hsep : sep.isSurrogate = false)
    (hmark : sep ≠ codeUnit '?') {text field : List CodeUnit} (htext : InUtf8 text)
    (hfield : field ∈ text.splitOn sep) : InUtf8 field := by
  have hfree : ∀ written ∈ (text.splitOn sep).map throughUtf8, sep ∉ written := by
    intro written hwritten hmem
    obtain ⟨part, hpart, rfl⟩ := List.mem_map.mp hwritten
    rcases mem_of_mem_throughUtf8 hmem with hold | hnew
    · exact notMem_of_mem_splitOn hpart hold
    · exact hmark hnew
  have hne : (text.splitOn sep).map throughUtf8 ≠ [] := by
    intro hnil
    exact List.splitOn_ne_nil sep text (List.map_eq_nil_iff.mp hnil)
  have hwhole : [sep].intercalate ((text.splitOn sep).map throughUtf8) = text := by
    rw [← throughUtf8_intercalate hsep, List.intercalate_splitOn]
    exact htext
  have hparts : (text.splitOn sep).map throughUtf8 = (text.splitOn sep).map id := by
    rw [← List.splitOn_intercalate sep hfree hne, hwhole, List.map_id]
  exact List.map_inj_left.mp hparts field hfield

end Text
