import Syauth.Cli.OperatorLines
import Syauth.Cli.PairFlow

/-! # The line that answers the OOB prompt

`run_pair` and `read_oob_confirmation` of `crates/syauth-cli/src/pair.rs` on the queue that
the prompts of the agent read too (`make_stdio_confirm_handler_with` of `pair_backend.rs`).
The operator types at any time, and each line carries whether the code was on the terminal
by then; the program does not see that mark.  The lock on stdout is left out.
-/

namespace Syauth.Cli

open Transition Text

structure TypedLine where
  raw : String
  afterCode : Bool
  deriving DecidableEq

/-- What the stdin reader sends of a line. -/
def TypedLine.text (line : TypedLine) : List Char :=
  line.raw.toList.rdropWhile fun c => c == '\r' || c == '\n'

/-- What one `read_line` gives: a line feed ends it. -/
def IsInputLine (raw : String) : Prop :=
  raw ≠ "" ∧ '\n' ∉ raw.toList.dropLast

instance (raw : String) : Decidable (IsInputLine raw) :=
  inferInstanceAs (Decidable (_ ∧ _))

/-- The queue, the lines that the stdin reader has not read yet, all that was typed, and
whether the code is on the terminal. -/
structure PromptRun where
  lines : LineQueue TypedLine
  tty : List TypedLine
  typed : List TypedLine
  printed : Bool

inductive PromptEvent where
  | type (raw : String)
  | stdinRead
  | printCode
  | fillBuf
  | queue (event : LineEvent TypedLine)

/-! ## The clones of a run -/

def backendValue : Nat := 0
def stdinValue : Nat := 2
def readerValue : Nat := 3

/-- The clones from here on are those of the handlers of the agent. -/
def firstHandlerValue : Nat := 4

def bufReaderCapacity : Nat := 8192

/-- The set-up of `run_pair`. -/
def pairLines : LineQueue TypedLine :=
  { LineQueue.start with live := [3, 2, 1, 0], next := 4, stdin := some stdinValue }

theorem run_pairLines : (lineSystem TypedLine.text).run .start
    [.clone backendValue, .clone 1, .spawnStdinReader stdinValue, .clone 1] = some pairLines := by
  rfl

namespace PromptRun

variable (opts : PairOpts) (s : PromptRun)

def start : PromptRun :=
  ⟨pairLines, [], [], false⟩

def autoAccept : Bool :=
  opts.yes || opts.scriptedOob.isSome

/-- What happens on the queue beside the pushes of the stdin reader and the reads of the
flow: only the handler of the terminal takes lines, each time with a timeout. -/
def allows : LineEvent TypedLine → Bool
  | .clone value => value == backendValue && ConfirmSource.fromOpts opts == .stdio
  | .call value (.takeLine (some _)) => firstHandlerValue ≤ value
  | .lock _ | .receive | .timeOut | .disconnected | .stdinEnd => true
  | _ => false

/-- The flow reads when its buffer has no line, and not before the code is printed. -/
def step : PromptEvent → Option PromptRun
  | .type raw =>
      if IsInputLine raw then
        some { s with tty := s.tty ++ [⟨raw, s.printed⟩], typed := s.typed ++ [⟨raw, s.printed⟩] }
      else none
  | .stdinRead =>
      match s.lines.stdin, s.tty with
      | some value, line :: tty =>
          (s.lines.step TypedLine.text (.push value line)).map fun lines =>
            { s with lines := lines, tty := tty }
      | _, _ => none
  | .printCode => if s.printed then none else some { s with printed := true }
  | .fillBuf =>
      if s.printed ∧ autoAccept opts = false ∧ newline ∉ s.lines.output readerValue then
        (s.lines.step TypedLine.text (.call readerValue (.read bufReaderCapacity))).map fun lines =>
          { s with lines := lines }
      else none
  | .queue event =>
      if allows opts event then
        (s.lines.step TypedLine.text event).map fun lines => { s with lines := lines }
      else none

/-- What the prompt returns, once it has; a line that is not UTF-8 ends the run. -/
def answer : Option OobConfirmation :=
  if s.printed = false then none
  else if autoAccept opts then some .accept
  else if newline ∈ s.lines.output readerValue then
    (String.fromUTF8? (((s.lines.output readerValue).takeWhile (· != newline)) ++
      [newline]).toByteArray).map parseYesNo
  else none

end PromptRun

def promptSystem (opts : PairOpts) : System PromptRun PromptEvent where
  start s := s = .start
  step := PromptRun.step opts

namespace PromptRun

variable {opts : PairOpts} {s s' : PromptRun}

/-- The line was taken for the OOB prompt. -/
def forOob (d : Delivery TypedLine) : Bool :=
  d.byReader && d.taker == readerValue

/-- The line that the flow read first. -/
def answerLine (s : PromptRun) : Option TypedLine :=
  (s.lines.readBy readerValue).head?

/-- How many lines the prompts of the agent took before that one. -/
def takenByPrompts (s : PromptRun) : Nat :=
  (s.lines.delivered.takeWhile fun d => !forOob d).length

/-- How many lines were typed before the code was on the terminal. -/
def typedEarly (s : PromptRun) : Nat :=
  (s.typed.filter fun line => !line.afterCode).length

/-! ## What holds at every moment -/

structure Sound (s : PromptRun) : Prop where
  queue : s.lines.Sound TypedLine.text
  forwarded : s.typed = s.lines.pushed ++ s.tty
  inputs : ∀ line ∈ s.typed, IsInputLine line.raw
  marks : ∃ early late, s.typed = early ++ late ∧ (∀ line ∈ early, line.afterCode = false) ∧
    (∀ line ∈ late, line.afterCode = true) ∧ (s.printed = false → late = [])

theorem sound_start : Sound start where
  queue := LineQueue.sound_of_run run_pairLines
  forwarded := rfl
  inputs := fun _ hmem => (nomatch hmem)
  marks := ⟨[], [], rfl, fun _ hmem => (nomatch hmem), fun _ hmem => (nomatch hmem), fun _ => rfl⟩

theorem Sound.type (hs : Sound s) {raw : String} (hraw : IsInputLine raw) :
    Sound { s with
      tty := s.tty ++ [⟨raw, s.printed⟩], typed := s.typed ++ [⟨raw, s.printed⟩] } := by
  obtain ⟨early, late, htyped, hearly, hlate, hunprinted⟩ := hs.marks
  refine ⟨hs.queue, ?_, ?_, ?_⟩
  · rw [← List.append_assoc, ← hs.forwarded]
  · intro line hmem
    rcases List.mem_append.mp hmem with hold | hnew
    · exact hs.inputs line hold
    · rw [List.mem_singleton.mp hnew]
      exact hraw
  · cases hprinted : s.printed with
    | true =>
        refine ⟨early, late ++ [⟨raw, true⟩], ?_, hearly, ?_, fun hfalse => by cases hfalse⟩
        · rw [htyped, List.append_assoc]
        · intro line hmem
          rcases List.mem_append.mp hmem with hold | hnew
          · exact hlate line hold
          · rw [List.mem_singleton.mp hnew]
    | false =>
        rw [hunprinted hprinted, List.append_nil] at htyped
        refine ⟨early ++ [⟨raw, false⟩], [], ?_, ?_, fun _ hmem => (nomatch hmem), fun _ => rfl⟩
        · rw [htyped, List.append_nil]
        · intro line hmem
          rcases List.mem_append.mp hmem with hold | hnew
          · exact hearly line hold
          · rw [List.mem_singleton.mp hnew]

/-- A step of the queue that sends nothing leaves what was typed as it is. -/
theorem Sound.withLines (hs : Sound s) {event : LineEvent TypedLine} {lines : LineQueue TypedLine}
    (hpush : event.isPush = false) (hstep : s.lines.step TypedLine.text event = some lines) :
    Sound { s with lines := lines } := by
  refine ⟨hs.queue.step hstep, ?_, hs.inputs, hs.marks⟩
  rw [LineQueue.pushed_of_step hpush hstep]
  exact hs.forwarded

theorem isPush_of_allows {event : LineEvent TypedLine} (hallows : allows opts event = true) :
    event.isPush = false := by
  cases event with
  | push value line => cases hallows
  | _ => rfl

theorem Sound.step (hs : Sound s) {event : PromptEvent} (hstep : s.step opts event = some s') :
    Sound s' := by
  cases event with
  | type raw =>
      simp only [PromptRun.step] at hstep
      split at hstep
      · next hraw =>
          cases hstep
          exact hs.type hraw
      · cases hstep
  | stdinRead =>
      simp only [PromptRun.step] at hstep
      split at hstep
      · next value line tty _ htty =>
          obtain ⟨lines, hlines, hnext⟩ := Option.map_eq_some_iff.mp hstep
          subst hnext
          refine ⟨hs.queue.step hlines, ?_, hs.inputs, hs.marks⟩
          have hpushed : lines.pushed = s.lines.pushed ++ [line] := by
            simp only [LineQueue.step] at hlines
            split at hlines <;> cases hlines
            rfl
          have hforwarded := hs.forwarded
          rw [htty] at hforwarded
          rw [hpushed, List.append_assoc, List.singleton_append]
          exact hforwarded
      · cases hstep
  | printCode =>
      simp only [PromptRun.step] at hstep
      split at hstep
      · cases hstep
      · cases hstep
        obtain ⟨early, late, htyped, hearly, hlate, -⟩ := hs.marks
        exact ⟨hs.queue, hs.forwarded, hs.inputs, early, late, htyped, hearly, hlate,
          fun hfalse => by cases hfalse⟩
  | fillBuf =>
      simp only [PromptRun.step] at hstep
      split at hstep
      · obtain ⟨lines, hlines, hnext⟩ := Option.map_eq_some_iff.mp hstep
        subst hnext
        exact hs.withLines rfl hlines
      · cases hstep
  | queue event =>
      simp only [PromptRun.step] at hstep
      split at hstep
      · next hallows =>
          obtain ⟨lines, hlines, hnext⟩ := Option.map_eq_some_iff.mp hstep
          subst hnext
          exact hs.withLines (isPush_of_allows hallows) hlines
      · cases hstep

theorem sound_of_run {events : List PromptEvent}
    (hrun : (promptSystem opts).run start events = some s) : Sound s :=
  (promptSystem opts).run_invariant Sound (fun _ _ _ hs hstep => hs.step hstep) sound_start hrun

/-! ## The line and its mark -/

theorem notMem_text {line : TypedLine} (hinput : IsInputLine line.raw) : '\n' ∉ line.text := by
  intro hmem
  have hprefix : line.text <+: line.raw.toList := List.rdropWhile_prefix _ _
  obtain ⟨rest, hraw⟩ := hprefix
  cases rest using List.reverseRecOn with
  | nil =>
      -- nothing was cut off, so the last character is no line ending
      rw [List.append_nil] at hraw
      have hne : line.text ≠ [] := List.ne_nil_of_mem hmem
      have hlast := List.rdropWhile_last_not _ line.raw.toList hne
      rw [← List.dropLast_append_getLast hne] at hmem
      rcases List.mem_append.mp hmem with hinner | hend
      · exact hinput.2 (hraw ▸ hinner)
      · rw [List.mem_singleton] at hend
        apply hlast
        change ((line.text.getLast hne) == '\r' || (line.text.getLast hne) == '\n') = true
        rw [← hend]
        rfl
  | append_singleton rest c _ =>
      apply hinput.2
      rw [← hraw, ← List.append_assoc, List.dropLast_concat]
      exact List.mem_append_left rest hmem

theorem newline_notMem_utf8 {line : TypedLine} (hinput : IsInputLine line.raw) :
    newline ∉ utf8 line.text := by
  intro hmem
  obtain ⟨c, hc, hcode⟩ := exists_mem_of_mem_utf8 hmem (by decide)
  have hfeed : c = '\n' := Char.toNat_inj.mp hcode
  exact notMem_text hinput (hfeed ▸ hc)

/-- What comes before the first delimiter of a part is what comes before the first of all. -/
theorem takeWhile_of_append_eq {α : Type} [BEq α] [LawfulBEq α] {delim : α}
    {front back word rest : List α}
    (hsplit : front ++ back = word ++ delim :: rest) (hfree : delim ∉ word)
    (hmem : delim ∈ front) : front.takeWhile (· != delim) = word := by
  have hword : ∀ c ∈ word, (c != delim) = true := by
    intro c hc
    rw [bne_iff_ne]
    exact fun heq => hfree (heq ▸ hc)
  rcases List.append_eq_append_iff.mp hsplit with ⟨gap, hgap, -⟩ | ⟨gap, hgap, hrest⟩
  · exact absurd (hgap ▸ List.mem_append_left gap hmem) hfree
  · cases gap with
    | nil =>
        rw [List.append_nil] at hgap
        exact absurd (hgap ▸ hmem) hfree
    | cons c gap =>
        obtain ⟨hc, -⟩ := List.cons.inj hrest
        rw [hgap, ← hc, List.takeWhile_append_of_pos hword]
        simp

/-- Where the answer stands among the lines that were typed. -/
theorem Sound.typed_of_answerLine (hs : Sound s) {line : TypedLine}
    (hline : s.answerLine = some line) :
    ∃ front back, s.typed = front ++ line :: back ∧ front.length = s.takenByPrompts := by
  obtain ⟨rest, hread⟩ : ∃ rest, s.lines.readBy readerValue = line :: rest := by
    cases hread : s.lines.readBy readerValue with
    | nil =>
        rw [answerLine, hread] at hline
        cases hline
    | cons head rest =>
        rw [answerLine, hread] at hline
        cases hline
        exact ⟨rest, rfl⟩
  obtain ⟨d, ds, hfilter, hd, -⟩ := List.map_eq_cons_iff.mp hread
  obtain ⟨before, after, hdelivered, hbefore, hfor, -⟩ := List.filter_eq_cons_iff.mp hfilter
  have htaken : s.takenByPrompts = before.length := by
    have hothers : ∀ other ∈ before, (!forOob other) = true := by
      intro other hother
      rw [Bool.not_eq_true', ← Bool.not_eq_true]
      exact hbefore other hother
    have hself : (!forOob d) = false := by
      simpa [forOob] using hfor
    rw [takenByPrompts, hdelivered, List.takeWhile_append_of_pos hothers,
      List.takeWhile_cons_of_neg (by rw [hself]; decide), List.append_nil]
  refine ⟨before.map Delivery.line, after.map Delivery.line ++ s.lines.queue ++ s.tty, ?_, ?_⟩
  · rw [hs.forwarded, hs.queue.order, hdelivered, List.map_append, List.map_cons, hd]
    simp
  · rw [List.length_map, htaken]

/-- The answer is that of the first line that the flow took. -/
theorem Sound.answerLine_of_answer (hs : Sound s) (hauto : autoAccept opts = false)
    {confirmation : OobConfirmation} (hanswer : s.answer opts = some confirmation) :
    ∃ line, s.answerLine = some line ∧
      parseYesNo (String.ofList (line.text ++ ['\n'])) = confirmation := by
  simp only [answer, hauto, Bool.false_eq_true, if_false] at hanswer
  split at hanswer
  · cases hanswer
  · split at hanswer
    · next hmem =>
        obtain ⟨buf, hbuf, hparse⟩ := Option.map_eq_some_iff.mp hanswer
        have hstream := hs.queue.stream readerValue
        cases hread : s.lines.readBy readerValue with
        | nil =>
            rw [hread, List.flatMap_nil, List.append_eq_nil_iff] at hstream
            rw [hstream.1] at hmem
            cases hmem
        | cons line rest =>
            have hline : s.answerLine = some line := by
              rw [answerLine, hread]
              rfl
            refine ⟨line, hline, ?_⟩
            obtain ⟨front, back, htyped, -⟩ := hs.typed_of_answerLine hline
            have hinput : IsInputLine line.raw :=
              hs.inputs line (htyped ▸ List.mem_append_right front List.mem_cons_self)
            rw [hread, List.flatMap_cons, LineQueue.lineBytes, List.append_assoc,
              List.singleton_append] at hstream
            rw [takeWhile_of_append_eq hstream (newline_notMem_utf8 hinput) hmem] at hbuf
            have hbytes : utf8 line.text ++ [newline] = utf8 (line.text ++ ['\n']) := by
              rw [utf8_append]
              rfl
            rw [hbytes, fromUTF8?_utf8] at hbuf
            cases hbuf
            exact hparse
    · cases hanswer

/-- In a list whose marks are all behind some place, an element is marked when it is. -/
theorem mark_iff_length_le {α : Type} {mark : α → Bool} {early late front back : List α} {x : α}
    (hsplit : early ++ late = front ++ x :: back) (hearly : ∀ y ∈ early, mark y = false)
    (hlate : ∀ y ∈ late, mark y = true) : mark x = true ↔ early.length ≤ front.length := by
  rcases List.append_eq_append_iff.mp hsplit with ⟨gap, hfront, hrest⟩ | ⟨gap, hgap, hrest⟩
  · have hx : x ∈ late := hrest ▸ List.mem_append_right gap List.mem_cons_self
    rw [hfront, List.length_append]
    exact iff_of_true (hlate x hx) (Nat.le_add_right _ _)
  · cases gap with
    | nil =>
        rw [List.append_nil] at hgap
        rw [List.nil_append] at hrest
        have hx : x ∈ late := hrest ▸ List.mem_cons_self
        exact iff_of_true (hlate x hx) (Nat.le_of_eq (congrArg List.length hgap))
    | cons c gap =>
        obtain ⟨hc, -⟩ := List.cons.inj hrest
        have hx : x ∈ early := hgap ▸ List.mem_append_right front (hc ▸ List.mem_cons_self)
        rw [hearly x hx, hgap, List.length_append, List.length_cons]
        simp

theorem typedEarly_eq {early late : List TypedLine}
    (htyped : s.typed = early ++ late) (hearly : ∀ line ∈ early, line.afterCode = false)
    (hlate : ∀ line ∈ late, line.afterCode = true) : s.typedEarly = early.length := by
  have hkept : early.filter (fun line => !line.afterCode) = early :=
    List.filter_eq_self.mpr fun line hmem => by rw [hearly line hmem]; rfl
  have hgone : late.filter (fun line => !line.afterCode) = [] :=
    List.filter_eq_nil_iff.mpr fun line hmem => by rw [hlate line hmem]; decide
  rw [typedEarly, htyped, List.filter_append, hkept, hgone, List.append_nil]

/-- The answer was typed after the code was on the terminal exactly when the prompts of the
agent had taken every line that was typed before. -/
theorem oob_answer_after_code_iff {events : List PromptEvent} (hyes : opts.yes = false)
    (hscripted : opts.scriptedOob = none)
    (hrun : (promptSystem opts).run start events = some s)
    (haccept : s.answer opts = some .accept) :
    ∃ line, s.answerLine = some line ∧
      parseYesNo (String.ofList (line.text ++ ['\n'])) = .accept ∧
      (line.afterCode = true ↔ s.typedEarly ≤ s.takenByPrompts) := by
  have hs := sound_of_run hrun
  have hauto : autoAccept opts = false := by
    rw [autoAccept, hyes, hscripted]
    rfl
  obtain ⟨line, hline, hparse⟩ := hs.answerLine_of_answer hauto haccept
  refine ⟨line, hline, hparse, ?_⟩
  obtain ⟨front, back, htyped, htaken⟩ := hs.typed_of_answerLine hline
  obtain ⟨early, late, hmarks, hearly, hlate, -⟩ := hs.marks
  rw [typedEarly_eq hmarks hearly hlate, ← htaken]
  exact mark_iff_length_le (hmarks.symm.trans htyped) hearly hlate

/-- A run that asks on the terminal. -/
def interactive : PairOpts where
  adapter := "hci0"
  peer := none
  timeoutSecs := 60
  yes := false
  waybar := false
  force := false
  scriptedOob := none

/-- One line for the prompt of the agent, and one for the OOB prompt when it is there. -/
def answersInTurn : List PromptEvent :=
  [.queue (.clone 0), .type "y\n", .stdinRead, .queue (.call 4 (.takeLine (some 25))),
    .queue (.lock 4), .queue .receive, .printCode, .fillBuf, .queue (.lock 3), .type "y\n",
    .stdinRead, .queue .receive]

theorem oob_answer_after_code_in_turn :
    ∃ s, (promptSystem interactive).run start answersInTurn = some s ∧
      s.answer interactive = some .accept ∧
      ∃ line, s.answerLine = some line ∧
        parseYesNo (String.ofList (line.text ++ ['\n'])) = .accept ∧
        (line.afterCode = true ↔ s.typedEarly ≤ s.takenByPrompts) := by
  obtain ⟨s, hrun, haccept⟩ : ∃ s, (promptSystem interactive).run start answersInTurn = some s ∧
      s.answer interactive = some .accept := ⟨_, rfl, by decide⟩
  exact ⟨s, hrun, haccept, oob_answer_after_code_iff rfl rfl hrun haccept⟩

/-- The operator types early, and no comparison of the system asks for a line. -/
def typedAhead : List PromptEvent :=
  [.type "y\n", .stdinRead, .printCode, .fillBuf, .queue (.lock 3), .queue .receive]

/-- A line that was typed before there was a code accepts it. -/
theorem oob_accepted_before_code :
    ∃ s line, (promptSystem interactive).run start typedAhead = some s ∧
      s.answer interactive = some .accept ∧ s.answerLine = some line ∧
      line.afterCode = false := by
  exact ⟨_, _, rfl, by decide, rfl, rfl⟩

end PromptRun

end Syauth.Cli
