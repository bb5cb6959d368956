import Syauth.Core.Frame
import Syauth.Text.Utf8
import Syauth.Transition.System
import Mathlib.Logic.Function.Basic

/-! # The queue of the operator's lines

`OperatorLines` and `OperatorLineReader` of `crates/syauth-cli/src/pair.rs`.  Every clone
has its own sender and shares the receiver, which one call at a time has locked.  A value
that threads share is a clone for each of them here.  The lock cannot be poisoned, since
nothing panics under it.
-/

namespace Syauth.Cli

open Transition Text

inductive LineCall where
  | takeLine (timeout : Option Nat)
  | read (len : Nat)
  deriving DecidableEq

/-- The value on which a line was taken, and whether the line was for its reader. -/
structure Delivery (Line : Type) where
  taker : Nat
  byReader : Bool
  line : Line
  deriving DecidableEq

/-- The channel, the clones with their calls and unread bytes, and what happened so far:
the lines that were sent and taken, and the bytes that each reader returned. -/
structure LineQueue (Line : Type) where
  live : List Nat
  next : Nat
  stdin : Option Nat
  stdinEnded : Bool
  queue : List Line
  lock : Option Nat
  calls : Nat → Option LineCall
  pending : Nat → Bytes
  pushed : List Line
  delivered : List (Delivery Line)
  output : Nat → Bytes

inductive LineEvent (Line : Type) where
  | clone (value : Nat)
  | drop (value : Nat)
  | spawnStdinReader (value : Nat)
  | stdinEnd
  | push (value : Nat) (line : Line)
  | call (value : Nat) (call : LineCall)
  | lock (value : Nat)
  | receive
  | timeOut
  | disconnected

def LineEvent.isPush {Line : Type} : LineEvent Line → Bool
  | .push _ _ => true
  | _ => false

def newline : UInt8 := 10

namespace LineQueue

variable {Line : Type} (text : Line → List Char) (s : LineQueue Line)

/-- `OperatorLines::default`. -/
def start : LineQueue Line where
  live := [0]
  next := 1
  stdin := none
  stdinEnded := false
  queue := []
  lock := none
  calls := fun _ => none
  pending := fun _ => []
  pushed := []
  delivered := []
  output := fun _ => []

/-- A value that its owner can move, drop or call. -/
def Idle (value : Nat) : Prop :=
  value ∈ s.live ∧ s.calls value = none ∧ s.stdin ≠ some value

instance (value : Nat) : Decidable (s.Idle value) :=
  inferInstanceAs (Decidable (_ ∧ _ ∧ _))

def lineBytes (line : Line) : Bytes :=
  utf8 (text line) ++ [newline]

/-- A read with bytes left over gives those; every other call waits for the receiver. -/
def begin (value : Nat) (call : LineCall) : LineQueue Line :=
  match call, s.pending value with
  | .read len, byte :: rest =>
      { s with
        pending := Function.update s.pending value ((byte :: rest).drop len)
        output := Function.update s.output value (s.output value ++ (byte :: rest).take len) }
  | call, _ => { s with calls := Function.update s.calls value (some call) }

/-- The call gives the receiver back and returns. -/
def finish (value : Nat) : LineQueue Line :=
  { s with lock := none, calls := Function.update s.calls value none }

def deliver (value : Nat) (call : LineCall) (line : Line) (queue : List Line) : LineQueue Line :=
  match call with
  | .takeLine _ =>
      { s.finish value with
        queue := queue
        delivered := s.delivered ++ [⟨value, false, line⟩] }
  | .read len =>
      { s.finish value with
        queue := queue
        delivered := s.delivered ++ [⟨value, true, line⟩]
        pending := Function.update s.pending value ((lineBytes text line).drop len)
        output := Function.update s.output value
          (s.output value ++ (lineBytes text line).take len) }

/-- The call that has the receiver. -/
def holder : Option (Nat × LineCall) :=
  s.lock.bind fun value => (s.calls value).map fun call => (value, call)

/-- A receive fails only when no sender is left. -/
def step : LineEvent Line → Option (LineQueue Line)
  | .clone value =>
      if value ∈ s.live then some { s with live := s.next :: s.live, next := s.next + 1 } else none
  | .drop value => if s.Idle value then some { s with live := s.live.erase value } else none
  | .spawnStdinReader value =>
      if s.Idle value ∧ s.stdin = none ∧ s.stdinEnded = false then
        some { s with stdin := some value }
      else none
  | .stdinEnd =>
      s.stdin.map fun value =>
        { s with live := s.live.erase value, stdin := none, stdinEnded := true }
  | .push value line =>
      if value ∈ s.live then
        some { s with queue := s.queue ++ [line], pushed := s.pushed ++ [line] }
      else none
  | .call value call => if s.Idle value then some (s.begin value call) else none
  | .lock value =>
      if s.lock = none ∧ (s.calls value).isSome then some { s with lock := some value } else none
  | .receive =>
      match s.holder, s.queue with
      | some (value, call), line :: queue => some (s.deliver text value call line queue)
      | _, _ => none
  | .timeOut =>
      match s.holder, s.queue with
      | some (value, .takeLine (some _)), [] => some (s.finish value)
      | _, _ => none
  | .disconnected =>
      match s.holder, s.queue with
      | some (value, _), [] => if s.live = [] then some (s.finish value) else none
      | _, _ => none

end LineQueue

/-- Every order of the calls, and of what the threads do between them. -/
def lineSystem {Line : Type} (text : Line → List Char) :
    System (LineQueue Line) (LineEvent Line) where
  start s := s = .start
  step := LineQueue.step text

namespace LineQueue

variable {Line : Type} {text : Line → List Char} {s s' : LineQueue Line}

/-! ## Every line once, and in order -/

/-- The lines that the reader of a value took, oldest first. -/
def readBy (s : LineQueue Line) (value : Nat) : List Line :=
  (s.delivered.filter fun d => d.byReader && d.taker == value).map Delivery.line

/-- What holds between the calls of any threads. -/
structure Sound (text : Line → List Char) (s : LineQueue Line) : Prop where
  order : s.pushed = s.delivered.map Delivery.line ++ s.queue
  stream : ∀ value, s.output value ++ s.pending value =
    (s.readBy value).flatMap (lineBytes text)
  borrowed : ∀ value, (s.calls value).isSome → value ∈ s.live
  unread : ∀ value len, s.calls value = some (.read len) → s.pending value = []
  forwards : ∀ value, s.stdin = some value → s.calls value = none

theorem sound_start : Sound text (start : LineQueue Line) where
  order := rfl
  stream _ := rfl
  borrowed _ hcall := by cases hcall
  unread _ _ hcall := by cases hcall
  forwards _ _ := rfl

theorem holder_eq_some {value : Nat} {call : LineCall} :
    s.holder = some (value, call) ↔ s.lock = some value ∧ s.calls value = some call := by
  simp only [holder, Option.bind_eq_some_iff, Option.map_eq_some_iff, Prod.mk.injEq]
  constructor
  · intro ⟨_, hlock, _, hcall, hvalue, hsame⟩
    subst hvalue hsame
    exact ⟨hlock, hcall⟩
  · intro ⟨hlock, hcall⟩
    exact ⟨value, hlock, call, hcall, rfl, rfl⟩

/-- A call in progress keeps the value it was made on. -/
theorem Sound.mem_live_erase (hs : Sound text s) {value other : Nat}
    (hidle : s.calls value = none) (hcall : (s.calls other).isSome) :
    other ∈ s.live.erase value := by
  have hne : other ≠ value := by
    intro heq
    rw [heq, hidle] at hcall
    cases hcall
  exact (List.mem_erase_of_ne hne).mpr (hs.borrowed other hcall)

theorem Sound.begin (hs : Sound text s) {value : Nat} (hidle : s.Idle value)
    (call : LineCall) : Sound text (s.begin value call) := by
  unfold LineQueue.begin
  split
  · next len byte rest hpending =>
      -- the bytes that are left over move to the caller, as many as it has room for
      refine ⟨hs.order, fun other => ?_, hs.borrowed, fun other len' hcall => ?_, hs.forwards⟩
      · by_cases hother : other = value
        · subst hother
          have hstream := hs.stream other
          rw [hpending] at hstream
          simp only [Function.update_self, List.append_assoc, List.take_append_drop]
          exact hstream
        · simp only [Function.update_of_ne hother]
          exact hs.stream other
      · have hnil := hs.unread other len' hcall
        have hne : other ≠ value := by
          intro heq
          rw [heq, hpending] at hnil
          cases hnil
        simp only [Function.update_of_ne hne]
        exact hnil
  · next hcases =>
      refine ⟨hs.order, hs.stream, fun other hcall => ?_, fun other len hcall => ?_,
        fun other hstdin => ?_⟩
      · by_cases hother : other = value
        · exact hother ▸ hidle.1
        · simp only [Function.update_of_ne hother] at hcall
          exact hs.borrowed other hcall
      · by_cases hother : other = value
        · subst hother
          simp only [Function.update_self, Option.some.injEq] at hcall
          cases hpending : s.pending other with
          | nil => rfl
          | cons byte rest => exact absurd hpending (hcases len byte rest hcall)
        · simp only [Function.update_of_ne hother] at hcall
          exact hs.unread other len hcall
      · have hne : other ≠ value := fun heq => hidle.2.2 (heq ▸ hstdin)
        simp only [Function.update_of_ne hne]
        exact hs.forwards other hstdin

/-- What is left of the calls when one of them returns. -/
theorem calls_of_finish {value other : Nat} {call : LineCall}
    (hcall : (s.finish value).calls other = some call) :
    other ≠ value ∧ s.calls other = some call := by
  by_cases hother : other = value
  · subst hother
    simp [finish] at hcall
  · simp only [finish, Function.update_of_ne hother] at hcall
    exact ⟨hother, hcall⟩

theorem Sound.finish (hs : Sound text s) (value : Nat) : Sound text (s.finish value) := by
  refine ⟨hs.order, hs.stream, fun other hcall => ?_, fun other len hcall => ?_,
    fun other hstdin => ?_⟩
  · obtain ⟨call, hsome⟩ := Option.isSome_iff_exists.mp hcall
    exact hs.borrowed other (by rw [(calls_of_finish hsome).2]; rfl)
  · exact hs.unread other len (calls_of_finish hcall).2
  · cases hcall : (s.finish value).calls other with
    | none => rfl
    | some call =>
        have hold := (calls_of_finish hcall).2
        rw [hs.forwards other hstdin] at hold
        cases hold

theorem Sound.deliver (hs : Sound text s) {value : Nat} {call : LineCall} {line : Line}
    {queue : List Line} (hcall : s.calls value = some call) (hqueue : s.queue = line :: queue) :
    Sound text (s.deliver text value call line queue) := by
  have hfinish := hs.finish value
  have horder : s.pushed = (s.delivered.map Delivery.line ++ [line]) ++ queue := by
    rw [List.append_assoc, List.singleton_append, ← hqueue]
    exact hs.order
  cases call with
  | takeLine timeout =>
      refine ⟨?_, fun other => ?_, hfinish.borrowed, hfinish.unread, hfinish.forwards⟩
      · simpa [LineQueue.deliver, LineQueue.finish] using horder
      · have hread : (s.deliver text value (.takeLine timeout) line queue).readBy other =
            s.readBy other := by
          simp [LineQueue.deliver, readBy, List.filter_append]
        rw [hread]
        exact hs.stream other
  | read len =>
      refine ⟨?_, fun other => ?_, hfinish.borrowed, fun other len' hother => ?_,
        hfinish.forwards⟩
      · simpa [LineQueue.deliver, LineQueue.finish] using horder
      · by_cases heq : other = value
        · subst heq
          have hread : (s.deliver text other (.read len) line queue).readBy other =
              s.readBy other ++ [line] := by
            simp [LineQueue.deliver, readBy, List.filter_append]
          have hstream := hs.stream other
          rw [hs.unread other len hcall, List.append_nil] at hstream
          rw [hread, List.flatMap_append, ← hstream]
          simp [LineQueue.deliver]
        · have hread : (s.deliver text value (.read len) line queue).readBy other =
              s.readBy other := by
            simp [LineQueue.deliver, readBy, List.filter_append, Ne.symm heq]
          rw [hread]
          simp only [LineQueue.deliver, Function.update_of_ne heq]
          exact hs.stream other
      · obtain ⟨hne, hold⟩ := calls_of_finish hother
        simp only [LineQueue.deliver, Function.update_of_ne hne]
        exact hs.unread other len' hold

theorem Sound.step (hs : Sound text s) {event : LineEvent Line}
    (hstep : s.step text event = some s') : Sound text s' := by
  cases event with
  | clone value =>
      simp only [LineQueue.step] at hstep
      split at hstep
      · cases hstep
        refine ⟨hs.order, hs.stream, fun other hcall => ?_, hs.unread, hs.forwards⟩
        exact List.mem_cons_of_mem _ (hs.borrowed other hcall)
      · cases hstep
  | drop value =>
      simp only [LineQueue.step] at hstep
      split at hstep
      · next hidle =>
          cases hstep
          refine ⟨hs.order, hs.stream, fun other hcall => ?_, hs.unread, hs.forwards⟩
          exact hs.mem_live_erase hidle.2.1 hcall
      · cases hstep
  | spawnStdinReader value =>
      simp only [LineQueue.step] at hstep
      split at hstep
      · next hidle =>
          cases hstep
          refine ⟨hs.order, hs.stream, hs.borrowed, hs.unread, fun other hstdin => ?_⟩
          cases hstdin
          exact hidle.1.2.1
      · cases hstep
  | stdinEnd =>
      obtain ⟨value, hstdin, hnext⟩ := Option.map_eq_some_iff.mp hstep
      subst hnext
      refine ⟨hs.order, hs.stream, fun other hcall => ?_, hs.unread, fun other hnone => ?_⟩
      · exact hs.mem_live_erase (hs.forwards value hstdin) hcall
      · cases hnone
  | push value line =>
      simp only [LineQueue.step] at hstep
      split at hstep
      · cases hstep
        refine ⟨?_, hs.stream, hs.borrowed, hs.unread, hs.forwards⟩
        rw [← List.append_assoc, ← hs.order]
      · cases hstep
  | call value call =>
      simp only [LineQueue.step] at hstep
      split at hstep
      · next hidle =>
          cases hstep
          exact hs.begin hidle call
      · cases hstep
  | lock value =>
      simp only [LineQueue.step] at hstep
      split at hstep
      · cases hstep
        exact ⟨hs.order, hs.stream, hs.borrowed, hs.unread, hs.forwards⟩
      · cases hstep
  | receive =>
      simp only [LineQueue.step] at hstep
      split at hstep
      · next value call line queue hholder hqueue =>
          cases hstep
          exact hs.deliver (holder_eq_some.mp hholder).2 hqueue
      · cases hstep
  | timeOut =>
      simp only [LineQueue.step] at hstep
      split at hstep
      · cases hstep
        exact hs.finish _
      · cases hstep
  | disconnected =>
      simp only [LineQueue.step] at hstep
      split at hstep
      · split at hstep
        · cases hstep
          exact hs.finish _
        · cases hstep
      · cases hstep

theorem sound_of_run {events : List (LineEvent Line)}
    (hrun : (lineSystem text).run start events = some s) : Sound text s :=
  (lineSystem text).run_invariant (Sound text) (fun _ _ _ hs hstep => hs.step hstep) sound_start
    hrun

theorem pushed_begin (value : Nat) (call : LineCall) :
    (s.begin value call).pushed = s.pushed := by
  unfold LineQueue.begin
  split <;> rfl

/-- Only a push sends. -/
theorem pushed_of_step {event : LineEvent Line} (hpush : event.isPush = false)
    (hstep : s.step text event = some s') : s'.pushed = s.pushed := by
  cases event with
  | push value line => cases hpush
  | stdinEnd =>
      obtain ⟨value, -, hnext⟩ := Option.map_eq_some_iff.mp hstep
      subst hnext
      rfl
  | clone value | drop value | spawnStdinReader value | lock value =>
      simp only [LineQueue.step] at hstep
      split at hstep <;> cases hstep
      rfl
  | call value call =>
      simp only [LineQueue.step] at hstep
      split at hstep <;> cases hstep
      exact pushed_begin value call
  | receive =>
      simp only [LineQueue.step] at hstep
      split at hstep <;> cases hstep
      next call _ _ _ _ => cases call <;> rfl
  | timeOut =>
      simp only [LineQueue.step] at hstep
      split at hstep <;> cases hstep
      rfl
  | disconnected =>
      simp only [LineQueue.step] at hstep
      split at hstep
      · split at hstep <;> cases hstep
        rfl
      · cases hstep

/-! ## The end of the input -/

/-- The stdin reader has finished and every line was taken. -/
def AtEnd (s : LineQueue Line) : Prop :=
  s.stdinEnded = true ∧ s.queue = []

/-- A `take_line(None)` or a read is in progress on the value. -/
def AwaitsLine (s : LineQueue Line) (value : Nat) : Prop :=
  s.calls value = some (.takeLine none) ∨ ∃ len, s.calls value = some (.read len)

/-- The call on the value can return although no further line is sent. -/
def Unwinds (text : Line → List Char) (s : LineQueue Line) (value : Nat) : Prop :=
  ∃ events s', (∀ event ∈ events, event.isPush = false) ∧
    (lineSystem text).run s events = some s' ∧ s'.calls value = none

/-- A call that a timeout ends does not wait for a line. -/
theorem AwaitsLine.ne_timed {value : Nat} (hawait : s.AwaitsLine value) (timeout : Nat) :
    s.calls value ≠ some (.takeLine (some timeout)) := by
  intro hcall
  rcases hawait with hnone | ⟨len, hread⟩
  · rw [hcall] at hnone
    cases hnone
  · rw [hcall] at hread
    cases hread

theorem calls_begin_of_ne {value other : Nat} (hne : other ≠ value) (call : LineCall) :
    (s.begin value call).calls other = s.calls other := by
  unfold LineQueue.begin
  split
  · rfl
  · simp only [Function.update_of_ne hne]

theorem queue_begin (value : Nat) (call : LineCall) : (s.begin value call).queue = s.queue := by
  unfold LineQueue.begin
  split <;> rfl

/-- The call holds a sender of its own, so that an empty channel is not closed for it. -/
theorem Sound.step_of_awaitsLine (hs : Sound text s) {event : LineEvent Line} {value : Nat}
    (hpush : event.isPush = false) (hqueue : s.queue = []) (hawait : s.AwaitsLine value)
    (hstep : s.step text event = some s') : s'.queue = [] ∧ s'.calls value = s.calls value := by
  have hbusy : s.calls value ≠ none := by
    rcases hawait with hcall | ⟨len, hcall⟩ <;> simp [hcall]
  cases event with
  | clone other | drop other | spawnStdinReader other | lock other =>
      simp only [LineQueue.step] at hstep
      split at hstep
      · cases hstep
        exact ⟨hqueue, rfl⟩
      · cases hstep
  | stdinEnd =>
      obtain ⟨other, -, hnext⟩ := Option.map_eq_some_iff.mp hstep
      subst hnext
      exact ⟨hqueue, rfl⟩
  | push other line => cases hpush
  | call other call =>
      simp only [LineQueue.step] at hstep
      split at hstep
      · next hidle =>
          cases hstep
          have hne : value ≠ other := fun heq => hbusy (heq ▸ hidle.2.1)
          exact ⟨by rw [queue_begin, hqueue], calls_begin_of_ne hne call⟩
      · cases hstep
  | receive =>
      simp only [LineQueue.step] at hstep
      split at hstep
      · next hcons =>
          rw [hqueue] at hcons
          cases hcons
      · cases hstep
  | timeOut =>
      simp only [LineQueue.step] at hstep
      split at hstep
      · next other timeout hholder _ =>
          cases hstep
          have hne : value ≠ other := by
            intro heq
            exact hawait.ne_timed timeout (heq ▸ (holder_eq_some.mp hholder).2)
          exact ⟨hqueue, by simp only [LineQueue.finish, Function.update_of_ne hne]⟩
      · cases hstep
  | disconnected =>
      have hlive := hs.borrowed value (Option.isSome_iff_ne_none.mpr hbusy)
      simp only [LineQueue.step] at hstep
      split at hstep
      · split at hstep
        · next hnil =>
            rw [hnil] at hlive
            cases hlive
        · cases hstep
      · cases hstep

/-- Nothing but a line ends the wait. -/
theorem Sound.not_unwinds (hs : Sound text s) {value : Nat} (hqueue : s.queue = [])
    (hawait : s.AwaitsLine value) : ¬ Unwinds text s value := by
  intro ⟨events, final, hpush, hrun, hreturned⟩
  induction events generalizing s with
  | nil =>
      cases hrun
      rcases hawait with hcall | ⟨len, hcall⟩ <;> rw [hreturned] at hcall <;> cases hcall
  | cons event events ih =>
      obtain ⟨middle, hstep, hrest⟩ := (lineSystem text).run_cons_eq_some.mp hrun
      obtain ⟨hhead, htail⟩ := List.forall_mem_cons.mp hpush
      obtain ⟨hempty, hcalls⟩ := hs.step_of_awaitsLine hhead hqueue hawait hstep
      have hstill : middle.AwaitsLine value := by
        unfold AwaitsLine
        rw [hcalls]
        exact hawait
      exact ih (hs.step hstep) hempty hstill htail hrest

/-- In every run each line goes to one taker, in the order of the pushes, and a reader
returns the bytes of its lines.  The wait for a line ends at the end of the input exactly
when there is none. -/
theorem lines_delivered_and_unwinding_iff {events : List (LineEvent Line)}
    (hrun : (lineSystem text).run start events = some s) :
    s.pushed = s.delivered.map Delivery.line ++ s.queue ∧
      (∀ value, s.output value ++ s.pending value =
        (s.readBy value).flatMap (lineBytes text)) ∧
      ((s.AtEnd → ∀ value, s.AwaitsLine value → Unwinds text s value) ↔
        ¬ (s.AtEnd ∧ ∃ value, s.AwaitsLine value)) := by
  have hs := sound_of_run hrun
  refine ⟨hs.order, hs.stream, ?_, ?_⟩
  · intro hunwinds ⟨hend, value, hawait⟩
    exact hs.not_unwinds hend.2 hawait (hunwinds hend value hawait)
  · intro hnone hend value hawait
    exact absurd ⟨hend, value, hawait⟩ hnone

/-- A prompt of the agent takes one line and the flow reads the next one in pieces. -/
def bothPrompts : List (LineEvent String) :=
  [.clone 0, .push 0 "y", .push 0 "no", .call 0 (.takeLine (some 25)), .lock 0, .receive,
    .call 1 (.read 1), .lock 1, .receive, .call 1 (.read 5)]

theorem lines_delivered_to_both_prompts :
    ∃ s, (lineSystem String.toList).run start bothPrompts = some s ∧
      s.pushed = s.delivered.map Delivery.line ++ s.queue ∧
      (∀ value, s.output value ++ s.pending value =
        (s.readBy value).flatMap (lineBytes String.toList)) ∧
      ((s.AtEnd → ∀ value, s.AwaitsLine value → Unwinds String.toList s value) ↔
        ¬ (s.AtEnd ∧ ∃ value, s.AwaitsLine value)) := by
  obtain ⟨s, hrun⟩ : ∃ s, (lineSystem String.toList).run start bothPrompts = some s := ⟨_, rfl⟩
  exact ⟨s, hrun, lines_delivered_and_unwinding_iff hrun⟩

/-- The set-up of `run_pair`, an operator who closes stdin, and the read of the flow. -/
def closedStdin : List (LineEvent String) :=
  [.clone 0, .clone 1, .spawnStdinReader 2, .clone 1, .stdinEnd, .call 3 (.read 8192), .lock 3]

/-- The read of the flow waits for good: its own value is a sender. -/
theorem read_waits_after_closedStdin :
    ∃ s, (lineSystem String.toList).run start closedStdin = some s ∧
      s.AtEnd ∧ s.AwaitsLine 3 ∧ ¬ Unwinds String.toList s 3 := by
  obtain ⟨s, hrun, hend, hawait⟩ : ∃ s, (lineSystem String.toList).run start closedStdin = some s ∧
      s.AtEnd ∧ s.AwaitsLine 3 := ⟨_, rfl, ⟨rfl, rfl⟩, .inr ⟨8192, rfl⟩⟩
  exact ⟨s, hrun, hend, hawait, (sound_of_run hrun).not_unwinds hend.2 hawait⟩

end LineQueue

end Syauth.Cli
