import Syauth.Core.Frame
import Syauth.Transition.System
import Mathlib.Logic.Function.Basic

/-! # The notification channel of a peer

`crates/syauth-transport/src/peripheral/notification.rs`.  A slot holds the session of
the phone that is subscribed now.  Senders and the task that waits for a session to close
clone it out of the slot, wait without the lock, and clear the slot afterwards if it still
holds the session they waited on.  A step is what a task does under one hold of the lock,
or the return of a sink; a future may be dropped at every such point.
-/

namespace Syauth.Transport.Notification

/-- The identity of an `Arc<dyn NotificationSink>`. -/
abbrev SessionId := Nat
abbrev TaskId := Nat

inductive IoError where
  | notConnected
  | other (reason : String)
  deriving DecidableEq

abbrev IoResult := Except IoError Unit

/-- Where a call of the channel stands. -/
inductive Task where
  | sending (frame : Bytes)
  | writing (writer : SessionId) (frame : Bytes)
  | discarding (writer : SessionId) (err : IoError)
  | sent (result : IoResult)
  | waiting
  /-- `std::future::pending` on an empty slot. -/
  | parked
  | watching (writer : SessionId)
  | clearing (writer : SessionId) (result : IoResult)
  | closed (result : IoResult)
  | installing (writer : SessionId)
  | installed
  | dropped
  deriving DecidableEq

/-- The call has returned, or its future is gone. -/
def Task.finished : Task → Bool
  | .sent _ | .closed _ | .installed | .dropped => true
  | _ => false

structure Channel where
  slot : Option SessionId
  tasks : TaskId → Option Task

namespace Channel

def new : Channel := ⟨none, fun _ => none⟩

def put (s : Channel) (c : TaskId) (task : Task) : Channel :=
  { s with tasks := Function.update s.tasks c (some task) }

def clearIfCurrent (s : Channel) (writer : SessionId) : Channel :=
  if s.slot = some writer then { s with slot := none } else s

end Channel

inductive Call where
  | send (frame : Bytes)
  | waitClosed
  | install (writer : SessionId)
  deriving DecidableEq

def Call.entry : Call → Task
  | .send frame => .sending frame
  | .waitClosed => .waiting
  | .install writer => .installing writer

inductive Event where
  | call (c : TaskId) (call : Call)
  | lock (c : TaskId)
  | written (c : TaskId) (result : IoResult)
  | closed (c : TaskId) (result : IoResult)
  | cancel (c : TaskId)
  deriving DecidableEq

/-- What a task does under one hold of the lock. -/
def lockStep (s : Channel) (c : TaskId) : Task → Option Channel
  | .sending frame =>
      match s.slot with
      | some writer => some (s.put c (.writing writer frame))
      | none => some (s.put c (.sent (.error .notConnected)))
  | .discarding writer err => some ((s.clearIfCurrent writer).put c (.sent (.error err)))
  | .waiting =>
      match s.slot with
      | some writer => some (s.put c (.watching writer))
      | none => some (s.put c .parked)
  | .clearing writer result => some ((s.clearIfCurrent writer).put c (.closed result))
  | .installing writer => some ({ s with slot := some writer }.put c .installed)
  | _ => none

def step (s : Channel) : Event → Option Channel
  | .call c call =>
      match s.tasks c with
      | none => some (s.put c call.entry)
      | some _ => none
  | .lock c => (s.tasks c).bind (lockStep s c)
  | .written c result =>
      match s.tasks c, result with
      | some (.writing _ _), .ok () => some (s.put c (.sent (.ok ())))
      | some (.writing writer _), .error err => some (s.put c (.discarding writer err))
      | _, _ => none
  | .closed c result =>
      match s.tasks c with
      | some (.watching writer) => some (s.put c (.clearing writer result))
      | _ => none
  | .cancel c =>
      match s.tasks c with
      | some task => if task.finished then none else some (s.put c .dropped)
      | none => none

def channel : Transition.System Channel Event where
  start s := s = .new
  step := step

/-! ## What one step does -/

variable {s t : Channel} {c : TaskId}

/-- The transitions of a channel, with the position of the task that moved. -/
inductive Step (s : Channel) : Event → Channel → Prop
  | called {c : TaskId} {call : Call} (hnew : s.tasks c = none) :
      Step s (.call c call) (s.put c call.entry)
  | picked {c : TaskId} {frame : Bytes} {writer : SessionId}
      (htask : s.tasks c = some (.sending frame)) (hslot : s.slot = some writer) :
      Step s (.lock c) (s.put c (.writing writer frame))
  | refused {c : TaskId} {frame : Bytes} (htask : s.tasks c = some (.sending frame))
      (hslot : s.slot = none) : Step s (.lock c) (s.put c (.sent (.error .notConnected)))
  | discarded {c : TaskId} {writer : SessionId} {err : IoError}
      (htask : s.tasks c = some (.discarding writer err)) :
      Step s (.lock c) ((s.clearIfCurrent writer).put c (.sent (.error err)))
  | watched {c : TaskId} {writer : SessionId} (htask : s.tasks c = some .waiting)
      (hslot : s.slot = some writer) : Step s (.lock c) (s.put c (.watching writer))
  | parked {c : TaskId} (htask : s.tasks c = some .waiting) (hslot : s.slot = none) :
      Step s (.lock c) (s.put c .parked)
  | cleared {c : TaskId} {writer : SessionId} {result : IoResult}
      (htask : s.tasks c = some (.clearing writer result)) :
      Step s (.lock c) ((s.clearIfCurrent writer).put c (.closed result))
  | installed {c : TaskId} {writer : SessionId} (htask : s.tasks c = some (.installing writer)) :
      Step s (.lock c) ({ s with slot := some writer }.put c .installed)
  | wrote {c : TaskId} {writer : SessionId} {frame : Bytes}
      (htask : s.tasks c = some (.writing writer frame)) :
      Step s (.written c (.ok ())) (s.put c (.sent (.ok ())))
  | failed {c : TaskId} {writer : SessionId} {frame : Bytes} {err : IoError}
      (htask : s.tasks c = some (.writing writer frame)) :
      Step s (.written c (.error err)) (s.put c (.discarding writer err))
  | closed {c : TaskId} {writer : SessionId} {result : IoResult}
      (htask : s.tasks c = some (.watching writer)) :
      Step s (.closed c result) (s.put c (.clearing writer result))
  | dropped {c : TaskId} {task : Task} (htask : s.tasks c = some task)
      (hunfinished : task.finished = false) : Step s (.cancel c) (s.put c .dropped)

theorem lockStep_sound {task : Task} (htask : s.tasks c = some task)
    (hstep : lockStep s c task = some t) : Step s (.lock c) t := by
  cases task with
  | sending frame =>
      simp only [lockStep] at hstep
      split at hstep
      · next hslot =>
          cases hstep
          exact .picked htask hslot
      · next hslot =>
          cases hstep
          exact .refused htask hslot
  | discarding writer err =>
      cases hstep
      exact .discarded htask
  | waiting =>
      simp only [lockStep] at hstep
      split at hstep
      · next hslot =>
          cases hstep
          exact .watched htask hslot
      · next hslot =>
          cases hstep
          exact .parked htask hslot
  | clearing writer result =>
      cases hstep
      exact .cleared htask
  | installing writer =>
      cases hstep
      exact .installed htask
  | _ => cases hstep

theorem step_sound {event : Event} (hstep : channel.step s event = some t) : Step s event t := by
  change step s event = some t at hstep
  unfold step at hstep
  split at hstep
  · split at hstep
    · next hnew =>
        cases hstep
        exact .called hnew
    · cases hstep
  · obtain ⟨task, htask, hlock⟩ := Option.bind_eq_some_iff.mp hstep
    exact lockStep_sound htask hlock
  · split at hstep
    · next htask =>
        cases hstep
        exact .wrote htask
    · next htask =>
        cases hstep
        exact .failed htask
    · cases hstep
  · split at hstep
    · next htask =>
        cases hstep
        exact .closed htask
    · cases hstep
  · split at hstep
    · next task htask =>
        split at hstep
        · cases hstep
        · next hunfinished =>
            rw [Bool.not_eq_true] at hunfinished
            cases hstep
            exact .dropped htask hunfinished
    · cases hstep

theorem slot_put {task : Task} : (s.put c task).slot = s.slot := rfl

theorem tasks_put_self {task : Task} : (s.put c task).tasks c = some task :=
  Function.update_self _ _ _

theorem tasks_clearIfCurrent {writer : SessionId} :
    (s.clearIfCurrent writer).tasks = s.tasks := by
  unfold Channel.clearIfCurrent
  split <;> rfl

theorem tasks_put_clearIfCurrent {writer : SessionId} {task : Task} :
    ((s.clearIfCurrent writer).put c task).tasks = Function.update s.tasks c (some task) := by
  rw [Channel.put, tasks_clearIfCurrent]

/-- A step moves one task that has not finished. -/
theorem Step.moves {event : Event} (hstep : Step s event t) :
    ∃ c task, t.tasks = Function.update s.tasks c (some task) ∧
      ∀ old, s.tasks c = some old → old.finished = false := by
  cases hstep with
  | called hnew =>
      refine ⟨_, _, rfl, fun old hold => ?_⟩
      rw [hnew] at hold
      cases hold
  | discarded htask | cleared htask =>
      refine ⟨_, _, tasks_put_clearIfCurrent, fun old hold => ?_⟩
      rw [htask] at hold
      cases hold
      rfl
  | dropped htask hunfinished =>
      refine ⟨_, _, rfl, fun old hold => ?_⟩
      rw [htask] at hold
      cases hold
      exact hunfinished
  | picked htask | refused htask | watched htask | parked htask | installed htask | wrote htask
  | failed htask | closed htask =>
      refine ⟨_, _, rfl, fun old hold => ?_⟩
      rw [htask] at hold
      cases hold
      rfl

theorem Step.tasks_of_finished {event : Event} {task : Task} (hstep : Step s event t)
    (htask : s.tasks c = some task) (hfinished : task.finished = true) :
    t.tasks c = some task := by
  obtain ⟨moved, next, htasks, hmoved⟩ := hstep.moves
  have hne : c ≠ moved := by
    intro hsame
    subst hsame
    rw [hmoved task htask] at hfinished
    cases hfinished
  rw [htasks, Function.update_of_ne hne]
  exact htask

/-- Only the session itself is cleared. -/
theorem slot_clearIfCurrent (s : Channel) (writer : SessionId) :
    (s.clearIfCurrent writer).slot = s.slot ∨
      s.slot = some writer ∧ (s.clearIfCurrent writer).slot = none := by
  unfold Channel.clearIfCurrent
  split
  · next hcurrent => exact .inr ⟨hcurrent, rfl⟩
  · exact .inl rfl

/-! ## What is observed -/

inductive Note where
  /-- A send reads the slot. -/
  | read (c : TaskId) (frame : Bytes) (slot : Option SessionId)
  /-- The sink of a session is done with the frame of a send. -/
  | wrote (c : TaskId) (writer : SessionId) (frame : Bytes)
  /-- A session has closed, or has failed to send. -/
  | ended (writer : SessionId)
  deriving DecidableEq

def observe (s : Channel) : Event → List Note
  | .lock c =>
      match s.tasks c with
      | some (.sending frame) => [.read c frame s.slot]
      | _ => []
  | .written c result =>
      match s.tasks c, result with
      | some (.writing writer frame), .ok () => [.wrote c writer frame]
      | some (.writing writer frame), .error _ => [.wrote c writer frame, .ended writer]
      | _, _ => []
  | .closed c _ =>
      match s.tasks c with
      | some (.watching writer) => [.ended writer]
      | _ => []
  | _ => []

/-- What was observed of a task, by its position. -/
def Position (notes : List Note) (c : TaskId) : Option Task → Prop
  | none | some (.sending _) => ∀ frame slot, .read c frame slot ∉ notes
  | some (.writing writer frame) => .read c frame (some writer) ∈ notes
  | some (.discarding writer _) | some (.clearing writer _) => .ended writer ∈ notes
  | _ => True

structure Recorded (notes : List Note) (s : Channel) : Prop where
  position : ∀ c, Position notes c (s.tasks c)
  wrote : ∀ c writer frame, .wrote c writer frame ∈ notes → .read c frame (some writer) ∈ notes
  once : ∀ c frame slot frame' slot', .read c frame slot ∈ notes →
    .read c frame' slot' ∈ notes → frame' = frame ∧ slot' = slot

/-- A note about a read is about a task that has not read before. -/
structure Extends (notes more : List Note) (c : TaskId) : Prop where
  reads : ∀ c' frame slot, .read c' frame slot ∈ more → c' = c
  wrote : ∀ c' writer frame, .wrote c' writer frame ∈ more →
    .read c' frame (some writer) ∈ notes
  once : ∀ frame slot, .read c frame slot ∈ more → (∀ frame' slot', .read c frame' slot' ∉ notes) ∧
    ∀ frame' slot', .read c frame' slot' ∈ more → frame' = frame ∧ slot' = slot

theorem Position.mono {notes more : List Note} {task : Option Task}
    (hposition : Position notes c task) (hreads : ∀ frame slot, .read c frame slot ∉ more) :
    Position (notes ++ more) c task := by
  unfold Position at hposition ⊢
  split at hposition
  · intro frame slot hmem
    rcases List.mem_append.mp hmem with hold | hnew
    · exact hposition frame slot hold
    · exact hreads frame slot hnew
  · intro frame slot hmem
    rcases List.mem_append.mp hmem with hold | hnew
    · exact hposition frame slot hold
    · exact hreads frame slot hnew
  · exact List.mem_append_left _ hposition
  · exact List.mem_append_left _ hposition
  · exact List.mem_append_left _ hposition
  · trivial

theorem Recorded.extend {notes more : List Note} {task : Task} (hrecorded : Recorded notes s)
    (hextends : Extends notes more c) (htasks : t.tasks = Function.update s.tasks c (some task))
    (hposition : Position (notes ++ more) c (some task)) : Recorded (notes ++ more) t := by
  refine ⟨fun c' => ?_, ?_, ?_⟩
  · rw [htasks]
    by_cases hsame : c' = c
    · subst hsame
      rw [Function.update_self]
      exact hposition
    · rw [Function.update_of_ne hsame]
      refine (hrecorded.position c').mono fun frame slot hmem => ?_
      exact hsame (hextends.reads c' frame slot hmem)
  · intro c' writer frame hmem
    rcases List.mem_append.mp hmem with hold | hnew
    · exact List.mem_append_left _ (hrecorded.wrote c' writer frame hold)
    · exact List.mem_append_left _ (hextends.wrote c' writer frame hnew)
  · intro c' frame slot frame' slot' hmem hmem'
    rcases List.mem_append.mp hmem with hold | hnew
    · rcases List.mem_append.mp hmem' with hold' | hnew'
      · exact hrecorded.once c' frame slot frame' slot' hold hold'
      · obtain rfl := hextends.reads c' frame' slot' hnew'
        exact absurd hold ((hextends.once frame' slot' hnew').1 frame slot)
    · obtain rfl := hextends.reads c' frame slot hnew
      rcases List.mem_append.mp hmem' with hold' | hnew'
      · exact absurd hold' ((hextends.once frame slot hnew).1 frame' slot')
      · exact (hextends.once frame slot hnew).2 frame' slot' hnew'

theorem Extends.of_no_read {notes more : List Note}
    (hreads : ∀ c' frame slot, .read c' frame slot ∉ more)
    (hwrote : ∀ c' writer frame, .wrote c' writer frame ∈ more →
      .read c' frame (some writer) ∈ notes) : Extends notes more c :=
  ⟨fun c' frame slot hmem => absurd hmem (hreads c' frame slot), hwrote,
    fun frame slot hmem => absurd hmem (hreads c frame slot)⟩

theorem Extends.nil (notes : List Note) : Extends notes [] c :=
  .of_no_read (fun _ _ _ hmem => (nomatch hmem)) fun _ _ _ hmem => (nomatch hmem)

theorem Extends.ended (notes : List Note) (writer : SessionId) :
    Extends notes [.ended writer] c :=
  .of_no_read (fun _ _ _ hmem => Note.noConfusion (List.mem_singleton.mp hmem))
    fun _ _ _ hmem => Note.noConfusion (List.mem_singleton.mp hmem)

theorem Extends.read {notes : List Note} {frame : Bytes} {slot : Option SessionId}
    (hunread : ∀ frame slot, .read c frame slot ∉ notes) :
    Extends notes [.read c frame slot] c := by
  refine ⟨fun c' frame' slot' hmem => ?_, fun c' writer frame' hmem => ?_, ?_⟩
  · exact (Note.read.inj (List.mem_singleton.mp hmem)).1
  · exact Note.noConfusion (List.mem_singleton.mp hmem)
  · intro frame' slot' hmem
    refine ⟨hunread, fun frame'' slot'' hmem' => ?_⟩
    obtain ⟨-, hframe, hslot⟩ := Note.read.inj (List.mem_singleton.mp hmem)
    obtain ⟨-, hframe', hslot'⟩ := Note.read.inj (List.mem_singleton.mp hmem')
    exact ⟨hframe'.trans hframe.symm, hslot'.trans hslot.symm⟩

theorem Extends.wrote_first {notes more : List Note} {writer : SessionId} {frame : Bytes}
    (hread : .read c frame (some writer) ∈ notes) (hmore : Extends notes more c)
    (hquiet : ∀ c' frame slot, .read c' frame slot ∉ more) :
    Extends notes (.wrote c writer frame :: more) c := by
  refine .of_no_read (fun c' frame' slot hmem => ?_) fun c' writer' frame' hmem => ?_
  · rcases List.mem_cons.mp hmem with hhead | htail
    · cases hhead
    · exact hquiet c' frame' slot htail
  · rcases List.mem_cons.mp hmem with hhead | htail
    · obtain ⟨rfl, rfl, rfl⟩ := Note.wrote.inj hhead
      exact hread
    · exact hmore.wrote c' writer' frame' htail

theorem Recorded.step {notes : List Note} {event : Event} (hrecorded : Recorded notes s)
    (hstep : Step s event t) : Recorded (notes ++ observe s event) t := by
  cases hstep with
  | @called c call hnew =>
      have hunread : ∀ frame slot, .read c frame slot ∉ notes := by
        have hposition := hrecorded.position c
        rwa [hnew] at hposition
      have hquiet : observe s (.call c call) = [] := rfl
      refine hrecorded.extend (c := c) (.nil notes) rfl ?_
      rw [hquiet, List.append_nil]
      cases call with
      | send frame => exact hunread
      | waitClosed => trivial
      | install writer => trivial
  | @picked c frame writer htask hslot =>
      have hunread := hrecorded.position c
      rw [htask] at hunread
      simp only [observe, htask, hslot]
      refine hrecorded.extend (.read hunread) rfl ?_
      exact List.mem_append_right _ List.mem_cons_self
  | @refused c frame htask hslot =>
      have hunread := hrecorded.position c
      rw [htask] at hunread
      simp only [observe, htask]
      exact hrecorded.extend (.read hunread) rfl trivial
  | @discarded c writer err htask =>
      simp only [observe, htask]
      exact hrecorded.extend (.nil notes) tasks_put_clearIfCurrent trivial
  | @watched c writer htask hslot =>
      simp only [observe, htask]
      exact hrecorded.extend (.nil notes) rfl trivial
  | @parked c htask hslot =>
      simp only [observe, htask]
      exact hrecorded.extend (.nil notes) rfl trivial
  | @cleared c writer result htask =>
      simp only [observe, htask]
      exact hrecorded.extend (.nil notes) tasks_put_clearIfCurrent trivial
  | @installed c writer htask =>
      simp only [observe, htask]
      exact hrecorded.extend (.nil notes) rfl trivial
  | @wrote c writer frame htask =>
      have hread := hrecorded.position c
      rw [htask] at hread
      simp only [observe, htask]
      exact hrecorded.extend (.wrote_first hread (.nil notes) fun _ _ _ hmem => (nomatch hmem))
        rfl trivial
  | @failed c writer frame err htask =>
      have hread := hrecorded.position c
      rw [htask] at hread
      simp only [observe, htask]
      refine hrecorded.extend (.wrote_first hread (.ended notes writer) ?_) rfl ?_
      · exact fun _ _ _ hmem => Note.noConfusion (List.mem_singleton.mp hmem)
      · exact List.mem_append_right _ (List.mem_cons_of_mem _ List.mem_cons_self)
  | @closed c writer result htask =>
      simp only [observe, htask]
      refine hrecorded.extend (.ended notes writer) rfl ?_
      exact List.mem_append_right _ List.mem_cons_self
  | @dropped c task htask hunfinished =>
      exact hrecorded.extend (.nil notes) rfl trivial

theorem recorded_new : Recorded [] .new :=
  ⟨fun _ _ _ hmem => (nomatch hmem), fun _ _ _ hmem => (nomatch hmem),
    fun _ _ _ _ _ hmem => (nomatch hmem)⟩

theorem recorded_run {events : List Event} {final : Channel}
    (hrun : channel.run .new events = some final) :
    Recorded (channel.trace observe .new events) final :=
  channel.run_trace_invariant observe Recorded
    (fun _ _ _ _ hrecorded hnext => hrecorded.step (step_sound hnext)) recorded_new hrun

/-! ## After the slot was cleared -/

/-- No session is installed in the step. -/
def NoInstall (s : Channel) (event : Event) : Prop :=
  ∀ c writer, event = .lock c → s.tasks c ≠ some (.installing writer)

/-- The slot is empty, and every send that has read it since has returned. -/
structure Disconnected (notes : List Note) (s : Channel) : Prop where
  slot : s.slot = none
  reads : ∀ c frame slot, .read c frame slot ∈ notes →
    slot = none ∧ s.tasks c = some (.sent (.error .notConnected))

theorem slot_of_noInstall {event : Event} (hnone : s.slot = none) (hguard : NoInstall s event)
    (hstep : Step s event t) : t.slot = none := by
  have hclear : ∀ writer, (s.clearIfCurrent writer).slot = none := by
    intro writer
    rcases slot_clearIfCurrent s writer with hsame | ⟨-, hcleared⟩
    · rw [hsame, hnone]
    · exact hcleared
  cases hstep with
  | discarded htask => exact hclear _
  | cleared htask => exact hclear _
  | installed htask => exact absurd htask (hguard _ _ rfl)
  | _ => exact hnone

theorem Disconnected.step {notes : List Note} {event : Event} (hempty : Disconnected notes s)
    (hguard : NoInstall s event) (hstep : Step s event t) :
    Disconnected (notes ++ observe s event) t := by
  refine ⟨slot_of_noInstall hempty.slot hguard hstep, ?_⟩
  intro c' frame' slot' hmem
  rcases List.mem_append.mp hmem with hold | hnew
  · obtain ⟨hslot, htask⟩ := hempty.reads c' frame' slot' hold
    exact ⟨hslot, hstep.tasks_of_finished htask rfl⟩
  · cases hstep with
    | @picked c frame writer htask hslot =>
        rw [hempty.slot] at hslot
        cases hslot
    | @refused c frame htask hslot =>
        simp only [observe, htask, List.mem_singleton, Note.read.injEq] at hnew
        obtain ⟨rfl, -, rfl⟩ := hnew
        exact ⟨hslot, tasks_put_self⟩
    | called => cases hnew
    | dropped => cases hnew
    | discarded htask | watched htask | parked htask | cleared htask | installed htask
    | wrote htask | failed htask | closed htask =>
        simp [observe, htask] at hnew

theorem disconnected_of_clearing {writer : SessionId} {result : IoResult}
    (htask : s.tasks c = some (.clearing writer result)) (hslot : s.slot = some writer)
    (hstep : Step s (.lock c) t) : Disconnected [] t := by
  refine ⟨?_, fun _ _ _ hmem => (nomatch hmem)⟩
  cases hstep with
  | @cleared _ writer' result' htask' =>
      rw [htask'] at htask
      cases htask
      rw [slot_put, Channel.clearIfCurrent, if_pos hslot]
  | picked htask' | refused htask' | discarded htask' | watched htask' | parked htask'
  | installed htask' =>
      rw [htask'] at htask
      cases htask

/-! ## The promise of the channel -/

/-- What holds of a channel after a run, with the notes of the run. -/
structure KeepsSessions (notes : List Note) (s : Channel) : Prop where
  /-- The slot changes by an install, or when its own session has closed or failed. -/
  clears : ∀ event t, channel.step s event = some t → t.slot ≠ s.slot →
    (∃ c writer, event = .lock c ∧ s.tasks c = some (.installing writer) ∧ t.slot = some writer) ∨
      ∃ writer, s.slot = some writer ∧ t.slot = none ∧ .ended writer ∈ notes
  /-- A frame goes to the session that the send has read, and it reads the slot once. -/
  writes : ∀ c writer frame, .wrote c writer frame ∈ notes →
    .read c frame (some writer) ∈ notes ∧
      ∀ frame' slot, .read c frame' slot ∈ notes → frame' = frame ∧ slot = some writer
  /-- Once the closure of the current session is processed, sends are refused until the
  next install. -/
  refuses : ∀ c writer result t events final, s.tasks c = some (.clearing writer result) →
    s.slot = some writer → channel.step s (.lock c) = some t →
      channel.run t events = some final → channel.AllSteps NoInstall t events →
        final.slot = none ∧ ∀ c' frame slot, .read c' frame slot ∈ channel.trace observe t events →
          slot = none ∧ final.tasks c' = some (.sent (.error .notConnected))

theorem Recorded.clears {notes : List Note} {event : Event} (hrecorded : Recorded notes s)
    (hstep : Step s event t) (hchanged : t.slot ≠ s.slot) :
    (∃ c writer, event = .lock c ∧ s.tasks c = some (.installing writer) ∧ t.slot = some writer) ∨
      ∃ writer, s.slot = some writer ∧ t.slot = none ∧ .ended writer ∈ notes := by
  cases hstep with
  | @installed c writer htask => exact .inl ⟨c, writer, rfl, htask, rfl⟩
  | @discarded c writer err htask | @cleared c writer result htask =>
      have hended := hrecorded.position c
      rw [htask] at hended
      rcases slot_clearIfCurrent s writer with hsame | ⟨hslot, hcleared⟩
      · exact absurd hsame hchanged
      · exact .inr ⟨writer, hslot, hcleared, hended⟩
  | _ => exact absurd rfl hchanged

theorem notificationChannel_keeps_sessions {events : List Event} {final : Channel}
    (hrun : channel.run .new events = some final) :
    KeepsSessions (channel.trace observe .new events) final := by
  have hrecorded := recorded_run hrun
  refine ⟨fun event t hstep hchanged => hrecorded.clears (step_sound hstep) hchanged, ?_, ?_⟩
  · intro c writer frame hwrote
    have hread := hrecorded.wrote c writer frame hwrote
    refine ⟨hread, fun frame' slot hmem => ?_⟩
    exact hrecorded.once c frame (some writer) frame' slot hread hmem
  · intro c writer result t rest last htask hslot hstep hrest hguard
    have hclosed := channel.run_trace_invariant_of_allSteps NoInstall observe Disconnected
      (fun _ _ _ _ hempty hguard hnext => hempty.step hguard (step_sound hnext))
      (disconnected_of_clearing htask hslot (step_sound hstep)) hguard hrest
    exact ⟨hclosed.slot, hclosed.reads⟩

/-! ## A session that closes after its replacement -/

/-- Session 1 is installed and watched, session 2 replaces it, and session 1 closes. -/
def replacedThenClosed : List Event :=
  [.call 0 (.install 1), .lock 0, .call 1 .waitClosed, .lock 1, .call 2 (.install 2), .lock 2,
    .closed 1 (.ok ()), .lock 1, .call 3 (.send [7]), .lock 3, .written 3 (.ok ()),
    .call 4 .waitClosed, .lock 4, .closed 4 (.ok ())]

theorem notificationChannel_keeps_sessions_replaced :
    ∃ final, channel.run .new replacedThenClosed = some final ∧ final.slot = some 2 ∧
      final.tasks 4 = some (.clearing 2 (.ok ())) ∧
        KeepsSessions [.ended 1, .read 3 [7] (some 2), .wrote 3 2 [7], .ended 2] final := by
  have hshown : (channel.run .new replacedThenClosed).map
      (fun final => (final.slot, final.tasks 4)) =
        some (some 2, some (.clearing 2 (.ok ()))) := by
    decide
  have htrace : channel.trace observe .new replacedThenClosed =
      [.ended 1, .read 3 [7] (some 2), .wrote 3 2 [7], .ended 2] := by
    decide
  obtain ⟨final, hrun, hfinal⟩ := Option.map_eq_some_iff.mp hshown
  obtain ⟨hslot, htask⟩ := Prod.mk.inj hfinal
  refine ⟨final, hrun, hslot, htask, ?_⟩
  rw [← htrace]
  exact notificationChannel_keeps_sessions hrun

end Syauth.Transport.Notification
