import Syauth.Transition.FifoLock
import Syauth.Transport.Registration

/-! # Calls of the peripheral that run at the same time

The operations of `PersistentPeripheral` as tasks that stop at every lock and at
every call to the outside.  `tokio::sync::Mutex` grants a lock in the order in
which the tasks asked for it.
-/

namespace Syauth.Transport

open Transition.FifoLock

abbrev TaskId := Nat

/-- The mutexes of the peripheral that its operations share. -/
inductive Lock where
  | peers
  | responseRx (peerId : String)
  | appHandle
  deriving DecidableEq

inductive Operation where
  | notifyChallenge (peerId : String) (frame : Bytes)
  | waitForResponse (peerId : String) (deadlineMs : Nat)
  | addPeer (peerId : String) (bondKey : BondKey)
  | removePeer (peerId : String)
  deriving DecidableEq

/-- Where a task stands: what it does when it moves next. -/
inductive Phase where
  | notifyLookup (peerId : String) (frame : Bytes)
  | notifyDrain (peerId : String) (frame : Bytes)
  | notifySend (peerId : String) (frame : Bytes)
  | waitLookup (peerId : String) (deadlineMs : Nat)
  | waitRecv (peerId : String) (deadlineMs : Nat)
  | addCheck (peerId : String) (bondKey : BondKey)
  | addLockHandle (peerId : String) (bondKey : BondKey)
  | addDropHandle (peerId : String) (bondKey : BondKey)
  | addServe (peerId : String) (bondKey : BondKey)
  | addStoreHandle (peerId : String) (bondKey : BondKey)
  | addKick (peerId : String) (bondKey : BondKey)
  | addInsert (peerId : String) (bondKey : BondKey)
  | removeEntry (peerId : String)
  | removeDropHandle
  | removeReturn
  | returned (result : Except PeripheralError (Option Bytes))

/-- The first thing an operation does is to lock the peers map. -/
def Operation.enter : Operation → Phase
  | .notifyChallenge peerId frame => .notifyLookup peerId frame
  | .waitForResponse peerId deadlineMs => .waitLookup peerId deadlineMs
  | .addPeer peerId bondKey => .addCheck peerId bondKey
  | .removePeer peerId => .removeEntry peerId

/-- The locks a task has asked for.  It holds all but the last, which it may still be
waiting for. -/
def Phase.locks : Phase → List Lock
  | .notifyLookup .. => [.peers]
  | .notifyDrain peerId _ => [.peers, .responseRx peerId]
  | .notifySend .. => []
  | .waitLookup .. => [.peers]
  | .waitRecv peerId _ => [.peers, .responseRx peerId]
  | .addCheck .. => [.peers]
  | .addLockHandle .. => []
  | .addDropHandle .. => [.appHandle]
  | .addServe .. => []
  | .addStoreHandle .. => [.appHandle]
  | .addKick .. => []
  | .addInsert .. => [.peers]
  | .removeEntry .. => [.peers]
  | .removeDropHandle => [.peers, .appHandle]
  | .removeReturn => [.peers]
  | .returned _ => []

/-- What the locks protect: the fields of the peripheral and the response channels. -/
structure Shared where
  peripheral : PersistentPeripheral
  responses : String → List Bytes

/-- What the outside answers to a move: nothing is asked, the result of a call, or that
the deadline has passed. -/
inductive Answer where
  | proceed
  | result (outcome : Except String Unit)
  | elapsed

variable (prim : Primitives)

/-- One move of a task that holds its locks. -/
def advance (shared : Shared) : Phase → Answer → Option (Phase × Shared)
  | .notifyLookup peerId frame, .proceed =>
      if peerId ∈ shared.peripheral.peers then some (.notifyDrain peerId frame, shared)
      else some (.returned (.error (.unknownPeer peerId)), shared)
  | .notifyDrain peerId frame, .proceed =>
      some (.notifySend peerId frame,
        { shared with responses := Function.update shared.responses peerId [] })
  | .notifySend _ _, .result (.ok ()) => some (.returned (.ok none), shared)
  | .notifySend _ _, .result (.error err) =>
      some (.returned (.error (.backend ("notify_challenge write: " ++ err))), shared)
  | .waitLookup peerId deadlineMs, .proceed =>
      if peerId ∈ shared.peripheral.peers then some (.waitRecv peerId deadlineMs, shared)
      else some (.returned (.error (.unknownPeer peerId)), shared)
  | .waitRecv peerId _, .proceed =>
      match shared.responses peerId with
      | [] => none
      | bytes :: rest =>
          some (.returned (.ok (some bytes)),
            { shared with responses := Function.update shared.responses peerId rest })
  | .waitRecv peerId deadlineMs, .elapsed =>
      -- `timeout` looks at the channel once more before it gives up.
      if shared.responses peerId = [] then
        some (.returned (.error (.responseTimeout peerId (min deadlineMs (2 ^ 64 - 1)))), shared)
      else none
  | .addCheck peerId bondKey, .proceed =>
      if peerId ∈ shared.peripheral.peers then
        some (.returned (.error (.peerAlreadyAdded peerId)), shared)
      else some (.addLockHandle peerId bondKey, shared)
  | .addLockHandle peerId bondKey, .proceed => some (.addDropHandle peerId bondKey, shared)
  | .addDropHandle peerId bondKey, .proceed =>
      some (.addServe peerId bondKey,
        { shared with peripheral := shared.peripheral.dropAppHandle })
  | .addServe peerId bondKey, .result (.ok ()) => some (.addStoreHandle peerId bondKey, shared)
  | .addServe _ _, .result (.error err) =>
      some (.returned (.error (.backend ("serve_gatt_application: " ++ err))), shared)
  | .addStoreHandle peerId bondKey, .proceed =>
      some (.addKick peerId bondKey,
        { shared with
          peripheral := shared.peripheral.storeAppHandle
            [PersistentPeripheral.peerService prim bondKey] })
  | .addKick peerId bondKey, .proceed => some (.addInsert peerId bondKey, shared)
  | .addInsert peerId bondKey, .proceed =>
      some (.returned (.ok none),
        { shared with
          peripheral := shared.peripheral.insertPeer peerId bondKey
          responses := Function.update shared.responses peerId [] })
  | .removeEntry peerId, .proceed =>
      if peerId ∈ shared.peripheral.peers then
        some (.removeDropHandle,
          { shared with peripheral := shared.peripheral.erasePeer peerId })
      else some (.returned (.error (.unknownPeer peerId)), shared)
  | .removeDropHandle, .proceed =>
      some (.removeReturn, { shared with peripheral := shared.peripheral.dropAppHandle })
  | .removeReturn, .proceed => some (.returned (.ok none), shared)
  | _, _ => none

/-! ## The system -/

structure State where
  shared : Shared
  queues : Queues Lock TaskId
  tasks : TaskId → Option Phase

inductive Event where
  | call (t : TaskId) (op : Operation)
  | move (t : TaskId) (answer : Answer)
  /-- The response task of a peer puts a frame into its channel. -/
  | deliver (peerId : String) (bytes : Bytes)

/-- The task an event is a step of. -/
def Event.task : Event → Option TaskId
  | .call t _ => some t
  | .move t _ => some t
  | .deliver _ _ => none

/-- The locks of a task; none before it is called. -/
def State.locks (s : State) (t : TaskId) : List Lock :=
  match s.tasks t with
  | none => []
  | some phase => phase.locks

/-- A task goes to its next phase. -/
def State.goTo (s : State) (t : TaskId) (phase : Phase) (shared : Shared) : State where
  shared := shared
  queues := move s.queues t (s.locks t) phase.locks
  tasks := Function.update s.tasks t (some phase)

def step (s : State) : Event → Option State
  | .call t op =>
      match s.tasks t with
      | none => some (s.goTo t op.enter s.shared)
      | some _ => none
  | .move t answer =>
      match s.tasks t with
      | none => none
      | some phase =>
          if Holds s.queues t phase.locks then
            (advance prim s.shared phase answer).map fun next => s.goTo t next.1 next.2
          else none
  | .deliver peerId bytes =>
      if peerId ∈ s.shared.peripheral.peers ∧
          (s.shared.responses peerId).length < responseBufferDepth then
        some { s with
          shared := { s.shared with
            responses := Function.update s.shared.responses peerId
              (s.shared.responses peerId ++ [bytes]) } }
      else none

/-- The peripheral from its construction on, with no call under way. -/
def concurrent : Transition.System State Event where
  start s := (∃ opened served, PersistentPeripheral.new opened served = .ok s.shared.peripheral) ∧
    (∀ l, s.queues l = []) ∧ ∀ t, s.tasks t = none
  step := step prim

variable {prim} {s s' : State} {t : TaskId} {phase phase' : Phase} {shared shared' : Shared}
  {answer : Answer}

/-! ## What a step can do -/

/-- How many moves a task has left at most. -/
def Phase.remaining : Phase → Nat
  | .notifyLookup .. => 3
  | .notifyDrain .. => 2
  | .notifySend .. => 1
  | .waitLookup .. => 2
  | .waitRecv .. => 1
  | .addCheck .. => 7
  | .addLockHandle .. => 6
  | .addDropHandle .. => 5
  | .addServe .. => 4
  | .addStoreHandle .. => 3
  | .addKick .. => 2
  | .addInsert .. => 1
  | .removeEntry .. => 3
  | .removeDropHandle => 2
  | .removeReturn => 1
  | .returned _ => 0

/-- The operation has not returned. -/
def Phase.Pending (phase : Phase) : Prop := 0 < phase.remaining

theorem advance_spec (hadvance : advance prim shared phase answer = some (phase', shared')) :
    Allowed phase.locks phase'.locks ∧ phase'.remaining < phase.remaining ∧
      (.appHandle ∈ phase.locks →
        .appHandle ∉ phase'.locks ∧ (.peers ∈ phase'.locks ↔ .peers ∈ phase.locks)) := by
  -- Every line of `advance`, and both branches where it looks into the map or a channel.
  unfold advance at hadvance
  split at hadvance <;> try split at hadvance
  all_goals cases hadvance
  all_goals simp [Allowed, Phase.locks, Phase.remaining]

/-- A task that holds its locks can move, whatever it is going to do. -/
theorem exists_advance (hpending : phase.Pending) :
    ∃ answer next, advance prim shared phase answer = some next := by
  cases phase with
  | returned result => exact absurd hpending (Nat.lt_irrefl 0)
  | notifySend peerId frame => exact ⟨.result (.ok ()), _, rfl⟩
  | addServe peerId bondKey => exact ⟨.result (.ok ()), _, rfl⟩
  | waitRecv peerId deadlineMs =>
      by_cases hempty : shared.responses peerId = []
      · exact ⟨.elapsed, _, if_pos hempty⟩
      · obtain ⟨bytes, rest, hqueue⟩ := List.exists_cons_of_ne_nil hempty
        exact ⟨.proceed, _, by rw [advance, hqueue]⟩
  | notifyLookup | waitLookup | addCheck | removeEntry =>
      refine ⟨.proceed, ?_⟩
      simp only [advance]
      split_ifs <;> exact ⟨_, rfl⟩
  | notifyDrain | addLockHandle | addDropHandle | addStoreHandle | addKick | addInsert
  | removeDropHandle | removeReturn => exact ⟨.proceed, _, rfl⟩

theorem locks_of_task (htask : s.tasks t = some phase) : s.locks t = phase.locks := by
  rw [State.locks, htask]

theorem locks_goTo (s : State) (t : TaskId) (phase : Phase) (shared : Shared) :
    (s.goTo t phase shared).locks = Function.update s.locks t phase.locks := by
  funext other
  simp only [State.locks, State.goTo]
  by_cases hother : other = t
  · rw [hother, Function.update_self, Function.update_self]
  · rw [Function.update_of_ne hother, Function.update_of_ne hother]
    rfl

theorem step_move_eq_some {next : Phase × Shared} (htask : s.tasks t = some phase)
    (hholds : Holds s.queues t phase.locks)
    (hadvance : advance prim s.shared phase answer = some next) :
    step prim s (.move t answer) = some (s.goTo t next.1 next.2) := by
  simp only [step, htask, if_pos hholds, hadvance, Option.map_some]

/-- A step is a move of one task that holds its locks, or leaves tasks and locks alone. -/
theorem step_cases {e : Event} (hstep : step prim s e = some s') :
    (∃ t phase shared, e.task = some t ∧ Holds s.queues t (s.locks t) ∧
      Allowed (s.locks t) phase.locks ∧ s' = s.goTo t phase shared) ∨
    (e.task = none ∧ s'.queues = s.queues ∧ s'.tasks = s.tasks) := by
  cases e with
  | call t op =>
      simp only [step] at hstep
      split at hstep
      · next hnone =>
          cases hstep
          have hlocks : s.locks t = [] := by rw [State.locks, hnone]
          refine .inl ⟨t, op.enter, s.shared, rfl, ?_, ?_, rfl⟩
          · rw [hlocks]
            exact fun l hl => (nomatch hl)
          · rw [hlocks]
            exact .inr ⟨.peers, List.not_mem_nil, by cases op <;> rfl⟩
      · cases hstep
  | move t answer =>
      simp only [step] at hstep
      split at hstep
      · cases hstep
      · next phase htask =>
          split_ifs at hstep with hholds
          obtain ⟨⟨phase', shared'⟩, hadvance, rfl⟩ := Option.map_eq_some_iff.mp hstep
          rw [← locks_of_task htask] at hholds
          refine .inl ⟨t, phase', shared', rfl, hholds, ?_, rfl⟩
          rw [locks_of_task htask]
          exact (advance_spec hadvance).1
  | deliver peerId bytes =>
      simp only [step] at hstep
      split_ifs at hstep
      cases hstep
      exact .inr ⟨rfl, rfl, rfl⟩

/-! ## The queues of the locks -/

theorem consistent_start (hstart : (concurrent prim).start s) : Consistent s.queues s.locks := by
  obtain ⟨-, hqueues, htasks⟩ := hstart
  have hlocks : ∀ t, s.locks t = [] := fun t => by rw [State.locks, htasks t]
  refine ⟨fun l => ?_, fun l t => ?_, fun t => ?_⟩
  · rw [hqueues l]
    exact List.nodup_nil
  · rw [hqueues l, hlocks t]
    exact iff_of_false List.not_mem_nil List.not_mem_nil
  · rw [hlocks t]
    exact fun l hl => (nomatch hl)

theorem consistent_step {e : Event} (hcons : Consistent s.queues s.locks)
    (hstep : step prim s e = some s') : Consistent s'.queues s'.locks := by
  obtain ⟨t, phase, shared, -, hholds, hallowed, rfl⟩ | ⟨-, hqueues, htasks⟩ := step_cases hstep
  · rw [locks_goTo]
    exact hcons.move hholds hallowed
  · have hlocks : s'.locks = s.locks := by
      funext t
      rw [State.locks, State.locks, htasks]
    rw [hqueues, hlocks]
    exact hcons

theorem consistent_run {events : List Event} (hcons : Consistent s.queues s.locks)
    (hrun : (concurrent prim).run s events = some s') : Consistent s'.queues s'.locks :=
  (concurrent prim).run_invariant (fun s => Consistent s.queues s.locks)
    (fun _ _ _ hcons hstep => consistent_step hcons hstep) hcons hrun

/-! ## Calls that nothing interrupts

Run from start to end with no other task about, the phases of `add_peer` and of
`remove_peer` do what the operations do in one go.
-/

variable (prim) in
/-- The moves of one task after another. -/
def advanceAll : Phase × Shared → List Answer → Option (Phase × Shared)
  | current, [] => some current
  | current, answer :: answers =>
      (advance prim current.2 current.1 answer).bind fun next => advanceAll next answers

/-- Nobody but the task has asked for a lock. -/
def Alone (s : State) (t : TaskId) : Prop :=
  ∀ l, s.queues l = if l ∈ s.locks t then [t] else []

theorem Alone.holds (halone : Alone s t) : Holds s.queues t (s.locks t) := by
  intro l hl
  rw [halone l, if_pos hl]
  rfl

theorem Alone.goTo (halone : Alone s t) (phase : Phase) (shared : Shared) :
    Alone (s.goTo t phase shared) t := by
  intro l
  rw [locks_goTo, Function.update_self]
  simp only [State.goTo, move, halone l]
  split_ifs <;> rfl

theorem run_alone {answers : List Answer} (halone : Alone s t) (htask : s.tasks t = some phase)
    (hall : advanceAll prim (phase, s.shared) answers = some (phase', shared')) :
    ∃ s', (concurrent prim).run s (answers.map (.move t)) = some s' ∧
      s'.tasks t = some phase' ∧ s'.shared = shared' := by
  induction answers generalizing s phase with
  | nil =>
      cases hall
      exact ⟨s, rfl, htask, rfl⟩
  | cons answer answers ih =>
      obtain ⟨⟨middle, shared₁⟩, hadvance, hrest⟩ := Option.bind_eq_some_iff.mp hall
      have hholds := halone.holds
      rw [locks_of_task htask] at hholds
      obtain ⟨s', hrun, htask', hshared⟩ :=
        ih (halone.goTo middle shared₁) (Function.update_self t _ _) hrest
      refine ⟨s', ?_, htask', hshared⟩
      exact (concurrent prim).run_cons_eq_some.mpr
        ⟨_, step_move_eq_some htask hholds hadvance, hrun⟩

/-- An operation that is called when no lock is taken and that nothing interrupts. -/
theorem run_call_alone {answers : List Answer} {op : Operation} (hfree : ∀ l, s.queues l = [])
    (hnone : s.tasks t = none)
    (hall : advanceAll prim (op.enter, s.shared) answers = some (phase', shared')) :
    ∃ s', (concurrent prim).run s (.call t op :: answers.map (.move t)) = some s' ∧
      s'.tasks t = some phase' ∧ s'.shared = shared' := by
  have hlocks : s.locks t = [] := by rw [State.locks, hnone]
  have halone : Alone s t := by
    intro l
    rw [hfree l, hlocks]
    rfl
  have hstep : step prim s (.call t op) = some (s.goTo t op.enter s.shared) := by
    simp only [step, hnone]
  obtain ⟨s', hrun, htask, hshared⟩ :=
    run_alone (halone.goTo op.enter s.shared) (Function.update_self t _ _) hall
  exact ⟨s', (concurrent prim).run_cons_eq_some.mpr ⟨_, hstep, hrun⟩, htask, hshared⟩

variable (prim) in
theorem advanceAll_addPeer (shared : Shared) (served : Except String Unit) (peerId : String)
    (bondKey : BondKey) :
    ∃ answers responses, advanceAll prim ((Operation.addPeer peerId bondKey).enter, shared)
        answers =
      some (.returned ((shared.peripheral.addPeer prim served peerId bondKey).1.map fun _ => none),
        ⟨(shared.peripheral.addPeer prim served peerId bondKey).2, responses⟩) := by
  unfold PersistentPeripheral.addPeer
  by_cases hmem : peerId ∈ shared.peripheral.peers
  · refine ⟨[.proceed], shared.responses, ?_⟩
    simp only [advanceAll, Operation.enter, advance, if_pos hmem]
    rfl
  · rw [if_neg hmem]
    cases served with
    | error err =>
        refine ⟨[.proceed, .proceed, .proceed, .result (.error err)], shared.responses, ?_⟩
        simp only [advanceAll, Operation.enter, advance, if_neg hmem]
        rfl
    | ok _ =>
        refine ⟨[.proceed, .proceed, .proceed, .result (.ok ()), .proceed, .proceed, .proceed],
          Function.update shared.responses peerId [], ?_⟩
        simp only [advanceAll, Operation.enter, advance, if_neg hmem]
        rfl

variable (prim) in
theorem advanceAll_removePeer (shared : Shared) (peerId : String) :
    ∃ answers, advanceAll prim ((Operation.removePeer peerId).enter, shared) answers =
      some (.returned ((shared.peripheral.removePeer peerId).1.map fun _ => none),
        ⟨(shared.peripheral.removePeer peerId).2, shared.responses⟩) := by
  unfold PersistentPeripheral.removePeer
  by_cases hmem : peerId ∈ shared.peripheral.peers
  · refine ⟨[.proceed, .proceed, .proceed], ?_⟩
    simp only [advanceAll, Operation.enter, advance, if_pos hmem]
    rfl
  · refine ⟨[.proceed], ?_⟩
    simp only [advanceAll, Operation.enter, advance, if_neg hmem]
    rfl

/-- The calls of `PersistentPeripheral.successes` and their results are those of tasks that
run one at a time. -/
theorem run_call_addPeer_alone (served : Except String Unit) (peerId : String)
    (bondKey : BondKey) (hfree : ∀ l, s.queues l = []) (hnone : s.tasks t = none) :
    ∃ (answers : List Answer) (s' : State), (concurrent prim).run s
        (.call t (.addPeer peerId bondKey) :: answers.map (.move t)) = some s' ∧
      s'.tasks t = some (.returned
        ((s.shared.peripheral.addPeer prim served peerId bondKey).1.map fun _ => none)) ∧
      s'.shared.peripheral = (s.shared.peripheral.addPeer prim served peerId bondKey).2 := by
  obtain ⟨answers, responses, hall⟩ := advanceAll_addPeer prim s.shared served peerId bondKey
  obtain ⟨s', hrun, htask, hshared⟩ := run_call_alone hfree hnone hall
  exact ⟨answers, s', hrun, htask, by rw [hshared]⟩

theorem run_call_removePeer_alone (peerId : String) (hfree : ∀ l, s.queues l = [])
    (hnone : s.tasks t = none) :
    ∃ (answers : List Answer) (s' : State), (concurrent prim).run s
        (.call t (.removePeer peerId) :: answers.map (.move t)) = some s' ∧
      s'.tasks t = some (.returned ((s.shared.peripheral.removePeer peerId).1.map fun _ => none)) ∧
      s'.shared.peripheral = (s.shared.peripheral.removePeer peerId).2 := by
  obtain ⟨answers, hall⟩ := advanceAll_removePeer prim s.shared peerId
  obtain ⟨s', hrun, htask, hshared⟩ := run_call_alone hfree hnone hall
  exact ⟨answers, s', hrun, htask, by rw [hshared]⟩

end Syauth.Transport
