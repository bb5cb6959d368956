import Syauth.Presenced.PidFileLock

/-! # Daemons that start, serve and stop

`run` of `runtime.rs` with `serve` of `server.rs` and the drops of their guards, for any
number of processes on one file system.  The main task takes the pidfile lock and waits for a
signal while another task binds the socket and accepts connections; after the signal the main
task waits for the other one and drops the lock.  Any process may be killed between two steps,
and then its files stay.
-/

namespace Syauth.Presenced.Lifecycle

open Transition PidFileLock

/-- The paths that a process was started with. -/
structure Config where
  pidfile : Path
  socket : Path
  deriving DecidableEq

/-- Where the main task stands. -/
inductive Main where
  | out
  | acquiring
  /-- `wait_for_reason`, with the lock held. -/
  | waiting
  /-- The shutdown is sent, and the task that serves is awaited. -/
  | draining
  /-- The lock is being dropped. -/
  | dropping
  deriving DecidableEq

/-- Where the task that runs `serve` stands. -/
inductive Serve where
  | unborn
  | spawned
  /-- The socket is bound, and its mode is not set yet. -/
  | bound
  /-- The socket guard exists, and the accept loop runs. -/
  | listening
  | returned (ok : Bool)
  deriving DecidableEq

/-- The task has been spawned and has not returned. -/
def Serve.runs : Serve → Bool
  | .spawned | .bound | .listening => true
  | .unborn | .returned _ => false

/-- The task has bound the socket and is responsible for its file. -/
def Serve.binds : Serve → Bool
  | .bound | .listening => true
  | .unborn | .spawned | .returned _ => false

structure State where
  lock : PidFileLock.State
  /-- The process whose `bind` created the socket file that a path names. -/
  sockets : Path → Option Pid
  main : Pid → Main
  serve : Pid → Serve

inductive Event where
  | openPidfile (p : Pid)
  | tryLockExclusive (p : Pid) (fails : Bool)
  | writePid (p : Pid) (ok : Bool)
  /-- `UnixListener::bind`, which may also fail for other reasons than a path that exists. -/
  | bind (p : Pid) (fails : Bool)
  | setSocketMode (p : Pid) (ok : Bool)
  /-- `SIGTERM` or `SIGINT` reaches `wait_for_reason`. -/
  | signal (p : Pid)
  /-- The accept loop sees the shutdown and returns; the guard unlinks the socket. -/
  | halt (p : Pid) (unlinked : Bool)
  /-- The task that serves has been joined, and the drop of the lock begins. -/
  | dropLock (p : Pid) (unlinked : Bool)
  | exit (p : Pid)
  | kill (p : Pid)
  /-- Somebody else removes a socket file. -/
  | removeSocket (path : Path)
  deriving DecidableEq

namespace State

variable (s : State)

def setMain (p : Pid) (main : Main) : State := { s with main := Function.update s.main p main }

def setServe (p : Pid) (serve : Serve) : State :=
  { s with serve := Function.update s.serve p serve }

/-- The process is gone. -/
def leave (p : Pid) : State := (s.setMain p .out).setServe p .unborn

def setSocket (path : Path) (owner : Option Pid) : State :=
  { s with sockets := Function.update s.sockets path owner }

end State

variable (config : Pid → Config)

/-- What follows an attempt to lock the pidfile or to write it: the process goes on with the
lock, starts to serve once it has the guard, or returns with an error. -/
def afterAcquire (s : State) (p : Pid) (lock : PidFileLock.State) : State :=
  match lock.stages p with
  | .holding _ _ => (({ s with lock }).setMain p .waiting).setServe p .spawned
  | .locked _ _ => { s with lock }
  | _ => ({ s with lock }).leave p

def step (s : State) : Event → Option State
  | .openPidfile p =>
      match s.main p with
      | .out =>
          (PidFileLock.step s.lock (.openPidfile p (config p).pidfile)).map fun lock =>
            ({ s with lock }).setMain p .acquiring
      | _ => none
  | .tryLockExclusive p fails =>
      match s.main p with
      | .acquiring =>
          (PidFileLock.step s.lock (.tryLockExclusive p fails)).map (afterAcquire s p)
      | _ => none
  | .writePid p ok =>
      match s.main p with
      | .acquiring => (PidFileLock.step s.lock (.writePid p ok)).map (afterAcquire s p)
      | _ => none
  | .bind p fails =>
      match s.serve p with
      | .spawned =>
          match s.sockets (config p).socket, fails with
          | none, false => some ((s.setSocket (config p).socket (some p)).setServe p .bound)
          -- `EADDRINUSE` for any file that is there, whether or not somebody listens.
          | _, _ => some (s.setServe p (.returned false))
      | _ => none
  | .setSocketMode p ok =>
      match s.serve p with
      -- The socket guard does not exist yet, so an error leaves the file behind.
      | .bound => some (s.setServe p (if ok then .listening else .returned false))
      | _ => none
  | .signal p =>
      match s.main p with
      | .waiting => some (s.setMain p .draining)
      | _ => none
  | .halt p unlinked =>
      match s.main p, s.serve p with
      | .draining, .listening =>
          let left := if unlinked then s.setSocket (config p).socket none else s
          some (left.setServe p (.returned true))
      | _, _ => none
  | .dropLock p unlinked =>
      match s.main p, s.serve p with
      | .draining, .returned _ =>
          (PidFileLock.step s.lock (.removeFile p unlinked)).map fun lock =>
            ({ s with lock }).setMain p .dropping
      | _, _ => none
  | .exit p =>
      match s.main p with
      | .dropping =>
          (PidFileLock.step s.lock (.close p)).map fun lock => ({ s with lock }).leave p
      | _ => none
  | .kill p =>
      match s.main p with
      | .out => none
      | _ => (PidFileLock.step s.lock (.crash p)).map fun lock => ({ s with lock }).leave p
  | .removeSocket path => some (s.setSocket path none)

/-- No process is running; files of earlier ones may be there. -/
def State.Quiet (s : State) : Prop :=
  s.lock.Quiet ∧ (∀ p, s.main p = .out) ∧ ∀ p, s.serve p = .unborn

def daemons : System State Event where
  start := State.Quiet
  step := step config

/-! ## What a step can do -/

/-- The steps with the stages of the lock before and after them. -/
inductive Step (s : State) : Event → State → Prop
  | opened {p : Pid} {lock : PidFileLock.State} {inode : Inode} (hmain : s.main p = .out)
      (hstages : lock.stages =
        Function.update s.lock.stages p (.opened (config p).pidfile inode)) :
      Step s (.openPidfile p) (({ s with lock }).setMain p .acquiring)
  | locked {p : Pid} {lock : PidFileLock.State} {path : Path} {inode : Inode}
      (hmain : s.main p = .acquiring) (hstage : s.lock.stages p = .opened path inode)
      (hstages : lock.stages = Function.update s.lock.stages p (.locked path inode)) :
      Step s (.tryLockExclusive p false) { s with lock }
  | guarded {p : Pid} {lock : PidFileLock.State} {path : Path} {inode : Inode}
      (hmain : s.main p = .acquiring) (hstage : s.lock.stages p = .locked path inode)
      (hstages : lock.stages = Function.update s.lock.stages p (.holding path inode)) :
      Step s (.writePid p true) ((({ s with lock }).setMain p .waiting).setServe p .spawned)
  | notLocked {p : Pid} {fails : Bool} {lock : PidFileLock.State} (hmain : s.main p = .acquiring)
      (hstages : lock.stages = Function.update s.lock.stages p .idle) :
      Step s (.tryLockExclusive p fails) (({ s with lock }).leave p)
  | notWritten {p : Pid} {ok : Bool} {lock : PidFileLock.State} (hmain : s.main p = .acquiring)
      (hstages : lock.stages = Function.update s.lock.stages p .idle) :
      Step s (.writePid p ok) (({ s with lock }).leave p)
  | bound {p : Pid} (hserve : s.serve p = .spawned)
      (hfree : s.sockets (config p).socket = none) :
      Step s (.bind p false) ((s.setSocket (config p).socket (some p)).setServe p .bound)
  | notBound {p : Pid} {fails : Bool} (hserve : s.serve p = .spawned)
      (hfails : s.sockets (config p).socket = none → fails = true) :
      Step s (.bind p fails) (s.setServe p (.returned false))
  | listens {p : Pid} (hserve : s.serve p = .bound) :
      Step s (.setSocketMode p true) (s.setServe p .listening)
  | modeFailed {p : Pid} (hserve : s.serve p = .bound) :
      Step s (.setSocketMode p false) (s.setServe p (.returned false))
  | signalled {p : Pid} (hmain : s.main p = .waiting) : Step s (.signal p) (s.setMain p .draining)
  | halted {p : Pid} (hmain : s.main p = .draining) (hserve : s.serve p = .listening) :
      Step s (.halt p true)
        ((s.setSocket (config p).socket none).setServe p (.returned true))
  | haltedLeaving {p : Pid} (hmain : s.main p = .draining) (hserve : s.serve p = .listening) :
      Step s (.halt p false) (s.setServe p (.returned true))
  | dropping {p : Pid} {unlinked ok : Bool} {lock : PidFileLock.State} {path : Path}
      {inode : Inode} (hmain : s.main p = .draining) (hserve : s.serve p = .returned ok)
      (hstage : s.lock.stages p = .holding path inode)
      (hstages : lock.stages = Function.update s.lock.stages p (.dropping path inode)) :
      Step s (.dropLock p unlinked) (({ s with lock }).setMain p .dropping)
  | exited {p : Pid} {lock : PidFileLock.State} (hmain : s.main p = .dropping)
      (hstages : lock.stages = Function.update s.lock.stages p .idle) :
      Step s (.exit p) (({ s with lock }).leave p)
  | killed {p : Pid} {lock : PidFileLock.State} (hmain : s.main p ≠ .out)
      (hstages : lock.stages = Function.update s.lock.stages p .idle) :
      Step s (.kill p) (({ s with lock }).leave p)
  | removed {path : Path} : Step s (.removeSocket path) (s.setSocket path none)

variable {config} {s t : State} {event : Event}

section LockSteps

variable {lock next : PidFileLock.State} {p : Pid}

theorem stages_openPidfile {path : Path}
    (hstep : PidFileLock.step lock (.openPidfile p path) = some next) :
    ∃ inode, next.stages = Function.update lock.stages p (.opened path inode) := by
  simp only [PidFileLock.step] at hstep
  split at hstep
  · cases hstep
    unfold PidFileLock.State.openPath
    split <;> exact ⟨_, rfl⟩
  · cases hstep

theorem stages_tryLockExclusive {fails : Bool}
    (hstep : PidFileLock.step lock (.tryLockExclusive p fails) = some next) :
    (∃ path inode, fails = false ∧ lock.stages p = .opened path inode ∧
        next.stages = Function.update lock.stages p (.locked path inode)) ∨
      next.stages = Function.update lock.stages p .idle := by
  simp only [PidFileLock.step] at hstep
  split at hstep
  · next path inode hopened =>
      split at hstep
      · cases hstep
        exact .inr rfl
      · next hfails =>
          split at hstep
          · cases hstep
            exact .inr rfl
          · cases hstep
            exact .inl ⟨path, inode, Bool.eq_false_iff.mpr hfails, hopened, rfl⟩
  · cases hstep

theorem stages_writePid {ok : Bool} (hstep : PidFileLock.step lock (.writePid p ok) = some next) :
    (∃ path inode, ok = true ∧ lock.stages p = .locked path inode ∧
        next.stages = Function.update lock.stages p (.holding path inode)) ∨
      next.stages = Function.update lock.stages p .idle := by
  simp only [PidFileLock.step] at hstep
  split at hstep
  · next path inode hlocked =>
      split at hstep
      · next hok =>
          cases hstep
          exact .inl ⟨path, inode, hok, hlocked, rfl⟩
      · cases hstep
        exact .inr rfl
  · cases hstep

theorem stages_removeFile {ok : Bool}
    (hstep : PidFileLock.step lock (.removeFile p ok) = some next) :
    ∃ path inode, lock.stages p = .holding path inode ∧
      next.stages = Function.update lock.stages p (.dropping path inode) := by
  simp only [PidFileLock.step] at hstep
  split at hstep
  · next path inode hholding =>
      cases hstep
      exact ⟨path, inode, hholding, rfl⟩
  · cases hstep

theorem stages_close (hstep : PidFileLock.step lock (.close p) = some next) :
    next.stages = Function.update lock.stages p .idle := by
  simp only [PidFileLock.step] at hstep
  split at hstep
  · cases hstep
    rfl
  · cases hstep

theorem stages_crash (hstep : PidFileLock.step lock (.crash p) = some next) :
    next.stages = Function.update lock.stages p .idle := by
  simp only [PidFileLock.step] at hstep
  split at hstep
  · cases hstep
  all_goals
    cases hstep
    rfl

end LockSteps

theorem step_sound (hstep : (daemons config).step s event = some t) : Step config s event t := by
  cases event with
  | openPidfile p =>
      simp only [daemons, step] at hstep
      split at hstep
      · next hmain =>
          obtain ⟨lock, hlock, rfl⟩ := Option.map_eq_some_iff.mp hstep
          obtain ⟨inode, hstages⟩ := stages_openPidfile hlock
          exact .opened hmain hstages
      · cases hstep
  | tryLockExclusive p fails =>
      simp only [daemons, step] at hstep
      split at hstep
      · next hmain =>
          obtain ⟨lock, hlock, rfl⟩ := Option.map_eq_some_iff.mp hstep
          rcases stages_tryLockExclusive hlock with ⟨path, inode, rfl, hstage, hstages⟩ | hstages
          · simp only [afterAcquire, hstages, Function.update_self]
            exact .locked hmain hstage hstages
          · simp only [afterAcquire, hstages, Function.update_self]
            exact .notLocked hmain hstages
      · cases hstep
  | writePid p ok =>
      simp only [daemons, step] at hstep
      split at hstep
      · next hmain =>
          obtain ⟨lock, hlock, rfl⟩ := Option.map_eq_some_iff.mp hstep
          rcases stages_writePid hlock with ⟨path, inode, rfl, hstage, hstages⟩ | hstages
          · simp only [afterAcquire, hstages, Function.update_self]
            exact .guarded hmain hstage hstages
          · simp only [afterAcquire, hstages, Function.update_self]
            exact .notWritten hmain hstages
      · cases hstep
  | bind p fails =>
      simp only [daemons, step] at hstep
      split at hstep
      · next hserve =>
          split at hstep
          · next hfree =>
              cases hstep
              exact .bound hserve hfree
          · next hfails =>
              cases hstep
              exact .notBound hserve fun hfree => by simpa using hfails hfree
      · cases hstep
  | setSocketMode p ok =>
      simp only [daemons, step] at hstep
      split at hstep
      · next hserve =>
          cases hstep
          cases ok with
          | true => exact .listens hserve
          | false => exact .modeFailed hserve
      · cases hstep
  | signal p =>
      simp only [daemons, step] at hstep
      split at hstep
      · next hmain =>
          cases hstep
          exact .signalled hmain
      · cases hstep
  | halt p unlinked =>
      simp only [daemons, step] at hstep
      split at hstep
      · next hmain hserve =>
          cases hstep
          cases unlinked with
          | true => exact .halted hmain hserve
          | false => exact .haltedLeaving hmain hserve
      · cases hstep
  | dropLock p unlinked =>
      simp only [daemons, step] at hstep
      split at hstep
      · next hmain hserve =>
          obtain ⟨lock, hlock, rfl⟩ := Option.map_eq_some_iff.mp hstep
          obtain ⟨path, inode, hstage, hstages⟩ := stages_removeFile hlock
          exact .dropping hmain hserve hstage hstages
      · cases hstep
  | exit p =>
      simp only [daemons, step] at hstep
      split at hstep
      · next hmain =>
          obtain ⟨lock, hlock, rfl⟩ := Option.map_eq_some_iff.mp hstep
          exact .exited hmain (stages_close hlock)
      · cases hstep
  | kill p =>
      simp only [daemons, step] at hstep
      split at hstep
      · cases hstep
      · next hmain =>
          obtain ⟨lock, hlock, rfl⟩ := Option.map_eq_some_iff.mp hstep
          exact .killed hmain (stages_crash hlock)
  | removeSocket path =>
      cases hstep
      exact .removed

/-! ## The tasks of one process agree -/

/-- Which stages of the lock and of the serving task go with a stage of the main task. -/
def Agrees (config : Config) : Main → Stage → Serve → Prop
  | .out, .idle, .unborn => True
  | .acquiring, .opened path _, .unborn | .acquiring, .locked path _, .unborn =>
      path = config.pidfile
  | .waiting, .holding path _, serve | .draining, .holding path _, serve =>
      path = config.pidfile ∧ serve ≠ .unborn
  | .dropping, .dropping path _, .returned _ => path = config.pidfile
  | _, _, _ => False

def State.Agrees (config : Pid → Config) (s : State) : Prop :=
  ∀ p, Lifecycle.Agrees (config p) (s.main p) (s.lock.stages p) (s.serve p)

theorem Agrees.holding {c : Config} {path : Path} {inode : Inode} {main : Main} {serve : Serve}
    (hagrees : Agrees c main (.holding path inode) serve) :
    path = c.pidfile ∧ serve ≠ .unborn := by
  cases main with
  | waiting => exact hagrees
  | draining => exact hagrees
  | out | acquiring | dropping => cases serve <;> exact absurd hagrees id

/-- A task that serves belongs to a main task that waits for a signal or for it. -/
theorem Agrees.serving {c : Config} {stage : Stage} {main : Main} {serve : Serve}
    (hagrees : Agrees c main stage serve) (hruns : serve.runs = true) :
    (main = .waiting ∨ main = .draining) ∧ ∃ inode, stage = .holding c.pidfile inode := by
  cases main with
  | waiting =>
      cases stage with
      | holding path inode => exact ⟨.inl rfl, inode, by rw [hagrees.1]⟩
      | _ => exact absurd hagrees id
  | draining =>
      cases stage with
      | holding path inode => exact ⟨.inr rfl, inode, by rw [hagrees.1]⟩
      | _ => exact absurd hagrees id
  | out | acquiring | dropping =>
      cases serve with
      | unborn | returned => cases hruns
      | _ => cases stage <;> exact absurd hagrees id

/-- A step that moves one process on keeps the others as they are. -/
theorem State.Agrees.of_update {p : Pid} {main : Main} {stage : Stage} {serve : Serve}
    (hagrees : s.Agrees config) (hmain : t.main = Function.update s.main p main)
    (hstage : t.lock.stages = Function.update s.lock.stages p stage)
    (hserve : t.serve = Function.update s.serve p serve)
    (hself : Lifecycle.Agrees (config p) main stage serve) : t.Agrees config := by
  intro q
  rw [hmain, hstage, hserve]
  by_cases hsame : q = p
  · subst hsame
    simpa only [Function.update_self] using hself
  · simpa only [Function.update_of_ne hsame] using hagrees q

/-- The serving task of a process goes on while the main task waits. -/
theorem State.Agrees.serveNext {p : Pid} (serve : Serve) (hagrees : s.Agrees config)
    (hruns : (s.serve p).runs = true) (hnext : serve ≠ .unborn) (hmain : t.main = s.main)
    (hlock : t.lock = s.lock) (hserve : t.serve = Function.update s.serve p serve) :
    t.Agrees config := by
  obtain ⟨hwaits, inode, hstage⟩ := (hagrees p).serving hruns
  refine hagrees.of_update (hmain.trans (Function.update_eq_self p s.main).symm)
    ((congrArg _ hlock).trans (Function.update_eq_self p s.lock.stages).symm) hserve ?_
  rw [hstage]
  rcases hwaits with hwaits | hwaits <;> (rw [hwaits]; exact ⟨rfl, hnext⟩)

theorem State.Agrees.step (hagrees : s.Agrees config) (hstep : Step config s event t) :
    t.Agrees config := by
  cases hstep with
  | @opened p lock inode hmain hstages =>
      have hself := hagrees p
      rw [hmain] at hself
      refine hagrees.of_update rfl hstages (Function.update_eq_self p s.serve).symm ?_
      cases hstage : s.lock.stages p <;> cases hserve : s.serve p <;>
        simp_all [Lifecycle.Agrees]
  | @locked p lock path inode hmain hstage hstages =>
      have hself := hagrees p
      rw [hmain, hstage] at hself
      refine hagrees.of_update (Function.update_eq_self p s.main).symm hstages
        (Function.update_eq_self p s.serve).symm ?_
      rw [hmain]
      cases hserve : s.serve p <;> simp_all [Lifecycle.Agrees]
  | @guarded p lock path inode hmain hstage hstages =>
      have hself := hagrees p
      rw [hmain, hstage] at hself
      refine hagrees.of_update rfl hstages rfl ?_
      cases hserve : s.serve p <;> simp_all [Lifecycle.Agrees]
  | bound hserve => exact hagrees.serveNext .bound (by rw [hserve]; rfl) nofun rfl rfl rfl
  | notBound hserve | modeFailed hserve =>
      exact hagrees.serveNext (.returned false) (by rw [hserve]; rfl) nofun rfl rfl rfl
  | listens hserve => exact hagrees.serveNext .listening (by rw [hserve]; rfl) nofun rfl rfl rfl
  | halted hmain hserve | haltedLeaving hmain hserve =>
      exact hagrees.serveNext (.returned true) (by rw [hserve]; rfl) nofun rfl rfl rfl
  | @signalled p hmain =>
      have hself := hagrees p
      rw [hmain] at hself
      refine hagrees.of_update rfl (Function.update_eq_self p s.lock.stages).symm
        (Function.update_eq_self p s.serve).symm ?_
      cases hstage : s.lock.stages p with
      | holding path inode =>
          rw [hstage] at hself
          exact hself
      | _ =>
          rw [hstage] at hself
          exact absurd hself id
  | @dropping p unlinked ok lock path inode hmain hserve hstage hstages =>
      have hself := hagrees p
      rw [hstage] at hself
      refine hagrees.of_update rfl hstages (Function.update_eq_self p s.serve).symm ?_
      rw [hserve]
      exact hself.holding.1
  | notLocked hmain hstages | notWritten hmain hstages =>
      exact hagrees.of_update rfl hstages rfl trivial
  | exited hmain hstages | killed hmain hstages =>
      exact hagrees.of_update rfl hstages rfl trivial
  | removed => exact hagrees

theorem State.Quiet.agrees (hquiet : s.Quiet) : s.Agrees config := by
  intro p
  rw [hquiet.2.1 p, hquiet.1.2.2 p, hquiet.2.2 p]
  trivial

theorem agrees_run {initial : State} {events : List Event} (hstart : (daemons config).start initial)
    (hrun : (daemons config).run initial events = some s) : s.Agrees config :=
  (daemons config).run_invariant (State.Agrees config)
    (fun _ _ _ hagrees hstep => hagrees.step (step_sound hstep)) (State.Quiet.agrees hstart) hrun

end Syauth.Presenced.Lifecycle
