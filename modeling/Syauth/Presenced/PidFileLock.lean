import Syauth.Transition.System
import Mathlib.Logic.Function.Basic

/-! # The single-instance lock of the daemon

`PidFileLock` of `crates/syauth-presenced/src/lock.rs` for any number of processes.  A
process opens the pidfile by its path and locks the inode it got; a guard that is
dropped unlinks the path and then closes the descriptor.  The lock belongs to the inode
and the guard to the path, and between its `open` and its `fcntl` a process may be left
with an inode that the path no longer names.
-/

namespace Syauth.Presenced.PidFileLock

open Transition

abbrev Pid := Nat
abbrev Path := String
abbrev Inode := Nat

/-- Where a process stands in `acquire` or in the drop of its guard. -/
inductive Stage where
  | idle
  /-- `open_pidfile` has returned a descriptor of the inode. -/
  | opened (path : Path) (inode : Inode)
  /-- `try_lock_exclusive` has succeeded, the pid is not written yet. -/
  | locked (path : Path) (inode : Inode)
  /-- `acquire` has returned the guard. -/
  | holding (path : Path) (inode : Inode)
  /-- The drop of the guard has tried to unlink the path, the descriptor is still open. -/
  | dropping (path : Path) (inode : Inode)
  deriving DecidableEq

structure State where
  /-- The directory: which inode a path names. -/
  names : Path → Option Inode
  nextInode : Inode
  /-- The owner of the exclusive lock of an inode. -/
  locks : Inode → Option Pid
  stages : Pid → Stage

/-- No process is running; pidfiles of crashed daemons may be there. -/
def State.Quiet (s : State) : Prop :=
  (∀ path inode, s.names path = some inode → inode < s.nextInode) ∧
    (∀ inode, s.locks inode = none) ∧ ∀ p, s.stages p = .idle

def State.empty : State := ⟨fun _ => none, 0, fun _ => none, fun _ => .idle⟩

inductive Event where
  | openPidfile (p : Pid) (path : Path)
  /-- `fcntl(F_OFD_SETLK)`, which may fail for other reasons than a lock that is held. -/
  | tryLockExclusive (p : Pid) (fails : Bool)
  | writePid (p : Pid) (ok : Bool)
  /-- The drop of a guard starts with a best-effort `remove_file`. -/
  | removeFile (p : Pid) (ok : Bool)
  | close (p : Pid)
  /-- The process dies and the kernel closes its descriptor. -/
  | crash (p : Pid)
  deriving DecidableEq

namespace State

variable (s : State)

def advance (p : Pid) (stage : Stage) : State :=
  { s with stages := Function.update s.stages p stage }

/-- Close the descriptor that a process has of an inode, and with it release its lock. -/
def closeInode (p : Pid) (inode : Inode) : State :=
  { s with
    locks := if s.locks inode = some p then Function.update s.locks inode none else s.locks
    stages := Function.update s.stages p .idle }

/-- Open by path, creating the file when there is none. -/
def openPath (p : Pid) (path : Path) : State :=
  match s.names path with
  | some inode => s.advance p (.opened path inode)
  | none =>
      { s with
        names := Function.update s.names path (some s.nextInode)
        nextInode := s.nextInode + 1 }.advance p (.opened path s.nextInode)

end State

def step (s : State) : Event → Option State
  | .openPidfile p path =>
      match s.stages p with
      | .idle => some (s.openPath p path)
      | _ => none
  | .tryLockExclusive p fails =>
      match s.stages p with
      | .opened path inode =>
          if fails then some (s.closeInode p inode)
          else
            match s.locks inode with
            | some _ => some (s.closeInode p inode)
            | none =>
                some ({ s with locks := Function.update s.locks inode (some p) }.advance p
                  (.locked path inode))
      | _ => none
  | .writePid p ok =>
      match s.stages p with
      | .locked path inode =>
          if ok then some (s.advance p (.holding path inode)) else some (s.closeInode p inode)
      | _ => none
  | .removeFile p ok =>
      match s.stages p with
      | .holding path inode =>
          let names := if ok then Function.update s.names path none else s.names
          some ({ s with names }.advance p (.dropping path inode))
      | _ => none
  | .close p =>
      match s.stages p with
      | .dropping _ inode => some (s.closeInode p inode)
      | _ => none
  | .crash p =>
      match s.stages p with
      | .idle => none
      | .opened _ inode | .locked _ inode | .holding _ inode | .dropping _ inode =>
          some (s.closeInode p inode)

def processes : System State Event where
  start := State.Quiet
  step := step

/-- A live guard of the process for the path. -/
def State.HoldsGuard (s : State) (p : Pid) (path : Path) : Prop :=
  ∃ inode, s.stages p = .holding path inode

/-! ## What a step can do -/

/-- The file that a process has opened and not locked. -/
def Stage.opening : Stage → Option (Path × Inode)
  | .opened path inode => some (path, inode)
  | .idle | .locked _ _ | .holding _ _ | .dropping _ _ => none

/-- The inode whose lock the stage owns. -/
def Stage.lock : Stage → Option Inode
  | .idle | .opened _ _ => none
  | .locked _ inode | .holding _ inode | .dropping _ inode => some inode

/-- The path and inode of a stage between its lock and its drop. -/
def Stage.claim : Stage → Option (Path × Inode)
  | .locked path inode | .holding path inode => some (path, inode)
  | .idle | .opened _ _ | .dropping _ _ => none

inductive Step (s : State) : Event → State → Prop
  | reopened {p : Pid} {path : Path} {inode : Inode} (hnamed : s.names path = some inode) :
      Step s (.openPidfile p path) (s.advance p (.opened path inode))
  | created {p : Pid} {path : Path} (hnamed : s.names path = none) :
      Step s (.openPidfile p path)
        ({ s with
          names := Function.update s.names path (some s.nextInode)
          nextInode := s.nextInode + 1 }.advance p (.opened path s.nextInode))
  | locked {p : Pid} {path : Path} {inode : Inode} (hopened : s.stages p = .opened path inode)
      (hfree : s.locks inode = none) :
      Step s (.tryLockExclusive p false)
        ({ s with locks := Function.update s.locks inode (some p) }.advance p (.locked path inode))
  | guarded {p : Pid} {path : Path} {inode : Inode} (hlocked : s.stages p = .locked path inode) :
      Step s (.writePid p true) (s.advance p (.holding path inode))
  | unlinked {p : Pid} {path : Path} {inode : Inode} (ok : Bool)
      (hholding : s.stages p = .holding path inode) :
      Step s (.removeFile p ok)
        ({ s with names := if ok then Function.update s.names path none else s.names }.advance p
          (.dropping path inode))
  | closed {event : Event} (p : Pid) (inode : Inode) : Step s event (s.closeInode p inode)

variable {s t : State}

theorem step_sound {event : Event} (hstep : step s event = some t) : Step s event t := by
  cases event with
  | openPidfile p path =>
      simp only [step] at hstep
      split at hstep
      next =>
        cases hstep
        unfold State.openPath
        split
        next inode hnamed => exact .reopened hnamed
        next hnamed => exact .created hnamed
      next => cases hstep
  | tryLockExclusive p fails =>
      simp only [step] at hstep
      split at hstep
      next path inode hopened =>
        split at hstep
        next =>
          cases hstep
          exact .closed p inode
        next hfails =>
          obtain rfl := Bool.eq_false_iff.mpr hfails
          split at hstep
          next =>
            cases hstep
            exact .closed p inode
          next hfree =>
            cases hstep
            exact .locked hopened hfree
      next => cases hstep
  | writePid p ok =>
      simp only [step] at hstep
      split at hstep
      next path inode hlocked =>
        split at hstep
        next hok =>
          subst hok
          cases hstep
          exact .guarded hlocked
        next =>
          cases hstep
          exact .closed p inode
      next => cases hstep
  | removeFile p ok =>
      simp only [step] at hstep
      split at hstep
      next path inode hholding =>
        cases hstep
        exact .unlinked ok hholding
      next => cases hstep
  | close p =>
      simp only [step] at hstep
      split at hstep
      next path inode _ =>
        cases hstep
        exact .closed p inode
      next => cases hstep
  | crash p =>
      simp only [step] at hstep
      split at hstep
      next => cases hstep
      all_goals
        cases hstep
        exact .closed p _

/-! ## Locks on named inodes -/

/-- The stages own their locks, and what is locked or held is the file that the path names. -/
structure Exclusive (s : State) : Prop where
  owner : ∀ p inode, (s.stages p).lock = some inode → s.locks inode = some p
  named : ∀ p path inode, (s.stages p).claim = some (path, inode) → s.names path = some inode

/-- A process that tries the lock still has the inode that its path names. -/
def TriesNamedInode (s : State) : Event → Prop
  | .tryLockExclusive p _ =>
      ∀ entry ∈ (s.stages p).opening, s.names entry.1 = some entry.2
  | _ => True

theorem Stage.lock_of_claim {stage : Stage} {path : Path} {inode : Inode}
    (hclaim : stage.claim = some (path, inode)) : stage.lock = some inode := by
  cases stage with
  | locked | holding =>
      cases hclaim
      rfl
  | _ => cases hclaim

/-- Two stages with a claim to one path belong to one process. -/
theorem Exclusive.claim_unique (hinv : Exclusive s) {p q : Pid} {path : Path} {inode inode' : Inode}
    (hp : (s.stages p).claim = some (path, inode)) (hq : (s.stages q).claim = some (path, inode')) :
    p = q := by
  have hinode : inode = inode' :=
    Option.some.inj ((hinv.named p path inode hp).symm.trans (hinv.named q path inode' hq))
  subst hinode
  have hlock := hinv.owner p inode (Stage.lock_of_claim hp)
  have hlock' := hinv.owner q inode (Stage.lock_of_claim hq)
  exact Option.some.inj (hlock.symm.trans hlock')

/-- A process that moves on without touching locks or names. -/
theorem Exclusive.advance (hinv : Exclusive s) {p : Pid} {stage : Stage}
    (hlock : ∀ inode, stage.lock = some inode → s.locks inode = some p)
    (hnamed : ∀ path inode, stage.claim = some (path, inode) → s.names path = some inode) :
    Exclusive (s.advance p stage) := by
  constructor
  · intro q inode hq
    by_cases hne : q = p
    · subst hne
      exact hlock inode (by simpa [State.advance] using hq)
    · exact hinv.owner q inode (by simpa [State.advance, hne] using hq)
  · intro q path inode hq
    by_cases hne : q = p
    · subst hne
      exact hnamed path inode (by simpa [State.advance] using hq)
    · exact hinv.named q path inode (by simpa [State.advance, hne] using hq)

theorem Exclusive.closeInode (hinv : Exclusive s) (p : Pid) (inode : Inode) :
    Exclusive (s.closeInode p inode) := by
  have hothers : ∀ q, q ≠ p → (s.closeInode p inode).stages q = s.stages q :=
    fun q hne => Function.update_of_ne hne _ _
  have hself : (s.closeInode p inode).stages p = .idle := Function.update_self _ _ _
  constructor
  · intro q inode' hq
    by_cases hne : q = p
    · subst hne
      rw [hself] at hq
      cases hq
    · rw [hothers q hne] at hq
      have howner := hinv.owner q inode' hq
      change (if s.locks inode = some p then Function.update s.locks inode none else s.locks)
        inode' = some q
      split
      next hown =>
        have hdistinct : inode' ≠ inode := by
          rintro rfl
          exact hne (Option.some.inj (howner.symm.trans hown))
        rw [Function.update_of_ne hdistinct]
        exact howner
      next => exact howner
  · intro q path inode' hq
    by_cases hne : q = p
    · subst hne
      rw [hself] at hq
      cases hq
    · rw [hothers q hne] at hq
      exact hinv.named q path inode' hq

/-- Creating a file names a path that named nothing, so no claim is touched. -/
theorem Exclusive.create (hinv : Exclusive s) {path : Path} (hnamed : s.names path = none)
    (inode next : Inode) :
    Exclusive { s with names := Function.update s.names path (some inode), nextInode := next } := by
  refine ⟨hinv.owner, fun q path' inode' hq => ?_⟩
  have hold := hinv.named q path' inode' hq
  have hne : path' ≠ path := by
    rintro rfl
    rw [hnamed] at hold
    cases hold
  exact (Function.update_of_ne hne _ _).trans hold

/-- A free lock has no owner among the stages. -/
theorem Exclusive.lock (hinv : Exclusive s) {p : Pid} {path : Path} {inode : Inode}
    (hfree : s.locks inode = none) (hnamed : s.names path = some inode) :
    Exclusive ({ s with locks := Function.update s.locks inode (some p) }.advance p
      (.locked path inode)) := by
  have hlocked : Exclusive { s with locks := Function.update s.locks inode (some p) } := by
    refine ⟨fun q inode' hq => ?_, hinv.named⟩
    have hold := hinv.owner q inode' hq
    have hne : inode' ≠ inode := by
      rintro rfl
      rw [hfree] at hold
      cases hold
    exact (Function.update_of_ne hne _ _).trans hold
  apply hlocked.advance
  · intro inode' hlock
    cases hlock
    exact Function.update_self _ _ _
  · intro path' inode' hclaim
    cases hclaim
    exact hnamed

/-- The path that a guard unlinks is claimed by that guard only. -/
theorem Exclusive.unlink (hinv : Exclusive s) {p : Pid} {path : Path} {inode : Inode} (ok : Bool)
    (hholding : s.stages p = .holding path inode) :
    Exclusive ({ s with names := if ok then Function.update s.names path none else s.names }.advance
      p (.dropping path inode)) := by
  have hclaim : (s.stages p).claim = some (path, inode) := by
    rw [hholding]
    rfl
  constructor
  · intro q inode' hq
    by_cases hne : q = p
    · subst hne
      have hinode : inode = inode' := by simpa [State.advance, Stage.lock] using hq
      subst hinode
      exact hinv.owner q inode (Stage.lock_of_claim hclaim)
    · exact hinv.owner q inode' (by simpa [State.advance, hne] using hq)
  · intro q path' inode' hq
    have hne : q ≠ p := by
      rintro rfl
      simp [State.advance, Stage.claim] at hq
    have hold : (s.stages q).claim = some (path', inode') := by
      simpa [State.advance, hne] using hq
    have hpath : path' ≠ path := by
      rintro rfl
      exact hne (hinv.claim_unique hold hclaim)
    have hnamed := hinv.named q path' inode' hold
    change (if ok then Function.update s.names path none else s.names) path' = some inode'
    split
    next => exact (Function.update_of_ne hpath _ _).trans hnamed
    next => exact hnamed

theorem Exclusive.step (hinv : Exclusive s) {event : Event} (hguard : TriesNamedInode s event)
    (hstep : step s event = some t) : Exclusive t := by
  cases step_sound hstep with
  | reopened =>
      apply hinv.advance
      · intro inode hlock
        cases hlock
      · intro path inode hclaim
        cases hclaim
  | created hnamed =>
      apply (hinv.create hnamed _ _).advance
      · intro inode hlock
        cases hlock
      · intro path inode hclaim
        cases hclaim
  | locked hopened hfree =>
      simp only [TriesNamedInode, hopened] at hguard
      exact hinv.lock hfree (hguard _ rfl)
  | @guarded p path inode hlocked =>
      have hclaim : (s.stages p).claim = some (path, inode) := by
        rw [hlocked]
        rfl
      apply hinv.advance
      · intro inode' hlock
        cases hlock
        exact hinv.owner p inode (Stage.lock_of_claim hclaim)
      · intro path' inode' hclaim'
        cases hclaim'
        exact hinv.named p path inode hclaim
  | unlinked ok hholding => exact hinv.unlink ok hholding
  | closed p inode => exact hinv.closeInode p inode

theorem Exclusive.of_quiet (hquiet : s.Quiet) : Exclusive s := by
  obtain ⟨-, -, hidle⟩ := hquiet
  constructor
  · intro p inode hlock
    rw [hidle p] at hlock
    cases hlock
  · intro p path inode hclaim
    rw [hidle p] at hclaim
    cases hclaim

/-- In every run in which no process tries the lock of an inode that its path has ceased to
name, there is at most one live guard for each path. -/
theorem at_most_one_guard {initial final : State} {events : List Event}
    (hstart : processes.start initial)
    (hguard : processes.AllSteps TriesNamedInode initial events)
    (hrun : processes.run initial events = some final) :
    ∀ path p q, final.HoldsGuard p path → final.HoldsGuard q path → p = q := by
  have hinv : Exclusive final :=
    processes.run_invariant_of_allSteps TriesNamedInode Exclusive
      (fun _ _ _ hinv hguard hstep => hinv.step hguard hstep) (.of_quiet hstart) hguard hrun
  rintro path p q ⟨inode, hp⟩ ⟨inode', hq⟩
  have hclaim : (final.stages p).claim = some (path, inode) := by
    rw [hp]
    rfl
  have hclaim' : (final.stages q).claim = some (path, inode') := by
    rw [hq]
    rfl
  exact hinv.claim_unique hclaim hclaim'

instance decidableTriesNamedInode (s : State) : ∀ event, Decidable (TriesNamedInode s event)
  | .tryLockExclusive p _ =>
      inferInstanceAs (Decidable (∀ entry ∈ (s.stages p).opening, s.names entry.1 = some entry.2))
  | .openPidfile _ _ | .writePid _ _ | .removeFile _ _ | .close _ | .crash _ => .isTrue trivial

theorem State.empty_quiet : State.empty.Quiet := by
  refine ⟨?_, fun _ => rfl, fun _ => rfl⟩
  intro path inode hnamed
  cases hnamed

/-- A daemon is stopped and another one started, while a third start is refused. -/
def restart : List Event :=
  [.openPidfile 1 "presenced.pid", .tryLockExclusive 1 false, .writePid 1 true,
    .openPidfile 2 "presenced.pid", .tryLockExclusive 2 false, .removeFile 1 true, .close 1,
    .openPidfile 3 "presenced.pid", .tryLockExclusive 3 false, .writePid 3 true]

theorem at_most_one_guard_restart :
    ∃ final, processes.run .empty restart = some final ∧
      final.HoldsGuard 3 "presenced.pid" ∧
      ∀ path p q, final.HoldsGuard p path → final.HoldsGuard q path → p = q := by
  have hguard : processes.AllSteps TriesNamedInode .empty restart := by decide
  exact ⟨_, rfl, ⟨1, rfl⟩, at_most_one_guard State.empty_quiet hguard rfl⟩

/-- The second process opens the file of the first, which is stopped before the second
tries the lock; a third one creates the file anew.  Each of them locks its own inode. -/
def staleOpen : List Event :=
  [.openPidfile 1 "presenced.pid", .tryLockExclusive 1 false, .writePid 1 true,
    .openPidfile 2 "presenced.pid", .removeFile 1 true, .close 1,
    .openPidfile 3 "presenced.pid", .tryLockExclusive 2 false, .writePid 2 true,
    .tryLockExclusive 3 false, .writePid 3 true]

theorem staleOpen_two_guards :
    State.empty.Quiet ∧ ∃ final, processes.run .empty staleOpen = some final ∧
      final.HoldsGuard 2 "presenced.pid" ∧ final.HoldsGuard 3 "presenced.pid" :=
  ⟨State.empty_quiet, _, rfl, ⟨0, rfl⟩, ⟨1, rfl⟩⟩

end Syauth.Presenced.PidFileLock
