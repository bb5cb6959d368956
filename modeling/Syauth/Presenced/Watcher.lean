import Syauth.Presenced.Steps
import Syauth.Transition.Notices

/-! # How the daemon learns of a changed bond file

`spawn_inotify_watcher` and `wait_for_reason` of `runtime.rs` around the daemon: the bond
file and the key files on the disk, the callback of the file watcher with its channel, the
task that debounces, the `SIGHUP` stream, and the reload queue that all of them feed.  Any
process may write the files between any two steps.
-/

namespace Syauth.Presenced.Watcher

open Transport Transition

/-! ## The callback of the file watcher -/

inductive EventKind where
  | any
  | access
  | create
  | modify
  | remove
  | other
  deriving DecidableEq

structure NotifyEvent where
  kind : EventKind
  paths : List String
  deriving DecidableEq

/-- What `notify` hands to the callback: an event or an error of its own. -/
abbrev NotifyResult := Except String NotifyEvent

/-- The test of the callback: a create, modify or remove event that names the bond file. -/
def concerns (bondsFile : String) : NotifyResult → Bool
  | .ok event =>
      (match event.kind with
        | .create | .modify | .remove => true
        | .any | .access | .other => false) &&
        event.paths.any fun path => path == bondsFile
  | .error _ => false

/-- The capacity of the channel between the callback and the watcher's task. -/
def eventChannelCapacity : Nat := 32

/-- Where the watcher's task stands. -/
inductive WatcherPhase where
  /-- The watch of the parent directory is not established yet. -/
  | starting
  /-- The watch could not be established, and the task has returned. -/
  | returned
  | receiving
  | debouncing
  | draining
  | sending
  deriving DecidableEq

def WatcherPhase.watching : WatcherPhase → Bool
  | .starting | .returned => false
  | .receiving | .debouncing | .draining | .sending => true

/-- The task has taken an event for which it has not asked for a reload yet. -/
def WatcherPhase.owesReload : WatcherPhase → Bool
  | .debouncing | .draining | .sending => true
  | .starting | .returned | .receiving => false

/-! ## State -/

structure Host where
  daemon : State
  bondsPath : String
  bondsFile : BondFileRead
  keysDir : KeysDir
  /-- Results that the callback has not been called with yet, oldest first. -/
  undelivered : List NotifyResult
  /-- The units in the channel of the callback. -/
  changes : Nat
  phase : WatcherPhase
  /-- A `SIGHUP` that the signal stream has not returned yet; several are one. -/
  hangup : Bool
  /-- `wait_for_reason` is sending a reload command for a `SIGHUP`. -/
  forwarding : Bool

/-- A daemon whose orchestrator is set up, before its watcher's task has run. -/
def Host.started (daemon : State) (bondsPath : String) (bondsFile : BondFileRead)
    (keysDir : KeysDir) : Host :=
  ⟨daemon, bondsPath, bondsFile, keysDir, [], 0, .starting, false, false⟩

namespace Host

variable (s : Host)

/-- Push a command on the reload queue, waiting while it is full. -/
def pushReload (trigger : ReloadTrigger) : Option Host :=
  if s.daemon.reloadQueue.length < reloadChannelCapacity then
    some { s with daemon :=
      { s.daemon with reloadQueue := s.daemon.reloadQueue ++ [trigger] } }
  else none

/-- Results of `notify` reach the callback only once the watch is established. -/
def raise (results : List NotifyResult) : Host :=
  if s.phase.watching then { s with undelivered := s.undelivered ++ results } else s

end Host

/-! ## Steps -/

inductive Event where
  /-- Some process replaces the bond file. -/
  | writeBonds (file : BondFileRead) (raised : List NotifyResult)
  /-- Some process writes key files. -/
  | writeKeys (keysDir : KeysDir)
  /-- Other changes in the directory, such as the audit log and temporary files. -/
  | otherFile (raised : List NotifyResult)
  | watch (established : Bool)
  | callback
  | recv
  | slept
  | tryRecv
  | send
  | sighup
  | sighupRecv
  | sighupSend
  /-- The orchestrator takes a reload command and reads the files. -/
  | reload (order : IterOrder)
  | daemon (event : Presenced.Event)

variable (prim : Primitives)

def callbackStep (s : Host) : Option Host :=
  match s.undelivered with
  | [] => none
  | result :: undelivered =>
      if concerns s.bondsPath result then
        -- `blocking_send` holds the thread of `notify` while the channel is full.
        if s.changes < eventChannelCapacity then
          some { s with undelivered, changes := s.changes + 1 }
        else none
      else some { s with undelivered }

/-- One turn of the watcher's loop is a receive, a sleep, receives until the channel is
empty, and a reload command. -/
def watcherStep (s : Host) : Event → Option Host
  | .watch established =>
      match s.phase with
      | .starting => some { s with phase := if established then .receiving else .returned }
      | _ => none
  | .recv =>
      match s.phase, s.changes with
      | .receiving, changes + 1 => some { s with changes, phase := .debouncing }
      | _, _ => none
  | .slept =>
      match s.phase with
      | .debouncing => some { s with phase := .draining }
      | _ => none
  | .tryRecv =>
      match s.phase, s.changes with
      | .draining, changes + 1 => some { s with changes }
      | .draining, 0 => some { s with phase := .sending }
      | _, _ => none
  | .send =>
      match s.phase with
      | .sending => { s with phase := .receiving }.pushReload .inotify
      | _ => none
  | _ => none

/-- `wait_for_reason` takes a pending `SIGHUP`; without an orchestrator it only warns. -/
def hangupStep (s : Host) : Event → Option Host
  | .sighup => some { s with hangup := true }
  | .sighupRecv =>
      if s.hangup && !s.forwarding then
        some { s with hangup := false, forwarding := s.daemon.orchestrated }
      else none
  | .sighupSend =>
      if s.forwarding then { s with forwarding := false }.pushReload .sighup else none
  | _ => none

/-- The steps of the daemon that have no label of their own here.  Reloads read the files on
the disk, and commands of the watcher and of `SIGHUP` come from the tasks above. -/
def Elsewhere : Presenced.Event → Bool
  | .loop (.reloadBegin _ _ _) => false
  | .loop (.signal trigger) => trigger == .pair
  | _ => true

def daemonStep (s : Host) (event : Presenced.Event) : Option Host :=
  (Presenced.step prim s.daemon event).map fun daemon => { s with daemon }

def step (s : Host) : Event → Option Host
  | .writeBonds file raised => some ({ s with bondsFile := file }.raise raised)
  | .writeKeys keysDir => some { s with keysDir }
  | .otherFile raised => some (s.raise raised)
  | .callback => callbackStep s
  | .watch established => watcherStep s (.watch established)
  | .recv => watcherStep s .recv
  | .slept => watcherStep s .slept
  | .tryRecv => watcherStep s .tryRecv
  | .send => watcherStep s .send
  | .sighup => hangupStep s .sighup
  | .sighupRecv => hangupStep s .sighupRecv
  | .sighupSend => hangupStep s .sighupSend
  | .reload order => daemonStep prim s (.loop (.reloadBegin s.bondsFile s.keysDir order))
  | .daemon event => if Elsewhere event then daemonStep prim s event else none

def host : System Host Event where
  start s := ∃ daemon bondsPath bondsFile keysDir, s = .started daemon bondsPath bondsFile keysDir
  step := step prim

/-! ## What a step can do -/

inductive Step (prim : Primitives) (s : Host) : Event → Host → Prop
  | wrote {file : BondFileRead} {raised : List NotifyResult} :
      Step prim s (.writeBonds file raised) ({ s with bondsFile := file }.raise raised)
  | wroteKeys {keysDir : KeysDir} : Step prim s (.writeKeys keysDir) { s with keysDir }
  | other {raised : List NotifyResult} : Step prim s (.otherFile raised) (s.raise raised)
  | delivered {result : NotifyResult} {rest : List NotifyResult}
      (hundelivered : s.undelivered = result :: rest)
      (hconcerns : concerns s.bondsPath result = true) :
      Step prim s .callback { s with undelivered := rest, changes := s.changes + 1 }
  | ignored {result : NotifyResult} {rest : List NotifyResult}
      (hundelivered : s.undelivered = result :: rest)
      (hconcerns : concerns s.bondsPath result = false) :
      Step prim s .callback { s with undelivered := rest }
  | watched {established : Bool} (hphase : s.phase = .starting) :
      Step prim s (.watch established)
        { s with phase := if established then .receiving else .returned }
  | received {changes : Nat} (hphase : s.phase = .receiving) (hchanges : s.changes = changes + 1) :
      Step prim s .recv { s with changes, phase := .debouncing }
  | slept (hphase : s.phase = .debouncing) : Step prim s .slept { s with phase := .draining }
  | drained {changes : Nat} (hphase : s.phase = .draining) (hchanges : s.changes = changes + 1) :
      Step prim s .tryRecv { s with changes }
  | emptied (hphase : s.phase = .draining) (hchanges : s.changes = 0) :
      Step prim s .tryRecv { s with phase := .sending }
  | sent (hphase : s.phase = .sending) :
      Step prim s .send { s with
        phase := .receiving
        daemon := { s.daemon with reloadQueue := s.daemon.reloadQueue ++ [.inotify] } }
  | hungUp : Step prim s .sighup { s with hangup := true }
  | hangupReceived (hhangup : s.hangup = true) (hforwarding : s.forwarding = false) :
      Step prim s .sighupRecv { s with hangup := false, forwarding := s.daemon.orchestrated }
  | hangupSent (hforwarding : s.forwarding = true) :
      Step prim s .sighupSend { s with
        forwarding := false
        daemon := { s.daemon with reloadQueue := s.daemon.reloadQueue ++ [.sighup] } }
  | reload {order : IterOrder} {daemon : State}
      (hstep : Presenced.step prim s.daemon
        (.loop (.reloadBegin s.bondsFile s.keysDir order)) = some daemon) :
      Step prim s (.reload order) { s with daemon }
  | daemon {event : Presenced.Event} {daemon : State} (helsewhere : Elsewhere event = true)
      (hstep : Presenced.step prim s.daemon event = some daemon) :
      Step prim s (.daemon event) { s with daemon }

variable {prim} {s t : Host}

theorem Host.pushReload_eq_some {trigger : ReloadTrigger} :
    s.pushReload trigger = some t ↔ s.daemon.reloadQueue.length < reloadChannelCapacity ∧
      { s with daemon := { s.daemon with
        reloadQueue := s.daemon.reloadQueue ++ [trigger] } } = t := by
  unfold Host.pushReload
  split
  · next hroom => simp only [hroom, true_and, Option.some.injEq]
  · next hfull => simp only [hfull, false_and, reduceCtorEq]

theorem daemonStep_eq_some {event : Presenced.Event} :
    daemonStep prim s event = some t ↔
      ∃ daemon, Presenced.step prim s.daemon event = some daemon ∧ { s with daemon } = t := by
  unfold daemonStep
  exact Option.map_eq_some_iff

theorem callbackStep_sound (hstep : callbackStep s = some t) : Step prim s .callback t := by
  unfold callbackStep at hstep
  split at hstep
  · cases hstep
  · next result rest hundelivered =>
      split at hstep
      · next hconcerns =>
          split at hstep
          · cases hstep
            exact .delivered hundelivered hconcerns
          · cases hstep
      · next hconcerns =>
          cases hstep
          exact .ignored hundelivered (Bool.eq_false_of_not_eq_true hconcerns)

theorem watcherStep_sound {event : Event} (hstep : watcherStep s event = some t) :
    Step prim s event t := by
  unfold watcherStep at hstep
  split at hstep
  · split at hstep
    · next hphase =>
        cases hstep
        exact .watched hphase
    · cases hstep
  · split at hstep
    · next changes hphase hchanges =>
        cases hstep
        exact .received hphase hchanges
    · cases hstep
  · split at hstep
    · next hphase =>
        cases hstep
        exact .slept hphase
    · cases hstep
  · split at hstep
    · next changes hphase hchanges =>
        cases hstep
        exact .drained hphase hchanges
    · next hphase hchanges =>
        cases hstep
        exact .emptied hphase hchanges
    · cases hstep
  · split at hstep
    · next hphase =>
        obtain ⟨-, rfl⟩ := Host.pushReload_eq_some.mp hstep
        exact .sent hphase
    · cases hstep
  · cases hstep

theorem hangupStep_sound {event : Event} (hstep : hangupStep s event = some t) :
    Step prim s event t := by
  unfold hangupStep at hstep
  split at hstep
  · cases hstep
    exact .hungUp
  · split at hstep
    · next hready =>
        cases hstep
        simp only [Bool.and_eq_true, Bool.not_eq_true'] at hready
        exact .hangupReceived hready.1 hready.2
    · cases hstep
  · split at hstep
    · next hforwarding =>
        obtain ⟨-, rfl⟩ := Host.pushReload_eq_some.mp hstep
        exact .hangupSent hforwarding
    · cases hstep
  · cases hstep

theorem step_sound {event : Event} (hstep : (host prim).step s event = some t) :
    Step prim s event t := by
  cases event with
  | writeBonds file raised =>
      cases hstep
      exact .wrote
  | writeKeys keysDir =>
      cases hstep
      exact .wroteKeys
  | otherFile raised =>
      cases hstep
      exact .other
  | callback => exact callbackStep_sound hstep
  | watch established => exact watcherStep_sound hstep
  | recv => exact watcherStep_sound hstep
  | slept => exact watcherStep_sound hstep
  | tryRecv => exact watcherStep_sound hstep
  | send => exact watcherStep_sound hstep
  | sighup => exact hangupStep_sound hstep
  | sighupRecv => exact hangupStep_sound hstep
  | sighupSend => exact hangupStep_sound hstep
  | reload order =>
      obtain ⟨daemon, hdaemon, rfl⟩ := daemonStep_eq_some.mp hstep
      exact .reload hdaemon
  | daemon event =>
      simp only [host, step] at hstep
      split at hstep
      · next helsewhere =>
          obtain ⟨daemon, hdaemon, rfl⟩ := daemonStep_eq_some.mp hstep
          exact .daemon helsewhere hdaemon
      · cases hstep

/-! ## The reload queue of the daemon -/

theorem reloadQueue_challengeStep {d d' : State} {c : CallId} {conn : Connection}
    {peerId : String} {phase : Phase} {event : CallEvent}
    (hstep : challengeStep prim d c conn peerId phase event = some d') :
    d'.reloadQueue = d.reloadQueue := by
  unfold challengeStep at hstep
  split at hstep
  case h_1 => split at hstep <;> (cases hstep; rfl)
  case h_2 =>
    split at hstep
    · cases hstep
    · cases hstep
      rfl
  case h_8 => split at hstep <;> (cases hstep; rfl)
  case h_10 => split at hstep <;> (cases hstep; rfl)
  all_goals cases hstep <;> rfl

/-- A command that is on the queue stays there until the orchestrator takes it. -/
theorem reloadQueue_prefix {d d' : State} {event : Presenced.Event}
    (helsewhere : Elsewhere event = true) (hstep : Presenced.step prim d event = some d') :
    d.reloadQueue <+: d'.reloadQueue := by
  cases event with
  | accept c request =>
      simp only [Presenced.step] at hstep
      split at hstep
      · cases hstep
        exact List.prefix_rfl
      · cases hstep
  | call c event =>
      simp only [Presenced.step] at hstep
      split at hstep
      · next conn hconn =>
          unfold callStep at hstep
          split at hstep
          · unfold dispatchStep at hstep
            split at hstep
            · split at hstep <;> (cases hstep; exact List.prefix_rfl)
            · split at hstep
              · split at hstep
                · cases hstep
                  exact List.prefix_append _ _
                · cases hstep
              · cases hstep
                exact List.prefix_rfl
            · cases hstep
              exact List.prefix_rfl
          · split at hstep
            · rw [reloadQueue_challengeStep hstep]
            · cases hstep
      · cases hstep
  | loop event =>
      have hdaemon : (Presenced.daemon prim).step d (.loop event) = some d' := hstep
      cases Presenced.step_sound hdaemon with
      | loop hloop =>
          cases hloop with
          | queued => exact List.prefix_append _ _
          | skipped | began => cases helsewhere
          | removed | added => exact List.prefix_rfl
          | @ended now result => cases result <;> exact List.prefix_rfl
          | @ticked now result => cases result <;> exact List.prefix_rfl

theorem orchestrated_step {d d' : State} {event : Presenced.Event}
    (hstep : Presenced.step prim d event = some d') : d'.orchestrated = d.orchestrated := by
  have hdaemon : (Presenced.daemon prim).step d event = some d' := hstep
  cases Presenced.step_sound hdaemon with
  | accept => rfl
  | call _ hcall => exact hcall.orchestrated_eq
  | loop hloop => exact hloop.orchestrated_eq

end Syauth.Presenced.Watcher
