import Syauth.Core.Frame
import Syauth.Transition.System
import Mathlib.Logic.Function.Basic

/-! # The persistent connection of the phone

`PersistentGattClient` with the radio receiver of `SyauthCompanionService`.  The client
keeps one handle and one delayed runnable, the watchdog; the labels carry what the
Bluetooth stack, the adapter and the callers do.  Every handler runs as one step.
-/

namespace Syauth.Android.PersistentGatt

open Transition

abbrev HandleId := Nat

/-- The states that the adapter broadcasts. -/
inductive RadioState where
  | on
  | turningOff
  | off
  | turningOn
  deriving DecidableEq

/-- What `getRemoteDevice` and `connectGatt` give. -/
inductive Opening where
  | noDevice
  | failed
  | opened
  deriving DecidableEq

inductive LinkState where
  | connected
  | disconnected
  | other
  deriving DecidableEq

/-- What `onServicesDiscovered` finds, and the results of its two calls to the stack. -/
inductive Discovery where
  | noChallenge
  | noDescriptor
  | subscribing (notificationSet written : Bool)
  deriving DecidableEq

inductive GattStatus where
  | success
  | failure
  deriving DecidableEq

inductive DescriptorUuid where
  | cccd
  | other
  deriving DecidableEq

inductive CharacteristicUuid where
  | challenge
  | other
  deriving DecidableEq

inductive Callback where
  | connectionStateChange (newState : LinkState)
  | servicesDiscovered (discovery : Discovery)
  | descriptorWrite (status : GattStatus) (descriptor : DescriptorUuid)
  /-- Before API 33 the value is read from the characteristic and may be missing. -/
  | characteristicChanged (characteristic : CharacteristicUuid) (value : Option Bytes)
  deriving DecidableEq

/-- What a handler asks of the stack, and the challenges it passes on. -/
inductive Output where
  | connectGatt
  | disconnect (g : HandleId)
  | close (g : HandleId)
  | refresh (g : HandleId)
  | discoverServices (g : HandleId)
  | setCharacteristicNotification (g : HandleId)
  | writeDescriptor (g : HandleId)
  | onChallenge (frame : Bytes)
  deriving DecidableEq

/-! ## The client -/

structure Client where
  stopped : Bool
  gatt : Option HandleId
  /-- The reconnect runnable is posted. -/
  watchdog : Bool
  deriving DecidableEq

namespace Client

def fresh : Client := ⟨false, none, false⟩

def tearDown (client : Client) : List Output :=
  match client.gatt with
  | some g => [.disconnect g, .close g]
  | none => []

def start (client : Client) (isEnabled : Bool) (opening : Opening) (handle : HandleId) :
    Client × List Output :=
  let running := { client with stopped := false }
  if !isEnabled then (running, [])
  else if running.gatt.isSome then (running, [])
  else
    let posted := { running with watchdog := true }
    match opening with
    | .noDevice => (posted, [])
    | .failed => (posted, [.connectGatt])
    | .opened => ({ posted with gatt := some handle }, [.connectGatt])

def stop (client : Client) : Client × List Output :=
  (⟨true, none, false⟩, client.tearDown)

def forceReconnect (client : Client) (isEnabled : Bool) (opening : Opening) (handle : HandleId) :
    Client × List Output :=
  if client.stopped then (client, [])
  else
    let reopened := { client with gatt := none }.start isEnabled opening handle
    (reopened.1, client.tearDown ++ reopened.2)

/-- The runnable leaves the queue of the handler before it runs. -/
def reconnectRunnable (client : Client) (isEnabled : Bool) (opening : Opening)
    (handle : HandleId) : Client × List Output :=
  let fired := { client with watchdog := false }
  if fired.stopped then (fired, []) else fired.forceReconnect isEnabled opening handle

def onConnectionStateChange (client : Client) (g : HandleId) : LinkState → Client × List Output
  | .connected => (client, [.refresh g, .discoverServices g])
  | .disconnected => ({ client with watchdog := true }, [])
  | .other => (client, [])

/-- A refused `setCharacteristicNotification` does not keep the descriptor from being written. -/
def onServicesDiscovered (g : HandleId) : Discovery → List Output
  | .noChallenge | .noDescriptor => []
  | .subscribing _ _ => [.setCharacteristicNotification g, .writeDescriptor g]

def onDescriptorWrite (client : Client) (status : GattStatus) (descriptor : DescriptorUuid) :
    Client :=
  if status = .success ∧ descriptor = .cccd then { client with watchdog := false } else client

def onCharacteristicChanged (characteristic : CharacteristicUuid) (value : Option Bytes) :
    List Output :=
  match characteristic, value with
  | .challenge, some frame => [.onChallenge frame]
  | _, _ => []

/-- The callbacks share one guard: the client runs and the handle is its own. -/
def onCallback (client : Client) (g : HandleId) (callback : Callback) : Client × List Output :=
  if client.stopped = true ∨ client.gatt ≠ some g then (client, [])
  else
    match callback with
    | .connectionStateChange newState => client.onConnectionStateChange g newState
    | .servicesDiscovered discovery => (client, onServicesDiscovered g discovery)
    | .descriptorWrite status descriptor => (client.onDescriptorWrite status descriptor, [])
    | .characteristicChanged characteristic value =>
        (client, onCharacteristicChanged characteristic value)

end Client

/-! ## The client among its callers and the stack -/

structure State where
  client : Client
  radio : RadioState
  /-- Broadcasts of the adapter that the receiver has not handled yet. -/
  broadcasts : List RadioState
  nextHandle : HandleId
  /-- The stack has reported a connect of the handle, and no disconnect since. -/
  connected : HandleId → Bool
  /-- The subscription of the handle was acknowledged since its last connect. -/
  acknowledged : HandleId → Bool

inductive Event where
  | start (opening : Opening)
  | stop
  | forceReconnect (opening : Opening)
  | watchdog (opening : Opening)
  | radio (state : RadioState)
  /-- The receiver of the service handles the oldest broadcast. -/
  | received (opening : Opening)
  | callback (g : HandleId) (callback : Callback)
  deriving DecidableEq

namespace State

variable (s : State)

def isEnabled : Bool := s.radio = .on

/-- What the stack reports.  It reports a disconnect between two connects of a handle, and no
acknowledgement of a connection after its disconnect. -/
def report (g : HandleId) : Callback → Option State
  | .connectionStateChange .connected =>
      if s.connected g then none
      else some { s with
        connected := Function.update s.connected g true
        acknowledged := Function.update s.acknowledged g false }
  | .connectionStateChange .disconnected =>
      some { s with connected := Function.update s.connected g false }
  | .descriptorWrite status descriptor =>
      if s.connected g then
        some { s with
          acknowledged :=
            if status = .success ∧ descriptor = .cccd then Function.update s.acknowledged g true
            else s.acknowledged }
      else none
  | .connectionStateChange .other | .servicesDiscovered _ | .characteristicChanged _ _ => some s

/-- Whether an event can happen, and what it changes outside of the client. -/
def environment : Event → Option State
  | .start _ | .stop | .forceReconnect _ => some s
  | .watchdog _ => if s.client.watchdog then some s else none
  | .radio state => some { s with radio := state, broadcasts := s.broadcasts ++ [state] }
  | .received _ =>
      match s.broadcasts with
      | _ :: rest => some { s with broadcasts := rest }
      | [] => none
  | .callback g callback => if g < s.nextHandle then s.report g callback else none

/-- The radio receiver: off stops the client, on starts it. -/
def onReceive (opening : Opening) : RadioState → Client × List Output
  | .turningOff | .off => s.client.stop
  | .on => s.client.start s.isEnabled opening s.nextHandle
  | .turningOn => (s.client, [])

/-- The handler of an event. -/
def react : Event → Client × List Output
  | .start opening => s.client.start s.isEnabled opening s.nextHandle
  | .stop => s.client.stop
  | .forceReconnect opening => s.client.forceReconnect s.isEnabled opening s.nextHandle
  | .watchdog opening => s.client.reconnectRunnable s.isEnabled opening s.nextHandle
  | .radio _ => (s.client, [])
  | .received opening =>
      match s.broadcasts with
      | state :: _ => s.onReceive opening state
      | [] => (s.client, [])
  | .callback g callback => s.client.onCallback g callback

/-- A client that holds the next handle has used it up. -/
def withClient (client : Client) : State :=
  { s with
    client
    nextHandle := if client.gatt = some s.nextHandle then s.nextHandle + 1 else s.nextHandle }

end State

def step (s : State) (event : Event) : Option State :=
  (s.environment event).map fun t => t.withClient (s.react event).1

def observe (s : State) (event : Event) : List Output := (s.react event).2

/-- A client that was built and not started. -/
def built (radio : RadioState) (broadcasts : List RadioState) : State :=
  ⟨Client.fresh, radio, broadcasts, 0, fun _ => false, fun _ => false⟩

/-- The service builds a client and starts it in one handler, with the receiver registered
before; broadcasts may be waiting then. -/
def persistent : System State Event where
  start s := ∃ radio broadcasts opening, step (built radio broadcasts) (.start opening) = some s
  step := step

/-! ## What keeps the client going -/

/-- A stopped client has neither handle nor watchdog.  A running one with a handle has the
watchdog unless the handle is up, and one without a handle has it unless a start is on its
way. -/
structure Client.Sound (up : HandleId → Prop) (awaitsStart : Prop) (client : Client) : Prop where
  torn : client.stopped = true → client.gatt = none ∧ client.watchdog = false
  linked : client.stopped = false → ∀ g, client.gatt = some g → client.watchdog = true ∨ up g
  idle : client.stopped = false → client.gatt = none → client.watchdog = true ∨ awaitsStart

namespace Client

variable {client : Client} {up up' : HandleId → Prop} {awaitsStart awaitsStart' : Prop}

theorem Sound.mono (hsound : client.Sound up awaitsStart)
    (hup : ∀ g, client.gatt = some g → up g → up' g) (hawaits : awaitsStart → awaitsStart') :
    client.Sound up' awaitsStart' :=
  ⟨hsound.torn, fun hrunning g hg => (hsound.linked hrunning g hg).imp_right (hup g hg),
    fun hrunning hnone => (hsound.idle hrunning hnone).imp_right hawaits⟩

/-- With the watchdog posted nothing else is needed of a running client. -/
theorem sound_of_watchdog (hrunning : client.stopped = false) (hposted : client.watchdog = true) :
    client.Sound up awaitsStart := by
  refine ⟨fun hstopped => ?_, fun _ _ _ => .inl hposted, fun _ _ => .inl hposted⟩
  rw [hrunning] at hstopped
  cases hstopped

theorem start_running (isEnabled : Bool) (opening : Opening) (handle : HandleId) :
    (client.start isEnabled opening handle).1.stopped = false := by
  unfold start
  cases isEnabled with
  | false => rfl
  | true =>
      cases client.gatt with
      | some g => rfl
      | none => cases opening <;> rfl

theorem start_of_disabled (opening : Opening) (handle : HandleId) :
    (client.start false opening handle).1 = { client with stopped := false } := rfl

theorem start_of_handle {g : HandleId} (hgatt : client.gatt = some g) (isEnabled : Bool)
    (opening : Opening) (handle : HandleId) :
    (client.start isEnabled opening handle).1 = { client with stopped := false } := by
  cases isEnabled with
  | false => rfl
  | true =>
      unfold start
      simp only [hgatt]
      rfl

theorem start_posts (hgatt : client.gatt = none) (opening : Opening) (handle : HandleId) :
    (client.start true opening handle).1.watchdog = true := by
  unfold start
  cases opening <;> simp only [hgatt] <;> rfl

/-- A start keeps a handle that is there, posts the watchdog for a new one, and waits for the
radio when it is off. -/
theorem Sound.start (hsound : client.Sound up awaitsStart) {isEnabled : Bool}
    (hoff : isEnabled = false → awaitsStart') (opening : Opening) (handle : HandleId) :
    (client.start isEnabled opening handle).1.Sound up awaitsStart' := by
  cases hgatt : client.gatt with
  | some g =>
      have hrunning : client.stopped = false := by
        cases hstopped : client.stopped with
        | false => rfl
        | true =>
            rw [(hsound.torn hstopped).1] at hgatt
            cases hgatt
      rw [start_of_handle hgatt]
      refine ⟨fun hstopped => ?_, fun _ => hsound.linked hrunning, fun _ hnone => ?_⟩
      · cases hstopped
      · rw [show client.gatt = none from hnone] at hgatt
        cases hgatt
  | none =>
      cases isEnabled with
      | true => exact sound_of_watchdog (start_running _ _ _) (start_posts hgatt _ _)
      | false =>
          rw [start_of_disabled]
          refine ⟨fun hstopped => ?_, fun _ g hg => ?_, fun _ _ => .inr (hoff rfl)⟩
          · cases hstopped
          · rw [show client.gatt = some g from hg] at hgatt
            cases hgatt

theorem sound_stop : client.stop.1.Sound up awaitsStart := by
  refine ⟨fun _ => ⟨rfl, rfl⟩, ?_, ?_⟩
  · intro hrunning
    cases hrunning
  · intro hrunning
    cases hrunning

theorem Sound.forceReconnect (hsound : client.Sound up awaitsStart) {isEnabled : Bool}
    (hoff : isEnabled = false → awaitsStart) (opening : Opening) (handle : HandleId) :
    (client.forceReconnect isEnabled opening handle).1.Sound up awaitsStart := by
  unfold Client.forceReconnect
  split
  next => exact hsound
  next hrunning =>
    have hclosed : { client with gatt := none }.Sound up True := by
      refine ⟨fun hstopped => absurd hstopped hrunning, fun _ g hg => ?_, fun _ _ => .inr trivial⟩
      cases hg
    exact hclosed.start hoff opening handle

/-- The runnable that fired is replaced, unless the radio is off. -/
theorem Sound.reconnectRunnable (hsound : client.Sound up awaitsStart) {isEnabled : Bool}
    (hoff : isEnabled = false → awaitsStart) (hposted : client.watchdog = true)
    (opening : Opening) (handle : HandleId) :
    (client.reconnectRunnable isEnabled opening handle).1.Sound up awaitsStart := by
  have hrunning : client.stopped = false := by
    cases hstopped : client.stopped with
    | false => rfl
    | true =>
        rw [(hsound.torn hstopped).2] at hposted
        cases hposted
  have hclosed : (⟨client.stopped, none, false⟩ : Client).Sound up True := by
    rw [hrunning]
    refine ⟨fun hstopped => ?_, fun _ g hg => ?_, fun _ _ => .inr trivial⟩
    · cases hstopped
    · cases hg
  unfold Client.reconnectRunnable Client.forceReconnect
  simp only [hrunning, Bool.false_eq_true, if_false]
  rw [hrunning] at hclosed
  exact hclosed.start hoff opening handle

/-- The handlers behind the guard of the callbacks, and the guard itself. -/
theorem onCallback_of_other {g : HandleId} (hother : client.stopped = true ∨ client.gatt ≠ some g)
    (callback : Callback) : client.onCallback g callback = (client, []) :=
  if_pos hother

theorem onCallback_of_current {g : HandleId} (hrunning : client.stopped = false)
    (hgatt : client.gatt = some g) (callback : Callback) :
    client.onCallback g callback =
      match callback with
      | .connectionStateChange newState => client.onConnectionStateChange g newState
      | .servicesDiscovered discovery => (client, onServicesDiscovered g discovery)
      | .descriptorWrite status descriptor => (client.onDescriptorWrite status descriptor, [])
      | .characteristicChanged characteristic value =>
          (client, onCharacteristicChanged characteristic value) := by
  unfold onCallback
  rw [if_neg (by simp [hrunning, hgatt])]

end Client

/-! ## One step -/

namespace State

variable {s t : State}

/-- The handle is connected and its subscription acknowledged. -/
def Up (s : State) (g : HandleId) : Prop :=
  s.connected g = true ∧ s.acknowledged g = true

/-- The radio is off, or the broadcast that it is on is still to be handled. -/
def AwaitsStart (s : State) : Prop :=
  s.radio ≠ .on ∨ .on ∈ s.broadcasts

def Sound (s : State) : Prop := s.client.Sound s.Up s.AwaitsStart

theorem awaitsStart_of_disabled (hoff : s.isEnabled = false) : s.AwaitsStart :=
  .inl (of_decide_eq_false hoff)

theorem Sound.withClient {client : Client} (hsound : client.Sound t.Up t.AwaitsStart) :
    (t.withClient client).Sound := hsound

/-- A change of the radio puts a broadcast into the queue. -/
theorem awaitsStart_radio (state : RadioState) :
    State.AwaitsStart { s with radio := state, broadcasts := s.broadcasts ++ [state] } := by
  by_cases hon : state = .on
  · exact .inr (List.mem_append_right _ (List.mem_singleton.mpr hon.symm))
  · exact .inl hon

/-- The broadcast that is handled starts or stops the client, or it was not the awaited one. -/
theorem Sound.received (hsound : s.Sound) {state : RadioState} {rest : List RadioState}
    (hqueue : s.broadcasts = state :: rest) (opening : Opening) :
    (s.onReceive opening state).1.Sound s.Up
      (State.AwaitsStart { s with broadcasts := rest }) := by
  cases state with
  | on =>
      apply Client.Sound.start hsound
      intro hoff
      exact .inl (of_decide_eq_false hoff)
  | turningOff => exact Client.sound_stop
  | off => exact Client.sound_stop
  | turningOn =>
      refine Client.Sound.mono hsound (fun _ _ hup => hup) ?_
      intro hawaits
      refine hawaits.imp_right fun hmem => ?_
      rw [hqueue] at hmem
      exact (List.mem_cons.mp hmem).resolve_left RadioState.noConfusion

/-- A report about a handle that the client does not have. -/
theorem Sound.report_other (hsound : s.Sound) {g : HandleId} {callback : Callback}
    (hother : s.client.gatt ≠ some g) (hreport : s.report g callback = some t) :
    s.client.Sound t.Up t.AwaitsStart := by
  have hne : ∀ g', s.client.gatt = some g' → g' ≠ g := by
    rintro g' hg' rfl
    exact hother hg'
  unfold report at hreport
  split at hreport
  next =>
    split at hreport
    next => cases hreport
    next =>
      cases hreport
      refine Client.Sound.mono hsound (fun g' hg' hup => ?_) id
      simpa [Up, hne g' hg'] using hup
  next =>
    cases hreport
    refine Client.Sound.mono hsound (fun g' hg' hup => ?_) id
    simpa [Up, hne g' hg'] using hup
  next =>
    split at hreport
    next =>
      cases hreport
      refine Client.Sound.mono hsound (fun g' hg' hup => ?_) id
      refine ⟨hup.1, ?_⟩
      change (if _ then Function.update s.acknowledged g true else s.acknowledged) g' = true
      split
      next => exact (Function.update_of_ne (hne g' hg') _ _).trans hup.2
      next => exact hup.2
    next => cases hreport
  all_goals
    cases hreport
    exact hsound

/-- A report about the handle of a running client, with the reaction of the client. -/
theorem Sound.report_current (hsound : s.Sound) {g : HandleId} {callback : Callback}
    (hrunning : s.client.stopped = false) (hgatt : s.client.gatt = some g)
    (hreport : s.report g callback = some t) :
    (s.client.onCallback g callback).1.Sound t.Up t.AwaitsStart := by
  rw [Client.onCallback_of_current hrunning hgatt]
  have hlinked := hsound.linked hrunning g hgatt
  cases callback with
  | connectionStateChange newState =>
      cases newState with
      | connected =>
          -- The handle was not connected, so the watchdog is still posted.
          simp only [report] at hreport
          split at hreport
          next => cases hreport
          next hdown =>
            cases hreport
            have hposted := hlinked.resolve_right fun hup => hdown hup.1
            exact Client.sound_of_watchdog hrunning hposted
      | disconnected =>
          cases hreport
          exact Client.sound_of_watchdog hrunning rfl
      | other =>
          cases hreport
          exact hsound
  | servicesDiscovered discovery =>
      cases hreport
      exact hsound
  | characteristicChanged characteristic value =>
      cases hreport
      exact hsound
  | descriptorWrite status descriptor =>
      simp only [report] at hreport
      split at hreport
      next hup =>
        cases hreport
        simp only [Client.onDescriptorWrite]
        split
        next hacked =>
          refine ⟨fun hstopped => ?_, fun _ g' hg' => .inr ?_, fun _ hnone => ?_⟩
          · rw [show s.client.stopped = true from hstopped] at hrunning
            cases hrunning
          · obtain rfl : g = g' := Option.some.inj (hgatt.symm.trans hg')
            exact ⟨hup, by simp⟩
          · rw [show s.client.gatt = none from hnone] at hgatt
            cases hgatt
        next => exact hsound
      next => cases hreport

end State

theorem step_client {s t : State} {event : Event} (hstep : persistent.step s event = some t) :
    t.client = (s.react event).1 := by
  obtain ⟨env, -, rfl⟩ := Option.map_eq_some_iff.mp hstep
  rfl

theorem sound_step {s t : State} (hsound : s.Sound) {event : Event}
    (hstep : step s event = some t) : t.Sound := by
  obtain ⟨env, henv, rfl⟩ := Option.map_eq_some_iff.mp hstep
  apply State.Sound.withClient
  cases event with
  | start opening =>
      cases henv
      exact Client.Sound.start hsound State.awaitsStart_of_disabled opening _
  | stop =>
      cases henv
      exact Client.sound_stop
  | forceReconnect opening =>
      cases henv
      exact Client.Sound.forceReconnect hsound State.awaitsStart_of_disabled opening _
  | watchdog opening =>
      simp only [State.environment] at henv
      split at henv
      next hposted =>
        cases henv
        exact Client.Sound.reconnectRunnable hsound State.awaitsStart_of_disabled hposted opening _
      next => cases henv
  | radio state =>
      cases henv
      exact Client.Sound.mono hsound (fun _ _ hup => hup) fun _ => State.awaitsStart_radio state
  | received opening =>
      simp only [State.environment] at henv
      split at henv
      next state rest hqueue =>
        cases henv
        simp only [State.react, hqueue]
        exact hsound.received hqueue opening
      next => cases henv
  | callback g callback =>
      simp only [State.environment] at henv
      split at henv
      next =>
        by_cases hother : s.client.stopped = true ∨ s.client.gatt ≠ some g
        · rw [State.react, Client.onCallback_of_other hother]
          refine hsound.report_other ?_ henv
          rcases hother with hstopped | hne
          · rw [(hsound.torn hstopped).1]
            exact (Option.some_ne_none g).symm
          · exact hne
        · obtain ⟨hrunning, hgatt⟩ := not_or.mp hother
          exact hsound.report_current (Bool.eq_false_iff.mpr hrunning) (not_not.mp hgatt) henv
      next => cases henv

/-! ## Whole runs -/

theorem sound_start {initial : State} (hstart : persistent.start initial) : initial.Sound := by
  obtain ⟨radio, broadcasts, opening, hstep⟩ := hstart
  obtain ⟨env, henv, rfl⟩ := Option.map_eq_some_iff.mp hstep
  cases henv
  have hfresh : Client.fresh.Sound (built radio broadcasts).Up True := by
    refine ⟨fun hstopped => ?_, fun _ g hg => ?_, fun _ _ => .inr trivial⟩
    · cases hstopped
    · cases hg
  exact hfresh.start State.awaitsStart_of_disabled opening _

theorem sound_run {initial final : State} {events : List Event}
    (hstart : persistent.start initial) (hrun : persistent.run initial events = some final) :
    final.Sound :=
  persistent.run_invariant State.Sound (fun _ _ _ hsound hstep => sound_step hsound hstep)
    (sound_start hstart) hrun

/-- A stopped client. -/
def Client.torn : Client := ⟨true, none, false⟩

/-- The event calls `start`, directly or from the radio receiver. -/
def Starts (s : State) : Event → Prop
  | .start _ => True
  | .received _ => s.broadcasts.head? = some .on
  | _ => False

/-- Nothing but a start moves a stopped client. -/
theorem torn_step {s t : State} (htorn : s.client = .torn) {event : Event}
    (hguard : ¬ Starts s event) (hstep : step s event = some t) :
    t.client = .torn ∧ observe s event = [] := by
  obtain ⟨env, henv, rfl⟩ := Option.map_eq_some_iff.mp hstep
  change (s.react event).1 = .torn ∧ (s.react event).2 = []
  cases event with
  | start opening => exact absurd trivial hguard
  | stop =>
      simp only [State.react, htorn]
      exact ⟨rfl, rfl⟩
  | forceReconnect opening =>
      simp only [State.react, htorn]
      exact ⟨rfl, rfl⟩
  | watchdog opening =>
      simp only [State.environment, htorn] at henv
      cases henv
  | radio state => exact ⟨htorn, rfl⟩
  | received opening =>
      simp only [State.environment] at henv
      split at henv
      next state rest hqueue =>
        simp only [State.react, hqueue]
        cases state with
        | on =>
            refine absurd ?_ hguard
            simp only [Starts, hqueue, List.head?_cons]
        | turningOff | off =>
            simp only [State.onReceive, htorn]
            exact ⟨rfl, rfl⟩
        | turningOn => exact ⟨htorn, rfl⟩
      next => cases henv
  | callback g callback =>
      have hother : s.client.stopped = true ∨ s.client.gatt ≠ some g := by
        rw [htorn]
        exact .inl rfl
      simp only [State.react, Client.onCallback_of_other hother, and_true]
      exact htorn

theorem torn_run {s t : State} (htorn : s.client = .torn) {events : List Event}
    (hguard : persistent.AllSteps (fun state event => ¬ Starts state event) s events)
    (hrun : persistent.run s events = some t) :
    t.client = .torn ∧ persistent.trace observe s events = [] := by
  have hstart : s.client = .torn ∧ ([] : List Output) = [] := ⟨htorn, rfl⟩
  have hinv := persistent.run_trace_invariant_of_allSteps (fun state event => ¬ Starts state event)
    observe (fun seen state => state.client = .torn ∧ seen = [])
    (fun seen state event next hinv hguard hstep => ?_) hstart hguard hrun
  · exact hinv
  · obtain ⟨hclient, hnothing⟩ := torn_step hinv.1 hguard hstep
    refine ⟨hclient, ?_⟩
    rw [hinv.2, hnothing]
    rfl

/-- In every reachable state that is not stopped, with the radio on and all its broadcasts
handled, the watchdog is posted or the subscription of the current handle has been
acknowledged.  A stopped client has no handle and does nothing until the next start.
Callbacks of other handles than the current one change nothing. -/
theorem never_stuck {initial final : State} {events : List Event}
    (hstart : persistent.start initial) (hrun : persistent.run initial events = some final) :
    (final.client.stopped = false → final.radio = .on → final.broadcasts = [] →
      final.client.watchdog = true ∨ ∃ g, final.client.gatt = some g ∧
        final.connected g = true ∧ final.acknowledged g = true) ∧
    (∀ t, persistent.step final .stop = some t → t.client.stopped = true) ∧
    (final.client.stopped = true → ∀ later t,
      persistent.AllSteps (fun state event => ¬ Starts state event) final later →
      persistent.run final later = some t →
      t.client = ⟨true, none, false⟩ ∧ persistent.trace observe final later = []) ∧
    ∀ g callback t, final.client.gatt ≠ some g →
      persistent.step final (.callback g callback) = some t →
      t.client = final.client ∧ observe final (.callback g callback) = [] := by
  have hsound := sound_run hstart hrun
  refine ⟨?_, ?_, ?_, ?_⟩
  · intro hrunning hon hhandled
    cases hgatt : final.client.gatt with
    | some g => exact (hsound.linked hrunning g hgatt).imp_right fun hup => ⟨g, rfl, hup⟩
    | none =>
        refine .inl ((hsound.idle hrunning hgatt).resolve_right ?_)
        rintro (hoff | hmem)
        · exact hoff hon
        · rw [hhandled] at hmem
          cases hmem
  · intro t hstep
    rw [step_client hstep]
    rfl
  · intro hstopped later t hguard hlater
    obtain ⟨hgatt, hwatchdog⟩ := hsound.torn hstopped
    have htorn : final.client = .torn := by
      cases hclient : final.client
      simp only [hclient] at hstopped hgatt hwatchdog
      rw [hstopped, hgatt, hwatchdog]
      rfl
    exact torn_run htorn hguard hlater
  · intro g callback t hother hstep
    have hsilent := Client.onCallback_of_other (.inr hother) callback
    rw [step_client hstep]
    exact ⟨congrArg Prod.fst hsilent, congrArg Prod.snd hsilent⟩

/-- The radio goes off in the middle of a subscription and comes back. -/
def radioCycle : List Event :=
  [.callback 0 (.connectionStateChange .connected),
    .callback 0 (.servicesDiscovered (.subscribing true true)), .radio .off, .received .opened,
    .radio .on, .received .opened, .callback 0 (.connectionStateChange .disconnected),
    .callback 1 (.connectionStateChange .connected),
    .callback 1 (.servicesDiscovered (.subscribing true true)),
    .callback 1 (.descriptorWrite .success .cccd)]

theorem never_stuck_radioCycle :
    ∃ initial final, persistent.start initial ∧
      persistent.run initial radioCycle = some final ∧ final.client = ⟨false, some 1, false⟩ ∧
      (final.client.watchdog = true ∨ ∃ g, final.client.gatt = some g ∧
        final.connected g = true ∧ final.acknowledged g = true) := by
  have hstart : persistent.start ((built .on []).withClient ⟨false, some 0, true⟩) :=
    ⟨.on, [], .opened, rfl⟩
  have hrun : persistent.run ((built .on []).withClient ⟨false, some 0, true⟩) radioCycle =
      some _ := rfl
  exact ⟨_, _, hstart, hrun, rfl, (never_stuck hstart hrun).1 rfl rfl rfl⟩

end Syauth.Android.PersistentGatt
