import Syauth.Core.Frame
import Syauth.Transition.System

/-! # The approval state machine of the phone

`approve/ApproveViewModel.kt`.  The countdown, the approve flows and the senders of a
denial are coroutines; a step is a tap, or what a coroutine does up to its next suspension
point.  Results of the prompt, of the Keystore and of the wire signer are part of the
labels.
-/

namespace Syauth.Android.Approve

inductive DenialReason where
  | userDenied
  | timedOut
  | biometricFailed
  | biometricUnavailable
  | signError (reason : String)
  deriving DecidableEq

inductive ApproveUiState where
  | idle
  | counting (remainingSeconds : Int32)
  | awaitingBiometric
  | signing
  | approved (responseFrame : Bytes)
  | denied (reason : DenialReason)
  deriving DecidableEq

inductive BiometricResult where
  | success
  | failed (reason : String)
  | unavailable (reason : String)
  deriving DecidableEq

inductive WireSignResult where
  | ok (signature : Bytes)
  | failure (reason : String)
  deriving DecidableEq

/-- A call inside `runCatching`, with the message of what it throws. -/
abbrev Caught := Except (Option String) Unit

/-- The coroutine of `countdownJob`. -/
inductive Countdown where
  | launched
  | delaying (remainingMillis : Int64)
  deriving DecidableEq

/-- A coroutine of `runApproveFlow`, by what it waits for. -/
inductive Flow where
  | launched
  | authenticating
  | signing
  deriving DecidableEq

structure ApproveViewModel where
  uiState : ApproveUiState
  countdown : Option Countdown
  flows : List Flow
  /-- Coroutines that are launched to run `sendDeny`. -/
  denySenders : Nat
  deriving DecidableEq

namespace ApproveViewModel

def new : ApproveViewModel := ⟨.idle, none, [], 0⟩

variable (timeoutMillis tickMillis : Int64)

def millisPerSecond : Int64 := 1000

def millisToSeconds (millis : Int64) : Int32 :=
  ((millis + millisPerSecond - 1) / millisPerSecond).toInt32

def transitionToDenied (s : ApproveViewModel) (reason : DenialReason) : ApproveViewModel :=
  { s with uiState := .denied reason, denySenders := s.denySenders + 1 }

def emitSignError (s : ApproveViewModel) (reason : String) : ApproveViewModel :=
  { s with uiState := .denied (.signError reason), denySenders := s.denySenders + 1 }

def start (s : ApproveViewModel) : ApproveViewModel :=
  match s.uiState with
  | .idle =>
      { s with
        uiState := .counting (millisToSeconds timeoutMillis)
        countdown := some .launched }
  | _ => s

def onTimeout (s : ApproveViewModel) : ApproveViewModel :=
  match s.uiState with
  | .counting _ => s.transitionToDenied .timedOut
  | _ => s

/-- The end of a `delay` of the countdown. -/
def countdownTick (s : ApproveViewModel) (remainingMillis : Int64) : ApproveViewModel :=
  match s.uiState with
  | .counting _ =>
      let remainingMillis := remainingMillis - tickMillis
      if remainingMillis ≤ 0 then { s with countdown := none }.onTimeout
      else
        { s with
          uiState := .counting (millisToSeconds remainingMillis)
          countdown := some (.delaying remainingMillis) }
  | _ => { s with countdown := none }

def onApproveClicked (s : ApproveViewModel) : ApproveViewModel :=
  match s.uiState with
  | .counting _ =>
      { s with
        countdown := none
        uiState := .awaitingBiometric
        flows := s.flows ++ [.launched] }
  | _ => s

def onDenyClicked (s : ApproveViewModel) : ApproveViewModel :=
  match s.uiState with
  | .counting _ => { s with countdown := none }.transitionToDenied .userDenied
  | _ => s

/-- A flow goes on to wait for something else. -/
def setFlow (s : ApproveViewModel) (i : Nat) (flow : Flow) : ApproveViewModel :=
  { s with flows := s.flows.set i flow }

/-- A flow returns. -/
def endFlow (s : ApproveViewModel) (i : Nat) : ApproveViewModel :=
  { s with flows := s.flows.eraseIdx i }

/-- The flow up to the prompt. -/
def flowPrepared (s : ApproveViewModel) (i : Nat) (prepared : Caught) : ApproveViewModel :=
  match prepared with
  | .error message => (s.endFlow i).emitSignError (message.getD "prepareSignature failed")
  | .ok () => s.setFlow i .authenticating

/-- The flow from the result of the prompt to the wire signer. -/
def flowAuthenticated (s : ApproveViewModel) (i : Nat) (result : BiometricResult)
    (gate : Caught) : ApproveViewModel :=
  match result with
  | .unavailable _ => (s.endFlow i).transitionToDenied .biometricUnavailable
  | .failed _ => (s.endFlow i).transitionToDenied .biometricFailed
  | .success =>
      let signing := { s with uiState := .signing }
      match gate with
      | .error message => (signing.endFlow i).emitSignError (message.getD "gate sign failed")
      | .ok () => signing.setFlow i .signing

/-- The flow from the result of the wire signer to its call of `sendApprove`. -/
def flowSigned (s : ApproveViewModel) (i : Nat) (result : WireSignResult) : ApproveViewModel :=
  match result with
  | .failure reason => (s.endFlow i).emitSignError reason
  | .ok signature => { s.endFlow i with uiState := .approved signature }

end ApproveViewModel

inductive Event where
  | start
  | countdownStart
  | tick
  | approve
  | deny
  | prepared (i : Nat) (result : Caught)
  | authenticated (i : Nat) (result : BiometricResult) (gate : Caught)
  | signed (i : Nat) (result : WireSignResult)
  | sendDeny
  deriving DecidableEq

def step (timeoutMillis tickMillis : Int64) (s : ApproveViewModel) :
    Event → Option ApproveViewModel
  | .start => some (s.start timeoutMillis)
  | .countdownStart =>
      match s.countdown with
      | some .launched =>
          if timeoutMillis > 0 then some { s with countdown := some (.delaying timeoutMillis) }
          else some { s with countdown := none }
      | _ => none
  | .tick =>
      match s.countdown with
      | some (.delaying remainingMillis) => some (s.countdownTick tickMillis remainingMillis)
      | _ => none
  | .approve => some s.onApproveClicked
  | .deny => some s.onDenyClicked
  | .prepared i result =>
      if s.flows[i]? = some .launched then some (s.flowPrepared i result) else none
  | .authenticated i result gate =>
      if s.flows[i]? = some .authenticating then some (s.flowAuthenticated i result gate) else none
  | .signed i result => if s.flows[i]? = some .signing then some (s.flowSigned i result) else none
  | .sendDeny =>
      if 0 < s.denySenders then some { s with denySenders := s.denySenders - 1 } else none

def approval (timeoutMillis tickMillis : Int64) : Transition.System ApproveViewModel Event where
  start s := s = .new
  step := step timeoutMillis tickMillis

/-! ## What is observed -/

inductive Note where
  | biometricSuccess
  | gateSigned
  | wireSigned (signature : Bytes)
  | sentApprove (responseFrame : Bytes)
  | sentDeny
  deriving DecidableEq

/-- A response goes to the desktop. -/
def Note.isResponse : Note → Bool
  | .sentApprove _ | .sentDeny => true
  | _ => false

def observe (s : ApproveViewModel) : Event → List Note
  | .authenticated i .success gate =>
      if s.flows[i]? = some .authenticating then
        match gate with
        | .ok () => [.biometricSuccess, .gateSigned]
        | .error _ => [.biometricSuccess]
      else []
  | .signed i (.ok signature) =>
      if s.flows[i]? = some .signing then [.wireSigned signature, .sentApprove signature] else []
  | .sendDeny => if 0 < s.denySenders then [.sentDeny] else []
  | _ => []

/-! ## The life of a view model -/

variable {timeoutMillis tickMillis : Int64} {s t : ApproveViewModel} {notes : List Note}

/-- Every position a view model can be in, with what was observed on the way.  A denial is
on its way while its sender has not run. -/
inductive Life : List Note → ApproveViewModel → Prop
  | idle (countdown : Option Countdown) : Life [] ⟨.idle, countdown, [], 0⟩
  | counting (seconds : Int32) (countdown : Option Countdown) :
      Life [] ⟨.counting seconds, countdown, [], 0⟩
  | launched (countdown : Option Countdown) :
      Life [] ⟨.awaitingBiometric, countdown, [.launched], 0⟩
  | authenticating (countdown : Option Countdown) :
      Life [] ⟨.awaitingBiometric, countdown, [.authenticating], 0⟩
  | signing (countdown : Option Countdown) :
      Life [.biometricSuccess, .gateSigned] ⟨.signing, countdown, [.signing], 0⟩
  | approved (signature : Bytes) (countdown : Option Countdown) :
      Life [.biometricSuccess, .gateSigned, .wireSigned signature, .sentApprove signature]
        ⟨.approved signature, countdown, [], 0⟩
  | denying (reason : DenialReason) (countdown : Option Countdown) (notes : List Note)
      (hquiet : ∀ note ∈ notes, note.isResponse = false) :
      Life notes ⟨.denied reason, countdown, [], 1⟩
  | denied (reason : DenialReason) (countdown : Option Countdown) (notes : List Note)
      (hquiet : ∀ note ∈ notes, note.isResponse = false) :
      Life (notes ++ [.sentDeny]) ⟨.denied reason, countdown, [], 0⟩

theorem Life.of_countdown (hlife : Life notes s) (countdown : Option Countdown) :
    Life notes { s with countdown } := by
  cases hlife with
  | idle => exact .idle countdown
  | counting seconds => exact .counting seconds countdown
  | launched => exact .launched countdown
  | authenticating => exact .authenticating countdown
  | signing => exact .signing countdown
  | approved signature => exact .approved signature countdown
  | denying reason _ _ hquiet => exact .denying reason countdown _ hquiet
  | denied reason _ _ hquiet => exact .denied reason countdown _ hquiet

theorem quiet_nil : ∀ note ∈ ([] : List Note), note.isResponse = false :=
  fun _ hmem => (nomatch hmem)

/-- The state in which a tap counts. -/
def ApproveViewModel.IsCounting (s : ApproveViewModel) : Prop :=
  ∃ seconds, s.uiState = .counting seconds

theorem Life.of_isCounting (hlife : Life notes s) (hcounting : s.IsCounting) :
    ∃ seconds countdown, s = ⟨.counting seconds, countdown, [], 0⟩ ∧ notes = [] := by
  obtain ⟨seconds, hui⟩ := hcounting
  cases hlife with
  | counting seconds countdown => exact ⟨seconds, countdown, rfl, rfl⟩
  | _ => cases hui

theorem Life.start (hlife : Life notes s) : Life notes (s.start timeoutMillis) := by
  unfold ApproveViewModel.start
  split
  · next hidle =>
      cases hlife with
      | idle countdown => exact .counting _ _
      | _ => cases hidle
  · exact hlife

theorem Life.onApproveClicked (hlife : Life notes s) : Life notes s.onApproveClicked := by
  unfold ApproveViewModel.onApproveClicked
  split
  · next seconds hui =>
      obtain ⟨_, countdown, rfl, rfl⟩ := hlife.of_isCounting ⟨seconds, hui⟩
      exact .launched none
  · exact hlife

theorem Life.onDenyClicked (hlife : Life notes s) : Life notes s.onDenyClicked := by
  unfold ApproveViewModel.onDenyClicked
  split
  · next seconds hui =>
      obtain ⟨_, countdown, rfl, rfl⟩ := hlife.of_isCounting ⟨seconds, hui⟩
      exact .denying .userDenied none [] quiet_nil
  · exact hlife

theorem Life.countdownTick (hlife : Life notes s) (remainingMillis : Int64) :
    Life notes (s.countdownTick tickMillis remainingMillis) := by
  unfold ApproveViewModel.countdownTick
  split
  · next seconds hui =>
      obtain ⟨seconds, countdown, rfl, rfl⟩ := hlife.of_isCounting ⟨seconds, hui⟩
      dsimp only
      split
      · exact .denying .timedOut none [] quiet_nil
      · exact .counting _ _
  · exact hlife.of_countdown none

/-- There is one flow at most, and it is where the state says. -/
theorem Life.flow (hlife : Life notes s) {i : Nat} {flow : Flow} (hflow : s.flows[i]? = some flow) :
    i = 0 ∧ ∃ countdown, match flow with
      | .launched => s = ⟨.awaitingBiometric, countdown, [.launched], 0⟩ ∧ notes = []
      | .authenticating => s = ⟨.awaitingBiometric, countdown, [.authenticating], 0⟩ ∧ notes = []
      | .signing => s = ⟨.signing, countdown, [.signing], 0⟩ ∧
          notes = [.biometricSuccess, .gateSigned] := by
  have hone : ∀ only : Flow, [only][i]? = some flow → i = 0 ∧ flow = only := by
    intro only hsome
    cases i with
    | zero => exact ⟨rfl, (Option.some.inj hsome).symm⟩
    | succ i => cases hsome
  cases hlife with
  | launched countdown =>
      obtain ⟨rfl, rfl⟩ := hone _ hflow
      exact ⟨rfl, countdown, rfl, rfl⟩
  | authenticating countdown =>
      obtain ⟨rfl, rfl⟩ := hone _ hflow
      exact ⟨rfl, countdown, rfl, rfl⟩
  | signing countdown =>
      obtain ⟨rfl, rfl⟩ := hone _ hflow
      exact ⟨rfl, countdown, rfl, rfl⟩
  | _ => cases hflow

theorem Life.prepared (hlife : Life notes s) {i : Nat} (hflow : s.flows[i]? = some .launched)
    (result : Caught) : Life notes (s.flowPrepared i result) := by
  obtain ⟨rfl, countdown, rfl, rfl⟩ := hlife.flow hflow
  cases result with
  | error message => exact .denying _ countdown [] quiet_nil
  | ok value => exact .authenticating countdown

theorem Life.authenticated (hlife : Life notes s) {i : Nat}
    (hflow : s.flows[i]? = some .authenticating) (result : BiometricResult) (gate : Caught) :
    Life (notes ++ observe s (.authenticated i result gate))
      (s.flowAuthenticated i result gate) := by
  obtain ⟨rfl, countdown, rfl, rfl⟩ := hlife.flow hflow
  cases result with
  | unavailable reason => exact .denying _ countdown [] quiet_nil
  | failed reason => exact .denying _ countdown [] quiet_nil
  | success =>
      cases gate with
      | error message =>
          refine .denying _ countdown [.biometricSuccess] fun note hmem => ?_
          rw [List.mem_singleton.mp hmem]
          rfl
      | ok value => exact .signing countdown

theorem Life.signed (hlife : Life notes s) {i : Nat} (hflow : s.flows[i]? = some .signing)
    (result : WireSignResult) :
    Life (notes ++ observe s (.signed i result)) (s.flowSigned i result) := by
  obtain ⟨rfl, countdown, rfl, rfl⟩ := hlife.flow hflow
  cases result with
  | failure reason =>
      refine .denying _ countdown [.biometricSuccess, .gateSigned] ?_
      decide
  | ok signature => exact .approved signature countdown

theorem Life.sendDeny (hlife : Life notes s) (hsender : 0 < s.denySenders) :
    Life (notes ++ [.sentDeny]) { s with denySenders := s.denySenders - 1 } := by
  cases hlife with
  | denying reason countdown notes hquiet => exact .denied reason countdown notes hquiet
  | _ => cases hsender

theorem Life.step {event : Event} (hlife : Life notes s)
    (hstep : (approval timeoutMillis tickMillis).step s event = some t) :
    Life (notes ++ observe s event) t := by
  change Approve.step timeoutMillis tickMillis s event = some t at hstep
  have hsilent : Life notes t → observe s event = [] → Life (notes ++ observe s event) t := by
    intro hnext hquiet
    rw [hquiet, List.append_nil]
    exact hnext
  cases event with
  | start =>
      cases hstep
      exact hsilent hlife.start rfl
  | countdownStart =>
      simp only [Approve.step] at hstep
      split at hstep
      · split at hstep <;> cases hstep <;> exact hsilent (hlife.of_countdown _) rfl
      · cases hstep
  | tick =>
      simp only [Approve.step] at hstep
      split at hstep
      · cases hstep
        exact hsilent (hlife.countdownTick _) rfl
      · cases hstep
  | approve =>
      cases hstep
      exact hsilent hlife.onApproveClicked rfl
  | deny =>
      cases hstep
      exact hsilent hlife.onDenyClicked rfl
  | prepared i result =>
      simp only [Approve.step] at hstep
      split at hstep
      · next hflow =>
          cases hstep
          exact hsilent (hlife.prepared hflow result) rfl
      · cases hstep
  | authenticated i result gate =>
      simp only [Approve.step] at hstep
      split at hstep
      · next hflow =>
          cases hstep
          exact hlife.authenticated hflow result gate
      · cases hstep
  | signed i result =>
      simp only [Approve.step] at hstep
      split at hstep
      · next hflow =>
          cases hstep
          exact hlife.signed hflow result
      · cases hstep
  | sendDeny =>
      simp only [Approve.step] at hstep
      split at hstep
      · next hsender =>
          cases hstep
          rw [observe, if_pos hsender]
          exact hlife.sendDeny hsender
      · cases hstep

theorem life_run {events : List Event} {final : ApproveViewModel}
    (hrun : (approval timeoutMillis tickMillis).run .new events = some final) :
    Life ((approval timeoutMillis tickMillis).trace observe .new events) final :=
  (approval timeoutMillis tickMillis).run_trace_invariant observe Life
    (fun _ _ _ _ hlife hnext => hlife.step hnext) (.idle none) hrun

/-! ## One response -/

def ApproveUiState.terminal : ApproveUiState → Bool
  | .approved _ | .denied _ => true
  | _ => false

theorem Life.step_of_terminal {event : Event} (hlife : Life notes s)
    (hterminal : s.uiState.terminal = true)
    (hstep : (approval timeoutMillis tickMillis).step s event = some t) :
    t.uiState = s.uiState := by
  change Approve.step timeoutMillis tickMillis s event = some t at hstep
  have hflows : s.flows = [] := by
    cases hlife with
    | approved | denying | denied => rfl
    | _ => cases hterminal
  cases event with
  | start | approve | deny =>
      cases hstep
      cases hlife with
      | approved | denying | denied => rfl
      | _ => cases hterminal
  | countdownStart =>
      simp only [Approve.step] at hstep
      split at hstep
      · split at hstep <;> cases hstep <;> rfl
      · cases hstep
  | tick =>
      simp only [Approve.step] at hstep
      split at hstep
      · cases hstep
        cases hlife with
        | approved | denying | denied => rfl
        | _ => cases hterminal
      · cases hstep
  | prepared i result | authenticated i result gate | signed i result =>
      simp [Approve.step, hflows] at hstep
  | sendDeny =>
      simp only [Approve.step] at hstep
      split at hstep
      · cases hstep
        rfl
      · cases hstep

/-- What the whole life of a view model shows to the desktop. -/
structure OneResponse (timeoutMillis tickMillis : Int64) (notes : List Note)
    (s : ApproveViewModel) : Prop where
  lasting : ∀ events final, s.uiState.terminal = true →
    (approval timeoutMillis tickMillis).run s events = some final → final.uiState = s.uiState
  single : notes.countP Note.isResponse ≤ 1
  approve : ∀ frame, .sentApprove frame ∈ notes ↔ s.uiState = .approved frame
  deny : .sentDeny ∈ notes → ∃ reason, s.uiState = .denied reason
  /-- The sender of a denial has run, or is launched and sends when it runs. -/
  denial : ∀ reason, s.uiState = .denied reason → .sentDeny ∈ notes ∨
    ((approval timeoutMillis tickMillis).step s .sendDeny).isSome = true ∧
      observe s .sendDeny = [.sentDeny]
  order : ∀ frame, s.uiState = .approved frame →
    [.biometricSuccess, .gateSigned, .wireSigned frame] <+: notes

theorem countP_of_quiet (hquiet : ∀ note ∈ notes, note.isResponse = false) :
    notes.countP Note.isResponse = 0 := by
  rw [List.countP_eq_zero]
  intro note hmem
  rw [hquiet note hmem]
  exact Bool.false_ne_true

theorem notMem_of_quiet (hquiet : ∀ note ∈ notes, note.isResponse = false) {note : Note}
    (hresponse : note.isResponse = true) : note ∉ notes := by
  intro hmem
  rw [hquiet note hmem] at hresponse
  cases hresponse

theorem Life.single (hlife : Life notes s) : notes.countP Note.isResponse ≤ 1 := by
  cases hlife with
  | denying reason countdown notes hquiet =>
      rw [countP_of_quiet hquiet]
      exact Nat.zero_le 1
  | denied reason countdown notes hquiet =>
      rw [List.countP_append, countP_of_quiet hquiet]
      exact Nat.le_refl 1
  | approved signature => exact Nat.le_refl 1
  | _ => exact Nat.zero_le 1

theorem Life.approve (hlife : Life notes s) (frame : Bytes) :
    .sentApprove frame ∈ notes ↔ s.uiState = .approved frame := by
  cases hlife with
  | approved signature countdown =>
      simp only [List.mem_cons, List.not_mem_nil, or_false, false_or, reduceCtorEq,
        Note.sentApprove.injEq, ApproveUiState.approved.injEq]
      exact eq_comm
  | denying reason countdown notes hquiet =>
      exact iff_of_false (notMem_of_quiet hquiet rfl) ApproveUiState.noConfusion
  | denied reason countdown notes hquiet =>
      refine iff_of_false (fun hmem => ?_) ApproveUiState.noConfusion
      rcases List.mem_append.mp hmem with hold | hnew
      · exact notMem_of_quiet hquiet rfl hold
      · cases List.mem_singleton.mp hnew
  | _ => simp

theorem Life.deny (hlife : Life notes s) (hdeny : .sentDeny ∈ notes) :
    ∃ reason, s.uiState = .denied reason := by
  cases hlife with
  | denying reason => exact ⟨reason, rfl⟩
  | denied reason => exact ⟨reason, rfl⟩
  | _ => simp at hdeny

theorem oneResponse_of_life (hlife : Life notes s) :
    OneResponse timeoutMillis tickMillis notes s := by
  refine ⟨?_, hlife.single, hlife.approve, hlife.deny, ?_, ?_⟩
  · intro events final hterminal hrun
    have hstart : Life (notes ++ []) s ∧ s.uiState = s.uiState := by
      rw [List.append_nil]
      exact ⟨hlife, rfl⟩
    have hinv := (approval timeoutMillis tickMillis).run_trace_invariant observe
      (fun seen state => Life (notes ++ seen) state ∧ state.uiState = s.uiState) ?_ hstart hrun
    · exact hinv.2
    · intro seen state event next hinv hnext
      have hnow := hinv.1.step hnext
      rw [List.append_assoc] at hnow
      refine ⟨hnow, ?_⟩
      rw [hinv.1.step_of_terminal (hinv.2 ▸ hterminal) hnext, hinv.2]
  · intro reason hdenied
    cases hlife with
    | denying reason countdown notes hquiet => exact .inr ⟨rfl, rfl⟩
    | denied reason countdown notes hquiet =>
        exact .inl (List.mem_append_right _ List.mem_cons_self)
    | _ => cases hdenied
  · intro frame happroved
    cases hlife with
    | approved signature countdown =>
        cases happroved
        exact ⟨[Note.sentApprove frame], rfl⟩
    | _ => cases happroved

/-- In every order of taps, ticks and results a view model sends one response at most: the
approval if it ends as approved, after the prompt, the gate and the wire signer have agreed,
and the denial if it ends as denied. -/
theorem approveViewModel_responds_once {events : List Event} {final : ApproveViewModel}
    (hrun : (approval timeoutMillis tickMillis).run .new events = some final) :
    OneResponse timeoutMillis tickMillis
      ((approval timeoutMillis tickMillis).trace observe .new events) final :=
  oneResponse_of_life (life_run hrun)

/-- The user taps Approve twice and Deny once while the prompt is open. -/
def impatientApproval (signature : Bytes) : List Event :=
  [.start, .countdownStart, .tick, .approve, .approve, .prepared 0 (.ok ()), .deny,
    .authenticated 0 .success (.ok ()), .signed 0 (.ok signature), .deny]

theorem approveViewModel_responds_once_impatient :
    ∃ final, (approval 30000 1000).run .new (impatientApproval [1, 2, 3]) = some final ∧
      final.uiState = .approved [1, 2, 3] ∧
        OneResponse 30000 1000
          ((approval 30000 1000).trace observe .new (impatientApproval [1, 2, 3])) final := by
  have hshown : ((approval 30000 1000).run .new (impatientApproval [1, 2, 3])).map
      (fun final => final.uiState) = some (.approved [1, 2, 3]) := by
    decide
  obtain ⟨final, hrun, hfinal⟩ := Option.map_eq_some_iff.mp hshown
  exact ⟨final, hrun, hfinal, approveViewModel_responds_once hrun⟩

end Syauth.Android.Approve
