import Syauth.Android.Unlock

/-! # One instance of the approval activity

`bg/ChallengeApprovalActivity.kt`.  The composition keeps its buttons until the system takes
the window away, which is after `finish()` has returned, and the callback of a prompt holds
the instance that opened it.  So taps and callbacks come in any order here, also to an
instance that is finishing.
-/

namespace Syauth.Android

open Transition

def signatureLen : Nat := 64

def deniedFrameBytes : Bytes := List.replicate signatureLen 0

/-- A call of a sink, by the frame that it hands over. -/
inductive SinkCall where
  | onCancel (peerId : String) (deniedFrameBytes : Bytes)
  | onResponse (peerId : String) (responseBytes : Bytes)
  deriving DecidableEq

def SinkCall.frame : SinkCall → Bytes
  | .onCancel _ deniedFrameBytes => deniedFrameBytes
  | .onResponse _ responseBytes => responseBytes

/-- A call of `BiometricGate.authenticate` that has not been answered. -/
structure BiometricRound where
  keystoreAlias : String
  challengeBytes : Bytes
  deriving DecidableEq

/-- The instance, and whether the sinks of the companion are installed. -/
structure ChallengeApprovalActivity where
  cancelSink : Bool
  responseSink : Bool
  resolved : ApprovalIntent
  /-- `setContent` has been reached, so that there are buttons. -/
  content : Bool
  rounds : List BiometricRound
  isFinishing : Bool
  deriving DecidableEq

inductive ApprovalEvent where
  /-- Of `MainActivity`, or the defaults of the service. -/
  | installCompanionSeams
  | approveClicked
  | cancelClicked
  | onSucceeded (i : Nat) (signatureBytes : Bytes)
  | onFailed (i : Nat) (reason : String)
  deriving DecidableEq

namespace ChallengeApprovalActivity

def finish (s : ChallengeApprovalActivity) : ChallengeApprovalActivity :=
  { s with isFinishing := true }

def onCreate (cancelSink responseSink : Bool) (intent : ApprovalIntent) :
    ChallengeApprovalActivity :=
  if intent.peerId = "" ∨ intent.hostname = "" then
    { cancelSink, responseSink, resolved := ⟨"", "", [], ""⟩, content := false, rounds := []
      isFinishing := true }
  else
    { cancelSink, responseSink, resolved := intent, content := true, rounds := []
      isFinishing := false }

def onCancelClicked (s : ChallengeApprovalActivity) : List SinkCall × ChallengeApprovalActivity :=
  (if s.cancelSink then [.onCancel s.resolved.peerId deniedFrameBytes] else [], s.finish)

def onApproveClicked (s : ChallengeApprovalActivity) : ChallengeApprovalActivity :=
  { s with rounds := s.rounds ++ [⟨s.resolved.keystoreAlias, s.resolved.challengeBytes⟩] }

def writeResponseAndFinish (s : ChallengeApprovalActivity) (responseBytes : Bytes) :
    List SinkCall × ChallengeApprovalActivity :=
  (if s.responseSink then [.onResponse s.resolved.peerId responseBytes] else [],
    if !s.isFinishing then s.finish else s)

/-- A round is answered once: its callback is gone with the answer. -/
def answered (s : ChallengeApprovalActivity) (i : Nat) (responseBytes : Bytes) :
    Option (List SinkCall × ChallengeApprovalActivity) :=
  if i < s.rounds.length then
    some (writeResponseAndFinish { s with rounds := s.rounds.eraseIdx i } responseBytes)
  else none

def handle (s : ChallengeApprovalActivity) :
    ApprovalEvent → Option (List SinkCall × ChallengeApprovalActivity)
  | .installCompanionSeams => some ([], { s with cancelSink := true, responseSink := true })
  | .approveClicked => if s.content then some ([], s.onApproveClicked) else none
  | .cancelClicked => if s.content then some s.onCancelClicked else none
  | .onSucceeded i signatureBytes => s.answered i signatureBytes
  | .onFailed i _ => s.answered i deniedFrameBytes

def approving : System ChallengeApprovalActivity ApprovalEvent where
  start s := ∃ cancelSink responseSink intent, s = onCreate cancelSink responseSink intent
  step s event := (s.handle event).map Prod.snd

def sinkCalls (s : ChallengeApprovalActivity) (event : ApprovalEvent) : List SinkCall :=
  ((s.handle event).map Prod.fst).getD []

end ChallengeApprovalActivity

/-- A tap on one of the two buttons. -/
def ApprovalEvent.tap : ApprovalEvent → Bool
  | .approveClicked | .cancelClicked => true
  | .installCompanionSeams | .onSucceeded .. | .onFailed .. => false

/-- At most one frame, and so no signature after a denial. -/
structure OneResponse (calls : List SinkCall) : Prop where
  single : calls.length ≤ 1
  final : calls.Pairwise fun earlier later =>
    earlier.frame = deniedFrameBytes → later.frame = deniedFrameBytes

theorem oneResponse_iff {calls : List SinkCall} : OneResponse calls ↔ calls.length ≤ 1 := by
  constructor
  · exact OneResponse.single
  · intro hsingle
    refine ⟨hsingle, ?_⟩
    match calls, hsingle with
    | [], _ => exact .nil
    | [call], _ => exact List.pairwise_singleton _ call

namespace ChallengeApprovalActivity

variable {s t : ChallengeApprovalActivity}

/-! ## Taps are paid for by frames and open rounds -/

/-- The sinks are there, and stay. -/
def Wired (s : ChallengeApprovalActivity) : Prop :=
  s.cancelSink = true ∧ s.responseSink = true

theorem handle_of_step {event : ApprovalEvent} (hstep : approving.step s event = some t) :
    s.handle event = some (s.sinkCalls event, t) := by
  obtain ⟨⟨calls, next⟩, hhandle, hnext⟩ := Option.map_eq_some_iff.mp hstep
  cases hnext
  rw [sinkCalls, hhandle]
  rfl

/-- Of what was open and the taps, the frames handed over and what is left open are a part,
and with the sinks in place all of it. -/
structure Tally (s : ChallengeApprovalActivity) (taps : Nat) (calls : List SinkCall)
    (t : ChallengeApprovalActivity) : Prop where
  le : calls.length + t.rounds.length ≤ s.rounds.length + taps
  eq : s.Wired → calls.length + t.rounds.length = s.rounds.length + taps
  wired : s.Wired → t.Wired

theorem Tally.refl (s : ChallengeApprovalActivity) : Tally s 0 [] s := by
  have heq : 0 + s.rounds.length = s.rounds.length + 0 := Nat.zero_add _
  exact ⟨Nat.le_of_eq heq, fun _ => heq, id⟩

theorem Tally.trans {m n : Nat} {first second : List SinkCall} {mid : ChallengeApprovalActivity}
    (hfirst : Tally s m first mid) (hsecond : Tally mid n second t) :
    Tally s (m + n) (first ++ second) t := by
  have hle := hfirst.le
  have hle' := hsecond.le
  refine ⟨?_, ?_, fun hwired => hsecond.wired (hfirst.wired hwired)⟩
  · rw [List.length_append]
    omega
  · intro hwired
    have hnow := hfirst.eq hwired
    have hlater := hsecond.eq (hfirst.wired hwired)
    rw [List.length_append]
    omega

theorem rounds_writeResponseAndFinish (s : ChallengeApprovalActivity) (responseBytes : Bytes) :
    (s.writeResponseAndFinish responseBytes).2.rounds = s.rounds := by
  unfold writeResponseAndFinish
  cases s.isFinishing <;> rfl

theorem wired_writeResponseAndFinish (hwired : s.Wired) (responseBytes : Bytes) :
    (s.writeResponseAndFinish responseBytes).2.Wired := by
  unfold writeResponseAndFinish
  cases s.isFinishing <;> exact hwired

theorem tally_answered {i : Nat} {responseBytes : Bytes} {calls : List SinkCall}
    (hanswered : s.answered i responseBytes = some (calls, t)) : Tally s 0 calls t := by
  simp only [answered] at hanswered
  split at hanswered
  · next hround =>
      rw [Option.some.injEq] at hanswered
      have hcalls := congrArg Prod.fst hanswered
      have hnext := congrArg Prod.snd hanswered
      simp only at hcalls hnext
      have hrounds : t.rounds.length = s.rounds.length - 1 := by
        rw [← hnext, rounds_writeResponseAndFinish, List.length_eraseIdx_of_lt hround]
      constructor
      · rw [← hcalls, hrounds]
        simp only [writeResponseAndFinish]
        split <;> simp only [List.length_cons, List.length_nil] <;> omega
      · intro hwired
        rw [← hcalls, hrounds]
        simp only [writeResponseAndFinish, hwired.2, if_true, List.length_singleton]
        omega
      · intro hwired
        have herased : Wired { s with rounds := s.rounds.eraseIdx i } := hwired
        rw [← hnext]
        exact wired_writeResponseAndFinish herased responseBytes
  · cases hanswered

theorem tally_of_step {event : ApprovalEvent} (hstep : approving.step s event = some t) :
    Tally s event.tap.toNat (s.sinkCalls event) t := by
  have hhandle := handle_of_step hstep
  generalize s.sinkCalls event = calls at hhandle
  cases event with
  | installCompanionSeams =>
      cases hhandle
      have hsame := Tally.refl s
      exact ⟨hsame.le, hsame.eq, fun _ => ⟨rfl, rfl⟩⟩
  | approveClicked =>
      simp only [handle] at hhandle
      split at hhandle
      · cases hhandle
        have hlength : s.onApproveClicked.rounds.length = s.rounds.length + 1 :=
          List.length_append
        exact ⟨by simp [hlength, ApprovalEvent.tap], by simp [hlength, ApprovalEvent.tap], id⟩
      · cases hhandle
  | cancelClicked =>
      simp only [handle] at hhandle
      split at hhandle
      · cases hhandle
        constructor
        · cases s.cancelSink <;> simp [finish, ApprovalEvent.tap, Nat.add_comm]
        · intro hwired
          simp [hwired.1, finish, ApprovalEvent.tap, Nat.add_comm]
        · exact id
      · cases hhandle
  | onSucceeded i signatureBytes => exact tally_answered hhandle
  | onFailed i reason => exact tally_answered hhandle

/-- The taps that an instance is given. -/
def taps (events : List ApprovalEvent) : Nat := events.countP ApprovalEvent.tap

theorem taps_cons (event : ApprovalEvent) (events : List ApprovalEvent) :
    taps (event :: events) = event.tap.toNat + taps events := by
  rw [taps, List.countP_cons, Nat.add_comm]
  cases event.tap <;> rfl

theorem tally_run {events : List ApprovalEvent} (hrun : approving.run s events = some t) :
    Tally s (taps events) (approving.trace sinkCalls s events) t := by
  induction events generalizing s with
  | nil =>
      cases hrun
      exact Tally.refl _
  | cons event events ih =>
      obtain ⟨next, hstep, hrest⟩ := approving.run_cons_eq_some.mp hrun
      rw [approving.trace_cons_of_step hstep, taps_cons]
      exact (tally_of_step hstep).trans (ih hrest)

theorem rounds_onCreate (cancelSink responseSink : Bool) (intent : ApprovalIntent) :
    (onCreate cancelSink responseSink intent).rounds = [] := by
  unfold onCreate
  split <;> rfl

theorem wired_onCreate (intent : ApprovalIntent) : (onCreate true true intent).Wired := by
  unfold onCreate
  split <;> exact ⟨rfl, rfl⟩

/-- An instance that is tapped once hands over one frame, and of the instances with sinks and
no open prompt no other does. -/
theorem challengeApprovalActivity_responds_once (cancelSink responseSink : Bool)
    (intent : ApprovalIntent) {events : List ApprovalEvent} {final : ChallengeApprovalActivity}
    (hrun : approving.run (onCreate cancelSink responseSink intent) events = some final) :
    (taps events ≤ 1 → OneResponse
      (approving.trace sinkCalls (onCreate cancelSink responseSink intent) events)) ∧
    (cancelSink = true → responseSink = true → final.rounds = [] →
      (OneResponse (approving.trace sinkCalls (onCreate cancelSink responseSink intent) events) ↔
        taps events ≤ 1)) := by
  obtain ⟨hle, heq, -⟩ := tally_run hrun
  rw [rounds_onCreate, List.length_nil, Nat.zero_add] at hle heq
  rw [oneResponse_iff]
  constructor
  · intro htaps
    omega
  · intro hcancel hresponse hsettled
    subst hcancel hresponse
    have hexact := heq (wired_onCreate intent)
    rw [hsettled, List.length_nil, Nat.add_zero] at hexact
    rw [hexact]

/-- Two taps before anything is finishing: the fingerprint that was asked for first still
signs after the denial has gone out. -/
theorem signature_after_denial :
    let intent : ApprovalIntent := ⟨"AA:BB:CC:DD:EE:FF", "desktop", [1], "alias"⟩
    let signature : Bytes := List.replicate signatureLen 7
    let events := [.approveClicked, .cancelClicked, .onSucceeded 0 signature]
    (∃ final, approving.run (onCreate true true intent) events = some final ∧ final.rounds = []) ∧
      approving.trace sinkCalls (onCreate true true intent) events =
        [.onCancel intent.peerId deniedFrameBytes, .onResponse intent.peerId signature] ∧
      ¬ OneResponse (approving.trace sinkCalls (onCreate true true intent) events) := by
  intro intent signature events
  refine ⟨⟨_, rfl, rfl⟩, rfl, ?_⟩
  intro hresponse
  exact absurd hresponse.single (by decide)

theorem one_approve_one_signature :
    let intent : ApprovalIntent := ⟨"AA:BB:CC:DD:EE:FF", "desktop", [1], "alias"⟩
    let signature : Bytes := List.replicate signatureLen 7
    let events := [.approveClicked, .onSucceeded 0 signature]
    approving.trace sinkCalls (onCreate true true intent) events =
        [.onResponse intent.peerId signature] ∧
      OneResponse (approving.trace sinkCalls (onCreate true true intent) events) := by
  intro intent signature events
  exact ⟨rfl, (challengeApprovalActivity_responds_once true true intent rfl).1 (by decide)⟩

end ChallengeApprovalActivity

end Syauth.Android
