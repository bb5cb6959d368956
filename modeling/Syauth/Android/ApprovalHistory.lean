import Syauth.Android.Unlock

/-! # How a signature came about on the phone

What the user sees and does between the delivery of a challenge and the confirmation by
biometrics that signs it.  Every confirmed challenge was approved in the activity that showed
it, and was delivered before.
-/

namespace Syauth.Android

open Transition

inductive Approval where
  | delivered (peerId : String) (frameBytes : Bytes)
  /-- The activity comes up with the challenge of its intent. -/
  | shown (activity : ApprovalActivity)
  /-- A tap on Approve. -/
  | approved (activity : ApprovalActivity)
  /-- The prompt of the activity succeeds, and the key of the alias signs the challenge. -/
  | confirmed (activity : ApprovalActivity)
  deriving DecidableEq

def Phone.approval (phone : Phone) : PhoneEvent → List Approval
  | .notified frameBytes =>
      phone.client.toList.map fun client => .delivered client.peerId frameBytes
  | .startActivity i =>
      phone.intents[i]?.toList.flatMap fun intent =>
        if phone.activity.isSome ∨ intent.peerId = "" ∨ intent.hostname = "" then []
        else [.shown ⟨phone.nextInstance, intent⟩]
  | .approveTapped _ => phone.activity.toList.map .approved
  | .biometric i true => phone.prompts[i]?.toList.map .confirmed
  | _ => []

/-- A frame with the challenge of the intent was delivered, and the stages followed. -/
def Delivered (seen : List Approval) (intent : ApprovalIntent) (stages : List Approval) : Prop :=
  ∃ frameBytes, challengeBody frameBytes = intent.challengeBytes ∧
    (.delivered intent.peerId frameBytes :: stages).Sublist seen

/-- Where a challenge stands on its way to a signature, the stages before it were seen. -/
structure Phone.Accounted (seen : List Approval) (phone : Phone) : Prop where
  intents : ∀ intent ∈ phone.intents, Delivered seen intent []
  activity : ∀ activity, phone.activity = some activity →
    Delivered seen activity.resolved [.shown activity]
  prompts : ∀ activity ∈ phone.prompts,
    Delivered seen activity.resolved [.shown activity, .approved activity]

variable {phone next : Phone} {event : PhoneEvent} {seen : List Approval}

theorem Delivered.append {intent : ApprovalIntent} {stages : List Approval}
    (hdelivered : Delivered seen intent stages) (more : List Approval) :
    Delivered (seen ++ more) intent (stages ++ more) := by
  obtain ⟨frameBytes, hbody, hseen⟩ := hdelivered
  exact ⟨frameBytes, hbody, hseen.append (List.Sublist.refl more)⟩

theorem Delivered.mono {intent : ApprovalIntent} {stages : List Approval}
    (hdelivered : Delivered seen intent stages) (more : List Approval) :
    Delivered (seen ++ more) intent stages := by
  obtain ⟨frameBytes, hbody, hseen⟩ := hdelivered
  exact ⟨frameBytes, hbody, hseen.trans (List.sublist_append_left seen more)⟩

theorem Phone.Accounted.mono (haccounted : phone.Accounted seen) (more : List Approval) :
    phone.Accounted (seen ++ more) :=
  ⟨fun intent hintent => (haccounted.intents intent hintent).mono more,
    fun activity hactivity => (haccounted.activity activity hactivity).mono more,
    fun activity hprompt => (haccounted.prompts activity hprompt).mono more⟩

/-! ## One step -/

/-- Nothing new is under way. -/
structure Phone.Within (next phone : Phone) : Prop where
  intents : next.intents ⊆ phone.intents
  activity : ∀ activity, next.activity = some activity → phone.activity = some activity
  prompts : next.prompts ⊆ phone.prompts

theorem Phone.Accounted.within (haccounted : phone.Accounted seen) (hwithin : next.Within phone) :
    next.Accounted seen :=
  ⟨fun intent hintent => haccounted.intents intent (hwithin.intents hintent),
    fun activity hactivity => haccounted.activity activity (hwithin.activity activity hactivity),
    fun activity hprompt => haccounted.prompts activity (hwithin.prompts hprompt)⟩

theorem Phone.within_finish (phone : Phone) (instanceId : Nat) :
    (phone.finish instanceId).Within phone :=
  ⟨List.Subset.refl _, fun _ hactivity => (Option.mem_filter_iff.mp hactivity).1,
    List.Subset.refl _⟩

theorem Phone.within_injectClientsForBonds (phone : Phone) :
    phone.injectClientsForBonds.Within phone := by
  unfold Phone.injectClientsForBonds
  split
  · exact ⟨List.Subset.refl _, fun _ hactivity => hactivity, List.Subset.refl _⟩
  · split
    · exact ⟨List.Subset.refl _, fun _ hactivity => hactivity, List.Subset.refl _⟩
    · exact ⟨List.Subset.refl _, fun _ hactivity => hactivity, List.Subset.refl _⟩

theorem Phone.Within.trans {middle : Phone} (hnext : next.Within middle)
    (hmiddle : middle.Within phone) : next.Within phone :=
  ⟨List.Subset.trans hnext.intents hmiddle.intents,
    fun activity hactivity => hmiddle.activity activity (hnext.activity activity hactivity),
    List.Subset.trans hnext.prompts hmiddle.prompts⟩

/-- What is not about a new challenge, its activity or its prompt. -/
theorem Phone.within_of_step (hstep : phone.step event = some next) :
    next.Within phone ∨ (∃ frameBytes, event = .notified frameBytes) ∨
      (∃ i, event = .startActivity i) ∨ ∃ initSign, event = .approveTapped initSign := by
  have hsame : phone.Within phone := ⟨List.Subset.refl _, fun _ h => h, List.Subset.refl _⟩
  have hcases := Phone.step_sound hstep
  cases hcases with
  | @notified frameBytes client hclient => exact .inr (.inl ⟨frameBytes, rfl⟩)
  | @startActivity i intent hintent => exact .inr (.inr (.inl ⟨i, rfl⟩))
  | @approveTapped initSign activity hactivity => exact .inr (.inr (.inr ⟨initSign, rfl⟩))
  | createService =>
      exact .inl (.trans (Phone.within_injectClientsForBonds _)
        ⟨hsame.intents, hsame.activity, hsame.prompts⟩)
  | processDeath =>
      -- the intents are with the system
      exact .inl ⟨hsame.intents, fun _ hactivity => (nomatch hactivity), List.nil_subset _⟩
  | cancelTapped | leave => exact .inl (Phone.within_finish phone _)
  | biometric =>
      exact .inl (.trans (Phone.within_finish _ _)
        ⟨hsame.intents, hsame.activity, List.eraseIdx_subset⟩)
  | _ => exact .inl ⟨hsame.intents, hsame.activity, hsame.prompts⟩

theorem Phone.Accounted.notified {frameBytes : Bytes} (haccounted : phone.Accounted seen)
    (hstep : phone.step (.notified frameBytes) = some next) :
    next.Accounted (seen ++ phone.approval (.notified frameBytes)) := by
  have hcases := Phone.step_sound hstep
  cases hcases with
  | @notified _ client hclient =>
      have hmono := haccounted.mono (phone.approval (.notified frameBytes))
      refine ⟨fun intent hintent => ?_, hmono.activity, hmono.prompts⟩
      rcases List.mem_append.mp hintent with hold | hnew
      · exact hmono.intents intent hold
      · obtain rfl := List.mem_singleton.mp hnew
        refine ⟨frameBytes, rfl, ?_⟩
        simp [Phone.approval, hclient]

theorem Phone.Accounted.startActivity {i : Nat} (haccounted : phone.Accounted seen)
    (hstep : phone.step (.startActivity i) = some next) :
    next.Accounted (seen ++ phone.approval (.startActivity i)) := by
  have hcases := Phone.step_sound hstep
  cases hcases with
  | @startActivity _ intent hintent =>
      have hmono := haccounted.mono (phone.approval (.startActivity i))
      have hpending : ∀ other ∈ phone.intents.eraseIdx i,
          Delivered (seen ++ phone.approval (.startActivity i)) other [] :=
        fun other hother => hmono.intents other (List.mem_of_mem_eraseIdx hother)
      unfold Phone.onCreate
      split
      next => exact ⟨hpending, hmono.activity, hmono.prompts⟩
      next hnone =>
        split
        next => exact ⟨hpending, hmono.activity, hmono.prompts⟩
        next hnames =>
          refine ⟨hpending, fun activity hactivity => ?_, hmono.prompts⟩
          obtain rfl := Option.some.inj hactivity
          have hshown : phone.approval (.startActivity i) =
              [.shown ⟨phone.nextInstance, intent⟩] := by
            have hfree : phone.activity.isSome = false := congrArg Option.isSome hnone
            simp only [Phone.approval, hintent, Option.toList_some, List.flatMap_singleton, hfree,
              Bool.false_eq_true, false_or, if_neg hnames]
          rw [hshown]
          exact (haccounted.intents intent (List.mem_of_getElem? hintent)).append _

theorem Phone.Accounted.approveTapped {initSign : InitSign} (haccounted : phone.Accounted seen)
    (hstep : phone.step (.approveTapped initSign) = some next) :
    next.Accounted (seen ++ phone.approval (.approveTapped initSign)) := by
  have hcases := Phone.step_sound hstep
  cases hcases with
  | @approveTapped _ activity hactivity =>
      have happroved : phone.approval (.approveTapped initSign) = [.approved activity] := by
        simp [Phone.approval, hactivity]
      have hmono := haccounted.mono (phone.approval (.approveTapped initSign))
      have hfinished := hmono.within (phone.within_finish activity.instanceId)
      unfold Phone.authenticate
      dsimp only
      split
      next => exact hfinished
      next =>
        cases initSign with
        | ready =>
            refine ⟨hmono.intents, hmono.activity, fun prompt hprompt => ?_⟩
            rcases List.mem_append.mp hprompt with hold | hnew
            · exact hmono.prompts prompt hold
            · -- the prompt is opened on the tap
              obtain rfl := List.mem_singleton.mp hnew
              rw [happroved]
              exact (haccounted.activity prompt hactivity).append _
        | invalidated => exact ⟨hfinished.intents, hfinished.activity, hfinished.prompts⟩
        | failed => exact hfinished

theorem Phone.Accounted.step (haccounted : phone.Accounted seen)
    (hstep : phone.step event = some next) : next.Accounted (seen ++ phone.approval event) := by
  rcases Phone.within_of_step hstep with hwithin | ⟨frameBytes, rfl⟩ | ⟨i, rfl⟩ | ⟨initSign, rfl⟩
  · exact (haccounted.within hwithin).mono _
  · exact haccounted.notified hstep
  · exact haccounted.startActivity hstep
  · exact haccounted.approveTapped hstep

/-! ## Whole runs -/

theorem Phone.Accounted.of_idle (hidle : phone.Idle) : phone.Accounted [] := by
  obtain ⟨-, -, -, hintents, hactivity, hprompts⟩ := hidle
  refine ⟨fun intent hintent => ?_, fun activity hsome => ?_, fun activity hprompt => ?_⟩
  · rw [hintents] at hintent
    cases hintent
  · rw [hactivity] at hsome
    cases hsome
  · rw [hprompts] at hprompt
    cases hprompt

theorem accounted_run {initial final : Phone} {events : List PhoneEvent}
    (hstart : unlocking.start initial) (hrun : unlocking.run initial events = some final) :
    final.Accounted (unlocking.trace Phone.approval initial events) :=
  unlocking.run_trace_invariant Phone.approval (fun seen phone => phone.Accounted seen)
    (fun _ _ _ _ haccounted hstep => haccounted.step hstep) (.of_idle hstart) hrun

theorem Phone.mem_prompts_of_confirmed {activity : ApprovalActivity}
    (hmem : .confirmed activity ∈ phone.approval event) : activity ∈ phone.prompts := by
  cases event with
  | biometric i succeeded =>
      cases succeeded with
      | false => cases hmem
      | true =>
          obtain ⟨prompt, hprompt, hsame⟩ := List.mem_map.mp hmem
          obtain rfl := Approval.confirmed.inj hsame
          exact List.mem_of_getElem? (Option.mem_toList.mp hprompt)
  | notified frameBytes => simp [Phone.approval] at hmem
  | startActivity i =>
      obtain ⟨intent, -, hshown⟩ := List.mem_flatMap.mp hmem
      split at hshown
      · cases hshown
      · cases List.mem_singleton.mp hshown
  | approveTapped initSign => simp [Phone.approval] at hmem
  | _ => cases hmem

/-- A confirmed challenge was delivered, shown and approved before. -/
theorem delivered_of_confirmed {initial final : Phone} {events : List PhoneEvent}
    {activity : ApprovalActivity} {before after : List Approval}
    (hstart : unlocking.start initial) (hrun : unlocking.run initial events = some final)
    (hseen : unlocking.trace Phone.approval initial events =
      before ++ .confirmed activity :: after) :
    Delivered before activity.resolved [.shown activity, .approved activity] := by
  obtain ⟨past, event, future, middle, shown, rest, rfl, hpast, hshown, rfl⟩ :=
    unlocking.step_of_trace_eq hrun hseen
  have hprompt : activity ∈ middle.prompts := by
    have hmem : .confirmed activity ∈ middle.approval event := by
      rw [hshown]
      exact List.mem_append_right shown List.mem_cons_self
    exact Phone.mem_prompts_of_confirmed hmem
  exact ((accounted_run hstart hpast).prompts activity hprompt).mono shown

end Syauth.Android
