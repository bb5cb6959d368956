import Syauth.Android.Authenticity

/-! # Which of several challenges the phone signs

The service launches the approval activity on every challenge frame, and the
activity reads its challenge in `onCreate` alone.  A launch that meets the running
instance reaches `onNewIntent`, which the activity does not override: the prompt
stays on the challenge it was opened for.
-/

namespace Syauth.Android

open Mobile Transition

/-! ## Deliveries and signatures of a peer -/

inductive ChallengeObservation where
  | delivered (peerId : String) (body : Bytes)
  | signed (peerId : String) (body : Bytes)
  deriving DecidableEq

def Phone.observeChallenges (phone : Phone) : PhoneEvent → List ChallengeObservation
  | .notified frameBytes =>
      phone.client.toList.map fun client => .delivered client.peerId (challengeBody frameBytes)
  | .biometric i succeeded =>
      phone.prompts[i]?.toList.flatMap fun prompt =>
        if succeeded then [.signed prompt.resolved.peerId prompt.resolved.challengeBytes] else []
  | _ => []

/-- The body delivered last for the peer. -/
def newestBody (seen : List ChallengeObservation) (peerId : String) : Option Bytes :=
  seen.foldl (fun newest observation =>
    match observation with
    | .delivered peer body => if peer = peerId then some body else newest
    | .signed _ _ => newest) none

/-- Each signature is over the newest body of its peer at that moment. -/
def SignsNewest (seen : List ChallengeObservation) : Prop :=
  ∀ before after peerId body, seen = before ++ .signed peerId body :: after →
    newestBody before peerId = some body

variable {seen : List ChallengeObservation} {peerId : String} {body : Bytes}

@[simp]
theorem newestBody_nil : newestBody [] peerId = none := rfl

@[simp]
theorem newestBody_delivered (peer : String) :
    newestBody (seen ++ [.delivered peer body]) peerId =
      if peer = peerId then some body else newestBody seen peerId := by
  simp [newestBody]

@[simp]
theorem newestBody_signed (peer : String) :
    newestBody (seen ++ [.signed peer body]) peerId = newestBody seen peerId := by
  simp [newestBody]

theorem SignsNewest.delivered (hnewest : SignsNewest seen) :
    SignsNewest (seen ++ [.delivered peerId body]) := by
  intro before after peer bytes hsplit
  rcases List.eq_nil_or_concat after with rfl | ⟨rest, last, rfl⟩
  · obtain ⟨-, hlast⟩ := List.append_inj' hsplit rfl
    cases hlast
  · rw [List.concat_eq_append, ← List.cons_append, ← List.append_assoc] at hsplit
    obtain ⟨hseen, -⟩ := List.append_inj' hsplit rfl
    exact hnewest before rest peer bytes hseen

theorem SignsNewest.signed (hnewest : SignsNewest seen)
    (hbody : newestBody seen peerId = some body) :
    SignsNewest (seen ++ [.signed peerId body]) := by
  intro before after peer bytes hsplit
  rcases List.eq_nil_or_concat after with rfl | ⟨rest, last, rfl⟩
  · obtain ⟨rfl, hlast⟩ := List.append_inj' hsplit rfl
    cases hlast
    exact hbody
  · rw [List.concat_eq_append, ← List.cons_append, ← List.append_assoc] at hsplit
    obtain ⟨hseen, -⟩ := List.append_inj' hsplit rfl
    exact hnewest before rest peer bytes hseen

/-! ## One step -/

/-- A challenge is delivered only while nothing else of its peer is on its way to a
signature. -/
def SupersedesNothing (phone : Phone) : PhoneEvent → Prop
  | .notified frameBytes =>
      ∀ client ∈ phone.client, ∀ intent ∈ phone.underWay, intent.peerId = client.peerId →
        intent.challengeBytes = challengeBody frameBytes
  | _ => True

instance (phone : Phone) (event : PhoneEvent) : Decidable (SupersedesNothing phone event) :=
  match event with
  | .notified frameBytes =>
      inferInstanceAs (Decidable (∀ client ∈ phone.client, ∀ intent ∈ phone.underWay,
        intent.peerId = client.peerId → intent.challengeBytes = challengeBody frameBytes))
  | .openApp _ | .pairingCompleted _ | .savePairing _ | .revokeTapped | .createService _
  | .destroyService | .processDeath | .startActivity _ | .approveTapped _ | .cancelTapped | .leave
  | .biometric _ _ => .isTrue trivial

/-- Every signature so far was over the newest body, and so will be the next one. -/
structure Newest (seen : List ChallengeObservation) (phone : Phone) : Prop where
  signed : SignsNewest seen
  underWay : ∀ intent ∈ phone.underWay,
    newestBody seen intent.peerId = some intent.challengeBytes

variable {phone next : Phone} {event : PhoneEvent}

/-- A step is a delivery to the running client, a signature of an open prompt, or shows
nothing. -/
theorem Phone.observeChallenges_cases (hstep : phone.step event = some next) :
    (∃ frameBytes client, event = .notified frameBytes ∧ phone.client = some client ∧
      phone.observeChallenges event = [.delivered client.peerId (challengeBody frameBytes)]) ∨
    (∃ intent ∈ phone.underWay, (∀ frameBytes, event ≠ .notified frameBytes) ∧
      phone.observeChallenges event = [.signed intent.peerId intent.challengeBytes]) ∨
    ((∀ frameBytes, event ≠ .notified frameBytes) ∧ phone.observeChallenges event = []) := by
  have hcases := Phone.step_sound hstep
  cases hcases with
  | @notified frameBytes client hclient =>
      exact .inl ⟨frameBytes, client, rfl, hclient, by simp [Phone.observeChallenges, hclient]⟩
  | @biometric i succeeded prompt hprompt =>
      cases succeeded with
      | false => exact .inr (.inr ⟨by simp, by simp [Phone.observeChallenges]⟩)
      | true =>
          refine .inr (.inl ⟨prompt.resolved, ?_, by simp, ?_⟩)
          · exact Phone.mem_underWay.mpr
              (.inr (.inr ⟨prompt, List.mem_of_getElem? hprompt, rfl⟩))
          · simp [Phone.observeChallenges, hprompt]
  | _ => exact .inr (.inr ⟨by simp, rfl⟩)

/-- Without a delivery nothing new is on its way. -/
theorem Phone.underWay_of_not_notified (hstep : phone.step event = some next)
    (hevent : ∀ frameBytes, event ≠ .notified frameBytes) {intent : ApprovalIntent}
    (hintent : intent ∈ next.underWay) : intent ∈ phone.underWay := by
  obtain hold | ⟨frameBytes, -, hnotified, -⟩ := Phone.underWay_step hstep hintent
  · exact hold
  · exact absurd hnotified (hevent frameBytes)

theorem Newest.step (hnewest : Newest seen phone) (hguard : SupersedesNothing phone event)
    (hstep : phone.step event = some next) :
    Newest (seen ++ phone.observeChallenges event) next := by
  obtain ⟨frameBytes, client, rfl, hclient, hobserved⟩ | ⟨signed, hsigned, hevent, hobserved⟩ |
    ⟨hevent, hobserved⟩ := Phone.observeChallenges_cases hstep
  · rw [hobserved]
    refine ⟨hnewest.signed.delivered, fun intent hintent => ?_⟩
    rw [newestBody_delivered]
    split
    · next hpeer =>
        -- what is on its way for this peer has the delivered body, be it old or new
        obtain hold | ⟨notified, _, hnotified, -, -, hbytes⟩ := Phone.underWay_step hstep hintent
        · rw [hguard client hclient intent hold hpeer.symm]
        · cases hnotified
          rw [hbytes]
    · next hpeer =>
        obtain hold | ⟨_, other, -, hother, hpeerId, -⟩ := Phone.underWay_step hstep hintent
        · exact hnewest.underWay intent hold
        · rw [hclient] at hother
          cases hother
          exact absurd hpeerId.symm hpeer
  · rw [hobserved]
    refine ⟨hnewest.signed.signed (hnewest.underWay signed hsigned), fun intent hintent => ?_⟩
    rw [newestBody_signed]
    exact hnewest.underWay intent (Phone.underWay_of_not_notified hstep hevent hintent)
  · rw [hobserved, List.append_nil]
    exact ⟨hnewest.signed, fun intent hintent =>
      hnewest.underWay intent (Phone.underWay_of_not_notified hstep hevent hintent)⟩

theorem newest_start (hidle : phone.Idle) : Newest [] phone := by
  refine ⟨fun before after peerId body hsplit => ?_, fun intent hintent => ?_⟩
  · simp at hsplit
  · simp [Phone.underWay_eq_nil hidle] at hintent

/-! ## Whole runs -/

/-- Over a run in which no delivery meets an older challenge of its peer, with any
taps and in any order, the phone signs the newest challenge of the peer. -/
theorem signs_newest {initial final : Phone} {events : List PhoneEvent}
    (hstart : unlocking.start initial)
    (hguard : unlocking.AllSteps SupersedesNothing initial events)
    (hrun : unlocking.run initial events = some final) :
    SignsNewest (unlocking.trace Phone.observeChallenges initial events) := by
  have hinv := unlocking.run_trace_invariant_of_allSteps SupersedesNothing Phone.observeChallenges
    Newest (fun seen state event next hnewest hguard hstep => hnewest.step hguard hstep)
    (newest_start hstart) hguard hrun
  exact hinv.signed

/-- The guard is not idle: a delivery that meets an open prompt of its peer leaves the
user with the old challenge to approve. -/
theorem not_signsNewest_of_superseded {client : GattClient} {activity : ApprovalActivity}
    {frameBytes : Bytes} (hclient : phone.client = some client)
    (hactivity : phone.activity = some activity)
    (hpeer : activity.resolved.peerId = client.peerId)
    (halias : activity.resolved.keystoreAlias ≠ "")
    (hkey : phone.keystore activity.resolved.keystoreAlias = true)
    (hbody : activity.resolved.challengeBytes ≠ challengeBody frameBytes) :
    ¬ SignsNewest (seen ++ unlocking.trace Phone.observeChallenges phone
      [.notified frameBytes, .approveTapped .ready, .biometric phone.prompts.length true]) := by
  intro hnewest
  let launched := phone.launchApprovalActivity client.peerId (challengeBody frameBytes)
  have hnotified : unlocking.step phone (.notified frameBytes) = some launched := by
    simp [unlocking, Phone.step, hclient, launched]
  have hprompted : unlocking.step launched (.approveTapped .ready) =
      some { launched with prompts := phone.prompts ++ [activity] } := by
    simp [unlocking, Phone.step, Phone.authenticate, Phone.launchApprovalActivity, launched,
      hactivity, halias, hkey]
  rw [unlocking.trace_cons_of_step hnotified, unlocking.trace_cons_of_step hprompted] at hnewest
  have hstale : newestBody (seen ++ [.delivered client.peerId (challengeBody frameBytes)])
      client.peerId = some activity.resolved.challengeBytes := by
    apply hnewest _ [] client.peerId activity.resolved.challengeBytes
    simp [Phone.observeChallenges, hclient, hpeer, System.trace, unlocking, Phone.step]
  rw [newestBody_delivered, if_pos rfl, Option.some_inj] at hstale
  exact hbody hstale.symm

/-- Two challenges, each approved before the next one arrives. -/
def inTurn (first second : Bytes) : List PhoneEvent :=
  [.createService true, .notified first, .startActivity 0, .approveTapped .ready, .biometric 0 true,
    .notified second, .startActivity 0, .approveTapped .ready, .biometric 0 true]

/-- The second challenge arrives while the prompt of the first one is open. -/
def whileOpen (first second : Bytes) : List PhoneEvent :=
  [.createService true, .notified first, .startActivity 0, .notified second, .startActivity 0,
    .approveTapped .ready, .biometric 0 true]

def laterFrame : Bytes := wireVersionV1 :: (List.replicate 16 1 ++ List.replicate 16 0)

theorem signs_newest_inTurn :
    SignsNewest (unlocking.trace Phone.observeChallenges knownPhone
      (inTurn taggedFrame laterFrame)) := by
  have hruns : (unlocking.run knownPhone (inTurn taggedFrame laterFrame)).isSome := by decide
  obtain ⟨final, hrun⟩ := Option.isSome_iff_exists.mp hruns
  exact signs_newest knownPhone_ready.idle (by decide) hrun

/-- The approval signs the first challenge although the second one was delivered. -/
theorem superseded_challenge_signed :
    (unlocking.run knownPhone (whileOpen taggedFrame laterFrame)).isSome ∧
      ¬ SignsNewest (unlocking.trace Phone.observeChallenges knownPhone
        (whileOpen taggedFrame laterFrame)) := by
  refine ⟨by decide, fun hnewest => ?_⟩
  have htrace : unlocking.trace Phone.observeChallenges knownPhone
      (whileOpen taggedFrame laterFrame) =
        [.delivered knownRecord.peerId (challengeBody taggedFrame),
          .delivered knownRecord.peerId (challengeBody laterFrame)] ++
        .signed knownRecord.peerId (challengeBody taggedFrame) :: [] := by decide
  have hstale := hnewest _ _ _ _ htrace
  revert hstale
  decide

end Syauth.Android
