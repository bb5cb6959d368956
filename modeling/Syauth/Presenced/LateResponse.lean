import Syauth.Presenced.NonceBinding
import Syauth.Presenced.RunChallenge

/-! # Responses that come late

The channel between one phone and the challenges of `run_challenge` to it.  A
`notify_challenge` drains the channel, a `wait_for_response` takes its first frame,
and the response task of the peer puts in what the phone has written.  The frames
carry no mark of the challenge they answer.
-/

namespace Syauth.Presenced

open Transport

/-- A challenge between its drain and its outcome. -/
structure OpenChallenge where
  nonce : Nonce
  /-- The nonces of the challenges that began before it. -/
  older : List Nonce
  /-- The notification was sent, and the challenge waits for the response. -/
  waiting : Bool
  deriving DecidableEq

/-- How a challenge ended, and the response it was given if it got one. -/
structure Verdict where
  challenge : OpenChallenge
  received : Option Bytes
  outcome : ChallengeOutcome
  deriving DecidableEq

structure Link where
  /-- What the phone has written and the response task has not read yet. -/
  written : List Bytes
  channel : List Bytes
  inFlight : List OpenChallenge
  issued : List Nonce
  cache : NonceCache
  verdicts : List Verdict
  deriving DecidableEq

inductive LinkEvent where
  /-- `run_challenge` draws a nonce, and `notify_challenge` drains the channel. -/
  | begin (nonce : Nonce)
  /-- `notify_challenge` returns. -/
  | notified (i : Nat) (result : Except PeripheralError Unit)
  | write (bytes : Bytes)
  /-- The response task reads one write. -/
  | forward
  /-- `wait_for_response` returns the first frame of the channel. -/
  | receive (i : Nat)
  /-- `wait_for_response` returns an error. -/
  | fail (i : Nat) (err : PeripheralError)
  /-- The peer is removed and added again, with a new channel and a new response task. -/
  | readd

namespace Link

variable (prim : Primitives) (peer : PeerState)

def empty : Link := ⟨[], [], [], [], NonceCache.new, []⟩

/-- A challenge ends as `run_challenge` decides. -/
def conclude (link : Link) (i : Nat) (challenge : OpenChallenge)
    (notifyChallenge : Except PeripheralError Unit)
    (waitForResponse : Except PeripheralError Bytes) : Link :=
  let ending := runChallenge prim peer link.cache challenge.nonce notifyChallenge waitForResponse
  { link with
    inFlight := link.inFlight.eraseIdx i
    cache := ending.2
    verdicts := ⟨challenge, waitForResponse.toOption, ending.1⟩ :: link.verdicts }

def step (link : Link) : LinkEvent → Option Link
  | .begin nonce =>
      some { link with
        channel := []
        inFlight := ⟨nonce, link.issued, false⟩ :: link.inFlight
        issued := nonce :: link.issued }
  | .notified i result =>
      match link.inFlight[i]? with
      | some ⟨nonce, older, false⟩ =>
          match result with
          | .ok () => some { link with inFlight := link.inFlight.set i ⟨nonce, older, true⟩ }
          | .error err =>
              -- The wait is not reached, whatever it would have returned.
              some (link.conclude prim peer i ⟨nonce, older, false⟩ (.error err) (.error err))
      | _ => none
  | .write bytes => some { link with written := link.written ++ [bytes] }
  | .forward =>
      match link.written with
      | [] => none
      | bytes :: rest =>
          if bytes = [] then some { link with written := rest }
          else if link.channel.length < responseBufferDepth then
            some { link with
              written := rest, channel := link.channel ++ [bytes.take responseReadBufBytes] }
          else none
  | .receive i =>
      match link.inFlight[i]?, link.channel with
      | some ⟨nonce, older, true⟩, response :: rest =>
          some { link.conclude prim peer i ⟨nonce, older, true⟩ (.ok ()) (.ok response) with
            channel := rest }
      | _, _ => none
  | .fail i err =>
      match link.inFlight[i]?, err, link.channel with
      -- The deadline is not noticed while there is a frame to take.
      | _, .responseTimeout _ _, _ :: _ => none
      | some ⟨nonce, older, true⟩, err, _ =>
          some (link.conclude prim peer i ⟨nonce, older, true⟩ (.ok ()) (.error err))
      | _, _, _ => none
  | .readd => some { link with written := [], channel := [] }

/-- The challenges to one phone and its writes, in any order. -/
def system : Transition.System Link LinkEvent where
  start link := link = empty
  step := step prim peer

/-- The cases of a step. -/
inductive Step (link : Link) : LinkEvent → Link → Prop where
  | begin (nonce : Nonce) : Step link (.begin nonce)
      { link with
        channel := []
        inFlight := ⟨nonce, link.issued, false⟩ :: link.inFlight
        issued := nonce :: link.issued }
  | sent {i : Nat} {nonce : Nonce} {older : List Nonce}
      (hopen : link.inFlight[i]? = some ⟨nonce, older, false⟩) :
      Step link (.notified i (.ok ()))
        { link with inFlight := link.inFlight.set i ⟨nonce, older, true⟩ }
  | ended {e : LinkEvent} {i : Nat} {challenge : OpenChallenge}
      {notifyChallenge : Except PeripheralError Unit} {err : PeripheralError}
      (hopen : link.inFlight[i]? = some challenge) :
      Step link e (link.conclude prim peer i challenge notifyChallenge (.error err))
  | written (e : LinkEvent) (written : List Bytes) : Step link e { link with written := written }
  | forwarded {bytes : Bytes} {rest : List Bytes} (hwritten : link.written = bytes :: rest) :
      Step link .forward
        { link with
          written := rest, channel := link.channel ++ [bytes.take responseReadBufBytes] }
  | received {i : Nat} {challenge : OpenChallenge} {response : Bytes} {rest : List Bytes}
      (hopen : link.inFlight[i]? = some challenge) (hchannel : link.channel = response :: rest) :
      Step link (.receive i)
        { link.conclude prim peer i challenge (.ok ()) (.ok response) with channel := rest }
  | readded : Step link .readd { link with written := [], channel := [] }

variable {prim peer} {link next : Link} {e : LinkEvent}

theorem step_sound (hstep : step prim peer link e = some next) : Step prim peer link e next := by
  cases e with
  | begin nonce =>
      cases hstep
      exact .begin nonce
  | notified i result =>
      simp only [step] at hstep
      split at hstep
      · next nonce older hopen =>
          split at hstep
          · cases hstep
            exact .sent hopen
          · cases hstep
            exact .ended hopen
      · cases hstep
  | write bytes =>
      cases hstep
      exact .written _ _
  | forward =>
      simp only [step] at hstep
      split at hstep
      · cases hstep
      · next bytes rest hwritten =>
          split_ifs at hstep with hempty hroom
          · cases hstep
            exact .written _ _
          · cases hstep
            exact .forwarded hwritten
  | receive i =>
      simp only [step] at hstep
      split at hstep
      · next nonce older response rest hopen hchannel =>
          cases hstep
          exact .received hopen hchannel
      · cases hstep
  | fail i err =>
      simp only [step] at hstep
      split at hstep
      · cases hstep
      · next hopen _ =>
          cases hstep
          exact .ended hopen
      · cases hstep
  | readd =>
      cases hstep
      exact .readded

end Link

/-! ## Late responses -/

section Late

variable (prim : Primitives) (peer : PeerState)

/-- The bytes are a valid response to the challenge with the nonce. -/
def Answers (nonce : Nonce) (bytes : Bytes) : Prop :=
  ∃ signature, checkResponse prim peer.phonePubkey (challengeFrame prim peer.bondKey nonce) bytes =
    .ok signature

/-- The bytes answer another challenge that began before. -/
def Late (challenge : OpenChallenge) (bytes : Bytes) : Prop :=
  ∃ nonce ∈ challenge.older, nonce ≠ challenge.nonce ∧ Answers prim peer nonce bytes

instance (nonce : Nonce) (bytes : Bytes) : Decidable (Answers prim peer nonce bytes) :=
  match hcheck : checkResponse prim peer.phonePubkey (challengeFrame prim peer.bondKey nonce)
      bytes with
  | .ok signature => .isTrue ⟨signature, hcheck⟩
  | .error _ => .isFalse fun ⟨_, hok⟩ => nomatch hcheck.symm.trans hok

instance (challenge : OpenChallenge) (bytes : Bytes) : Decidable (Late prim peer challenge bytes) :=
  inferInstanceAs (Decidable (∃ nonce ∈ challenge.older, nonce ≠ challenge.nonce ∧
    Answers prim peer nonce bytes))

variable {prim peer} {challenge : OpenChallenge} {bytes : Bytes}

theorem Answers.nonce_eq (hone : OneBodyOnly prim) {nonce nonce' : Nonce}
    (hanswers : Answers prim peer nonce bytes) (hanswers' : Answers prim peer nonce' bytes) :
    nonce = nonce' := by
  obtain ⟨signature, hcheck⟩ := hanswers
  obtain ⟨signature', hcheck'⟩ := hanswers'
  obtain ⟨hbytes, key, hkey, hverify⟩ := checkResponse_eq_ok prim hcheck
  obtain ⟨hbytes', key', hkey', hverify'⟩ := checkResponse_eq_ok prim hcheck'
  have hsame : signature' = signature := Subtype.ext (hbytes'.symm.trans hbytes)
  have hsameKey : key' = key := Subtype.ext (hkey'.trans hkey.symm)
  rw [hsame, hsameKey] at hverify'
  exact hone.nonce_eq hverify hverify'

/-- A challenge that is given a late response reports a bad signature. -/
theorem runChallenge_of_late (hone : OneBodyOnly prim) (hlate : Late prim peer challenge bytes)
    (cache : NonceCache) :
    (runChallenge prim peer cache challenge.nonce (.ok ()) (.ok bytes)).1 = .badSignature := by
  obtain ⟨nonce, -, hne, hanswers⟩ := hlate
  simp only [runChallenge, buildChallenge_eq]
  cases hcheck : checkResponse prim peer.phonePubkey
      (challengeFrame prim peer.bondKey challenge.nonce) bytes with
  | ok signature => exact absurd (hanswers.nonce_eq hone ⟨signature, hcheck⟩) hne
  | error outcome => exact checkResponse_eq_error prim hcheck

end Late

/-! ## Runs -/

namespace Link

variable (prim : Primitives) (peer : PeerState)

/-- A verdict on a response is that of `run_challenge`. -/
def Judged (verdict : Verdict) : Prop :=
  ∀ response, verdict.received = some response → ∃ cache,
    verdict.outcome =
      (runChallenge prim peer cache verdict.challenge.nonce (.ok ()) (.ok response)).1

/-- The frames that the challenges in flight are going to be given are not late for them. -/
def Clean (channel : List Bytes) (inFlight : List OpenChallenge) : Prop :=
  ∀ bytes ∈ channel.take inFlight.length, ∀ challenge ∈ inFlight, ¬ Late prim peer challenge bytes

/-- The response task does not put a late response where a challenge in flight takes it:
the channel already holds a frame for each of them. -/
def NoLateEntry (link : Link) : LinkEvent → Prop
  | .forward => link.channel.length < link.inFlight.length → ∀ bytes ∈ link.written.head?,
      ∀ challenge ∈ link.inFlight,
        ¬ Late prim peer challenge (bytes.take responseReadBufBytes)
  | _ => True

instance (link : Link) : (e : LinkEvent) → Decidable (NoLateEntry prim peer link e)
  | .forward =>
      inferInstanceAs (Decidable (link.channel.length < link.inFlight.length →
        ∀ bytes ∈ link.written.head?, ∀ challenge ∈ link.inFlight,
          ¬ Late prim peer challenge (bytes.take responseReadBufBytes)))
  | .begin _ | .notified _ _ | .write _ | .receive _ | .fail _ _ | .readd => .isTrue trivial

variable {prim peer} {link next : Link} {e : LinkEvent}

theorem judged_step (hjudged : ∀ v ∈ link.verdicts, Judged prim peer v)
    (hstep : Step prim peer link e next) : ∀ v ∈ next.verdicts, Judged prim peer v := by
  cases hstep with
  | ended hopen =>
      intro v hv
      rcases List.mem_cons.mp hv with rfl | hold
      · intro response hreceived
        cases hreceived
      · exact hjudged v hold
  | received hopen hchannel =>
      intro v hv
      rcases List.mem_cons.mp hv with rfl | hold
      · intro response hreceived
        cases hreceived
        exact ⟨link.cache, rfl⟩
      · exact hjudged v hold
  | _ => exact hjudged

theorem judged_run {events : List LinkEvent}
    (hrun : (system prim peer).run empty events = some link) :
    ∀ v ∈ link.verdicts, Judged prim peer v :=
  (system prim peer).run_invariant (fun link => ∀ v ∈ link.verdicts, Judged prim peer v)
    (fun _ _ _ hjudged hstep => judged_step hjudged (step_sound hstep))
    (fun _ hv => absurd hv List.not_mem_nil) hrun

section Clean

variable {channel channel' : List Bytes} {inFlight inFlight' : List OpenChallenge}

theorem Clean.nil (inFlight : List OpenChallenge) : Clean prim peer [] inFlight := by
  intro bytes hbytes
  rw [List.take_nil] at hbytes
  cases hbytes

/-- Fewer frames to take and no new challenge. -/
theorem Clean.mono (hclean : Clean prim peer channel inFlight)
    (htake : channel'.take inFlight'.length ⊆ channel.take inFlight.length)
    (hsub : inFlight' ⊆ inFlight) : Clean prim peer channel' inFlight' :=
  fun bytes hbytes challenge hchallenge => hclean bytes (htake hbytes) challenge (hsub hchallenge)

theorem Clean.eraseIdx (hclean : Clean prim peer channel inFlight) (i : Nat) :
    Clean prim peer channel (inFlight.eraseIdx i) :=
  hclean.mono (List.take_subset_take_left channel (List.length_eraseIdx_le inFlight i))
    List.eraseIdx_subset

/-- One challenge takes the first frame. -/
theorem Clean.tail {response : Bytes} {i : Nat}
    (hclean : Clean prim peer (response :: channel) inFlight) (hi : i < inFlight.length) :
    Clean prim peer channel (inFlight.eraseIdx i) := by
  refine hclean.mono ?_ List.eraseIdx_subset
  intro bytes hbytes
  have hlength : inFlight.length = (inFlight.eraseIdx i).length + 1 := by
    rw [List.length_eraseIdx_of_lt hi]
    omega
  rw [hlength, List.take_succ_cons]
  exact List.mem_cons_of_mem response hbytes

theorem Clean.set {i : Nat} {nonce : Nonce} {older : List Nonce} {waiting : Bool}
    (hclean : Clean prim peer channel inFlight)
    (hopen : inFlight[i]? = some ⟨nonce, older, waiting⟩) (waiting' : Bool) :
    Clean prim peer channel (inFlight.set i ⟨nonce, older, waiting'⟩) := by
  intro bytes hbytes challenge hchallenge
  rw [List.length_set] at hbytes
  rcases List.mem_or_eq_of_mem_set hchallenge with hold | rfl
  · exact hclean bytes hbytes challenge hold
  · exact hclean bytes hbytes ⟨nonce, older, waiting⟩ (List.mem_of_getElem? hopen)

theorem Clean.concat {bytes : Bytes} (hclean : Clean prim peer channel inFlight)
    (hentry : channel.length < inFlight.length →
      ∀ challenge ∈ inFlight, ¬ Late prim peer challenge bytes) :
    Clean prim peer (channel ++ [bytes]) inFlight := by
  intro other hother challenge hchallenge
  rw [List.take_append, List.mem_append] at hother
  rcases hother with hold | hnew
  · exact hclean other hold challenge hchallenge
  · have hroom : channel.length < inFlight.length := by
      by_contra hfull
      rw [Nat.sub_eq_zero_of_le (Nat.le_of_not_lt hfull), List.take_zero] at hnew
      cases hnew
    rw [List.mem_singleton.mp (List.mem_of_mem_take hnew)]
    exact hentry hroom challenge hchallenge

end Clean

/-- What the guard keeps: clean channels, and no verdict on a late response. -/
structure OnTime (prim : Primitives) (peer : PeerState) (link : Link) : Prop where
  clean : Clean prim peer link.channel link.inFlight
  judged : ∀ v ∈ link.verdicts, ∀ response, v.received = some response →
    ¬ Late prim peer v.challenge response

theorem OnTime.step (hinv : OnTime prim peer link) (hguard : NoLateEntry prim peer link e)
    (hstep : Step prim peer link e next) : OnTime prim peer next := by
  cases hstep with
  | begin nonce => exact ⟨Clean.nil _, hinv.judged⟩
  | sent hopen => exact ⟨hinv.clean.set hopen true, hinv.judged⟩
  | ended hopen =>
      refine ⟨hinv.clean.eraseIdx _, fun v hv response hreceived => ?_⟩
      rcases List.mem_cons.mp hv with rfl | hold
      · cases hreceived
      · exact hinv.judged v hold response hreceived
  | written => exact ⟨hinv.clean, hinv.judged⟩
  | forwarded hwritten =>
      refine ⟨hinv.clean.concat fun hroom => ?_, hinv.judged⟩
      exact hguard hroom _ (by rw [hwritten]; rfl)
  | @received i challenge response rest hopen hchannel =>
      have hclean := hinv.clean
      rw [hchannel] at hclean
      have hmem : challenge ∈ link.inFlight := List.mem_of_getElem? hopen
      have hi : i < link.inFlight.length := (List.getElem?_eq_some_iff.mp hopen).1
      refine ⟨hclean.tail hi, fun v hv taken hreceived => ?_⟩
      rcases List.mem_cons.mp hv with rfl | hold
      · cases hreceived
        refine hclean response ?_ challenge hmem
        rw [← Nat.succ_pred_eq_of_pos (Nat.zero_lt_of_lt hi), List.take_succ_cons]
        exact List.mem_cons_self
      · exact hinv.judged v hold taken hreceived
  | readded => exact ⟨Clean.nil _, hinv.judged⟩

theorem onTime_run {events : List LinkEvent}
    (hguard : (system prim peer).AllSteps (NoLateEntry prim peer) empty events)
    (hrun : (system prim peer).run empty events = some link) : OnTime prim peer link :=
  (system prim peer).run_invariant_of_allSteps (NoLateEntry prim peer) (OnTime prim peer)
    (fun _ _ _ hinv hguard hstep => hinv.step hguard (step_sound hstep))
    ⟨Clean.nil _, fun _ hv => absurd hv List.not_mem_nil⟩ hguard hrun

/-- A late response never makes a challenge succeed; and as long as none enters the channel
where a challenge in flight takes it, none makes a challenge report a bad signature. -/
theorem late_response_harmless (prim : Primitives) (peer : PeerState) (hone : OneBodyOnly prim)
    (events : List LinkEvent) (link : Link)
    (hrun : (system prim peer).run empty events = some link) :
    (∀ v ∈ link.verdicts, ∀ response, v.received = some response →
      Late prim peer v.challenge response → v.outcome.isOk = false) ∧
    ((system prim peer).AllSteps (NoLateEntry prim peer) empty events →
      ∀ v ∈ link.verdicts, ∀ response, v.received = some response →
        Late prim peer v.challenge response → v.outcome ≠ .badSignature) := by
  constructor
  · intro v hv response hreceived hlate
    obtain ⟨cache, houtcome⟩ := judged_run hrun v hv response hreceived
    rw [houtcome, runChallenge_of_late hone hlate]
    rfl
  · intro hguard v hv response hreceived hlate
    exact absurd hlate ((onTime_run hguard hrun).judged v hv response hreceived)

end Link

/-! ## A phone that answers after the deadline -/

/-- A second nonce, and what the phone of the first known-answer vector signs for it. -/
def laterNonce : Nonce :=
  ⟨[255, 238, 221, 204, 187, 170, 153, 136, 119, 102, 85, 68, 51, 34, 17, 0], by decide⟩

def laterSignature : Signature :=
  ⟨[210, 34, 5, 103, 34, 48, 202, 150, 207, 207, 108, 27, 1, 233, 196, 235, 106, 238, 163, 154,
    14, 114, 49, 190, 49, 80, 91, 235, 173, 58, 48, 119, 236, 131, 130, 174, 253, 247, 201, 186,
    163, 91, 128, 53, 39, 137, 185, 240, 243, 105, 130, 57, 236, 36, 209, 214, 250, 171, 36, 114,
    184, 140, 216, 11], by decide⟩

def laterKeyedHash : Octets 32 :=
  ⟨[255, 55, 182, 202, 46, 9, 219, 153, 217, 130, 140, 102, 162, 44, 9, 90, 118, 241, 167, 66,
    124, 135, 60, 34, 15, 20, 12, 206, 181, 188, 89, 6], by decide⟩

/-- Primitives that tag and verify both challenges as the real ones do. -/
def twoNoncePrimitives : Primitives :=
  { KnownAnswer.primitives with
    keyedHash := fun key body =>
      if key = KnownAnswer.bondKey ∧ body = challengeBody laterNonce then laterKeyedHash
      else KnownAnswer.primitives.keyedHash key body
    verifyStrict := fun key body sig =>
      KnownAnswer.primitives.verifyStrict key body sig ||
        (key == KnownAnswer.pubkey && body == challengeBody laterNonce && sig == laterSignature) }

def knownPhone : PeerState := ⟨KnownAnswer.pubkey, KnownAnswer.bondKey, 0⟩

theorem oneBodyOnly_twoNonces : OneBodyOnly twoNoncePrimitives := by
  have hne : KnownAnswer.signature ≠ laterSignature := by decide
  intro pubkey body body' signature hverify hverify'
  simp only [twoNoncePrimitives, KnownAnswer.primitives, Bool.or_eq_true, Bool.and_eq_true,
    beq_iff_eq] at hverify hverify'
  rcases hverify with ⟨⟨-, hbody⟩, hsig⟩ | ⟨⟨-, hbody⟩, hsig⟩ <;>
    rcases hverify' with ⟨⟨-, hbody'⟩, hsig'⟩ | ⟨⟨-, hbody'⟩, hsig'⟩
  · rw [hbody, hbody']
  · exact absurd (hsig.symm.trans hsig') hne
  · exact absurd (hsig'.symm.trans hsig) hne
  · rw [hbody, hbody']

/-- The first challenge times out. -/
def timedOutChallenge : List LinkEvent :=
  [.begin KnownAnswer.nonce, .notified 0 (.ok ()),
    .fail 0 (.responseTimeout KnownAnswer.peerId 30000)]

/-- The late response comes before the second challenge begins. -/
def drainedRun : List LinkEvent :=
  timedOutChallenge ++
    [.write KnownAnswer.signature.val, .forward, .begin laterNonce, .notified 0 (.ok ()),
      .write laterSignature.val, .forward, .receive 0]

/-- The late response comes after the channel was drained for the second challenge. -/
def lateRun : List LinkEvent :=
  timedOutChallenge ++
    [.begin laterNonce, .write KnownAnswer.signature.val, .forward, .notified 0 (.ok ()),
      .write laterSignature.val, .forward, .receive 0]

namespace Link

theorem late_response_harmless_drained :
    ∃ link, (system twoNoncePrimitives knownPhone).run empty drainedRun = some link ∧
      link.verdicts.map Verdict.outcome = [.ok laterSignature, .timedOut] ∧
      ∀ v ∈ link.verdicts, ∀ response, v.received = some response →
        Late twoNoncePrimitives knownPhone v.challenge response → v.outcome ≠ .badSignature := by
  obtain ⟨link, hrun, houtcomes⟩ :
      ∃ link, (system twoNoncePrimitives knownPhone).run empty drainedRun = some link ∧
        link.verdicts.map Verdict.outcome = [.ok laterSignature, .timedOut] := ⟨_, rfl, by decide⟩
  refine ⟨link, hrun, houtcomes, ?_⟩
  exact (late_response_harmless twoNoncePrimitives knownPhone oneBodyOnly_twoNonces drainedRun link
    hrun).2 (by decide)

/-- The phone answers both challenges, and the second one reports a bad signature because
the answer to the first is still on its way when the channel is drained. -/
theorem late_response_spoils_challenge :
    ∃ link challenge, (system twoNoncePrimitives knownPhone).run empty lateRun = some link ∧
      challenge.nonce = laterNonce ∧
      ⟨challenge, some KnownAnswer.signature.val, .badSignature⟩ ∈ link.verdicts ∧
      Late twoNoncePrimitives knownPhone challenge KnownAnswer.signature.val ∧
      LinkEvent.write laterSignature.val ∈ lateRun.dropLast ∧
      Answers twoNoncePrimitives knownPhone laterNonce laterSignature.val := by
  refine ⟨_, ⟨laterNonce, [KnownAnswer.nonce], true⟩, rfl, rfl, by decide, by decide, ?_,
    by decide⟩
  simp [lateRun, timedOutChallenge]

end Link

end Syauth.Presenced
