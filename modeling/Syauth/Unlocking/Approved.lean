import Syauth.Android.ApprovalHistory
import Syauth.Pam.Soundness
import Syauth.Presenced.NonceBinding
import Syauth.Transition.Interleaving
import Syauth.Unlocking.Exchange

/-! # No unlock without an approval

The daemon beside one of its phones.  What passes between them is not a part of the two: any
bytes may come to the phone as a notification and to the daemon as a response, and there are
other phones.  Signatures of the phone's key are not forged; under this assumption an unlock
goes back to an activity that the user approved and to a confirmation by biometrics.
-/

namespace Syauth.Unlocking

open Presenced Transition
open Android (Approval ApprovalActivity Delivered Phone PhoneEvent)

def world (prim : Primitives) : System (State × Phone) (Event ⊕ PhoneEvent) :=
  (daemon prim).beside Android.unlocking

/-- What is seen of the daemon and of the phone, in the order of the steps. -/
def watch (prim : Primitives) :
    State × Phone → Event ⊕ PhoneEvent → List (Observation ⊕ Approval) :=
  System.observeBeside (observe prim) Phone.approval

/-- Whatever comes to the daemon and verifies under the key, the phone has signed before with
the key of the alias. -/
def Unforged (prim : Primitives) (pubkey : Pubkey) (keystoreAlias : String)
    (seen : List (Observation ⊕ Approval)) : Prop :=
  ∀ before c peerId response after,
    seen = before ++ .inl (.waitReturned c peerId response) :: after →
    ∀ signature body, parseSignature response = some signature →
      prim.verifyStrict pubkey body signature = true →
      ∃ activity, .inr (.confirmed activity) ∈ before ∧
        activity.resolved.keystoreAlias = keystoreAlias ∧ activity.resolved.challengeBytes = body

/-- The way of a challenge over the phone and back to an accepting answer. -/
def approvedStages (c : CallId) (peerId : String) (requestNonce : Bytes) (signature : Signature)
    (frameBytes : Bytes) (activity : ApprovalActivity) : List (Observation ⊕ Approval) :=
  [.inr (.delivered activity.resolved.peerId frameBytes), .inr (.shown activity),
    .inr (.approved activity), .inr (.confirmed activity),
    .inl (.waitReturned c peerId signature.val),
    .inl (.sent c (.challenge peerId requestNonce) (.challenge true (some signature.val) "ok"))]

/-- The answer rests on an approval of the nonce that its call drew, by the key of the
alias. -/
def ApprovedAnswer (seen : List (Observation ⊕ Approval)) (keystoreAlias : String) (c : CallId)
    (peerId : String) (requestNonce : Bytes) (signature : Signature) : Prop :=
  ∃ nonce frameBytes activity, .inl (.drew c nonce) ∈ seen ∧
    activity.resolved.keystoreAlias = keystoreAlias ∧
    activity.resolved.challengeBytes = challengeBody nonce ∧
    Android.challengeBody frameBytes = challengeBody nonce ∧
    (approvedStages c peerId requestNonce signature frameBytes activity).Sublist seen

/-- Nonces are drawn once, and nobody has a frame with a nonce that is drawn before it is. -/
structure Fresh (seen : List (Observation ⊕ Approval)) : Prop where
  distinct : ∀ c c' nonce, .inl (.drew c nonce) ∈ seen → .inl (.drew c' nonce) ∈ seen → c = c'
  unguessed : ∀ before peerId frameBytes after c nonce,
    seen = before ++ .inr (.delivered peerId frameBytes) :: after →
    Android.challengeBody frameBytes = challengeBody nonce → .inl (.drew c nonce) ∈ seen →
    .inl (.drew c nonce) ∈ before

/-- The call looked up the key and was answered with an acceptance. -/
def AcceptedUnder (seen : List (Observation ⊕ Approval)) (pubkey : Pubkey) (c : CallId) : Prop :=
  ∃ peerId lookedPeer requestNonce sent entry,
    .inl (.lookedUp c lookedPeer (some entry)) ∈ seen ∧ entry.phonePubkey = some pubkey ∧
      .inl (.sent c (.challenge peerId requestNonce) (.challenge true sent "ok")) ∈ seen

/-- The activity showed the challenge of the call and was approved while the call waited. -/
def UnlockedBy (seen : List (Observation ⊕ Approval)) (keystoreAlias : String) (c : CallId)
    (activity : ApprovalActivity) : Prop :=
  ∃ peerId requestNonce signature nonce frameBytes,
    activity.resolved.keystoreAlias = keystoreAlias ∧
      activity.resolved.challengeBytes = challengeBody nonce ∧
      (.inl (.drew c nonce) ::
        approvedStages c peerId requestNonce signature frameBytes activity).Sublist seen

variable {prim : Primitives} {initial final : State × Phone} {events : List (Event ⊕ PhoneEvent)}
variable {pubkey : Pubkey} {keystoreAlias : String} {c : CallId}

/-! ## The phone's part -/

/-- What was confirmed was delivered, shown and approved before, in the order of the world. -/
theorem stages_of_confirmed {activity : ApprovalActivity} {before : List (Observation ⊕ Approval)}
    {after : List (Observation ⊕ Approval)}
    (hstart : (world prim).start initial) (hrun : (world prim).run initial events = some final)
    (hseen : (world prim).trace (watch prim) initial events = before ++ after)
    (hconfirmed : .inr (.confirmed activity) ∈ before) :
    ∃ frameBytes, Android.challengeBody frameBytes = activity.resolved.challengeBytes ∧
      [Sum.inr (.delivered activity.resolved.peerId frameBytes), .inr (.shown activity),
        .inr (.approved activity), .inr (.confirmed activity)].Sublist before := by
  obtain ⟨earlier, later, rfl⟩ := List.append_of_mem hconfirmed
  have hphone : Android.unlocking.trace Phone.approval initial.2 (rights events) =
      rights earlier ++ .confirmed activity :: rights (later ++ after) := by
    rw [← (System.trace_beside (observe prim) Phone.approval hrun).2]
    change rights ((world prim).trace (watch prim) initial events) = _
    rw [hseen]
    simp
  obtain ⟨frameBytes, hbody, hstages⟩ :=
    Android.delivered_of_confirmed hstart.2 (System.run_beside hrun).2 hphone
  refine ⟨frameBytes, hbody, ?_⟩
  have hearlier := (hstages.map Sum.inr).trans (map_inr_rights_sublist earlier)
  exact hearlier.append (List.Sublist.cons_cons _ (List.nil_sublist later))

/-! ## The daemon's part -/

theorem verifyStrict_of_built {tx : Transaction} {signature : Signature} (hbuilt : tx.Built prim)
    (hverified : tx.Verified prim signature) :
    prim.verifyStrict tx.peer.phonePubkey (challengeBody tx.nonce) signature = true := by
  obtain ⟨verifyingKey, hkey, hverify⟩ := hverified
  have hstrict := verifyFrame_eq_ok hverify
  rw [hkey, hbuilt.1] at hstrict
  simpa [challengeFrame, untaggedChallenge, challengeBody] using hstrict

/-- An accepting answer of a call that looked up the phone's key rests on an approval. -/
theorem approvedAnswer_of_sent (hstart : (world prim).start initial)
    (hrun : (world prim).run initial events = some final)
    (hunforged : Unforged prim pubkey keystoreAlias
      ((world prim).trace (watch prim) initial events))
    {peerId lookedPeer : String} {requestNonce : Bytes} {ok : Bool} {sent : Option Bytes}
    {entry : PeerEntry}
    (hsent : .inl (.sent c (.challenge peerId requestNonce) (.challenge ok sent "ok")) ∈
      (world prim).trace (watch prim) initial events)
    (hlooked : .inl (.lookedUp c lookedPeer (some entry)) ∈
      (world prim).trace (watch prim) initial events)
    (hkey : entry.phonePubkey = some pubkey) :
    ∃ signature : Signature, ok = true ∧ sent = some signature.val ∧
      ApprovedAnswer ((world prim).trace (watch prim) initial events) keystoreAlias c peerId
        requestNonce signature := by
  have hdaemon := (System.run_beside hrun).1
  have htrace : lefts ((world prim).trace (watch prim) initial events) =
      (daemon prim).trace (observe prim) initial.1 (lefts events) :=
    (System.trace_beside (observe prim) Phone.approval hrun).1
  rw [← mem_lefts, htrace] at hsent hlooked
  rcases (tracking_run hstart.1 hdaemon).granted c _ _ hsent with hrefuses | hgranted
  · exact absurd rfl (hrefuses ok sent)
  obtain ⟨peer, nonce, tx, signature, hrequest, hresponse, hbuilt, hverified, hhistory⟩ := hgranted
  obtain ⟨rfl, rfl⟩ := Request.challenge.inj hrequest
  obtain ⟨hok, hsignature, -⟩ := Response.challenge.inj hresponse
  refine ⟨signature, hok, hsignature, ?_⟩
  rw [hresponse] at hhistory
  have hmem := hhistory.subset
  -- a call looks its peer up once, so that the signature was checked under this key
  have hown : Observation.lookedUp c peerId (some tx.peer.entry) ∈
      (daemon prim).trace (observe prim) initial.1 (lefts events) :=
    hmem (by simp [acceptedHistory, notifiedHistory, drawnHistory])
  have hentry := (observedOnce_run hdaemon).once _ hlooked _ hown rfl rfl
  obtain ⟨-, -, hentry⟩ := Observation.lookedUp.inj hentry
  obtain rfl := Option.some.inj hentry
  obtain rfl : tx.peer.phonePubkey = pubkey := Option.some.inj hkey
  have hdrew : .inl (.drew c tx.nonce) ∈ (world prim).trace (watch prim) initial events := by
    rw [← mem_lefts, htrace]
    exact hmem (by simp [acceptedHistory, notifiedHistory, drawnHistory])
  -- the response that was accepted, with what had been seen before it
  have hends : [.waitReturned c peerId signature.val, .sent c (.challenge peerId requestNonce)
      (.challenge true (some signature.val) "ok")].Sublist
        ((daemon prim).trace (observe prim) initial.1 (lefts events)) := by
    refine List.Sublist.trans ?_ hhistory
    rw [acceptedHistory, List.append_assoc]
    exact List.sublist_append_right _ _
  have hpair := (htrace ▸ hends.map Sum.inl).trans (map_inl_lefts_sublist _)
  obtain ⟨upTo, rest, hseen, hreturned, hlater⟩ := List.cons_sublist_iff.mp hpair
  obtain ⟨before, between, rfl⟩ := List.append_of_mem hreturned
  rw [List.append_assoc, List.cons_append] at hseen
  obtain ⟨activity, hconfirmed, halias, hbytes⟩ := hunforged before c peerId signature.val _ hseen
    signature _ (parseSignature_eq_some.mpr rfl) (verifyStrict_of_built hbuilt hverified)
  obtain ⟨frameBytes, hbody, hstages⟩ := stages_of_confirmed hstart hrun hseen hconfirmed
  refine ⟨tx.nonce, frameBytes, activity, hdrew, halias, hbytes, hbody.trans hbytes, ?_⟩
  rw [hseen]
  exact hstages.append ((hlater.trans (List.sublist_append_right between rest)).cons_cons _)

theorem challengeBody_injective {nonce nonce' : Nonce}
    (hbody : challengeBody nonce = challengeBody nonce') : nonce = nonce' :=
  Subtype.ext (List.cons.inj hbody).2

/-! ## The unlock of the known-answer vector -/

def knownRecord : Android.BondRecord :=
  ⟨"AA:BB:CC:DD:EE:FF", "laptop", KnownAnswer.bondKey.val, "syauth", KnownAnswer.pubkey.val⟩

def pairedPhone : Phone := ⟨some knownRecord, fun _ => true, none, .reset, none, [], none, [], 0⟩

def knownFrame : Bytes :=
  challengeBody KnownAnswer.nonce ++
    (computeTag KnownAnswer.primitives KnownAnswer.bondKey (challengeBody KnownAnswer.nonce)).val

/-- The exchange of the vector, with the phone's part between notification and response. -/
def knownUnlock : List (Event ⊕ PhoneEvent) :=
  (knownExchange.take 7).map .inl ++
    [.openApp true, .createService true, .notified knownFrame, .startActivity 0,
      .approveTapped .ready, .biometric 0 true].map .inr ++
    (knownExchange.drop 7).map .inl

def knownActivity : ApprovalActivity :=
  ⟨0, "AA:BB:CC:DD:EE:FF", "laptop", challengeBody KnownAnswer.nonce, "syauth"⟩

def knownSeen : List (Observation ⊕ Approval) :=
  (world KnownAnswer.primitives).trace (watch KnownAnswer.primitives) (knownInitial, pairedPhone)
    knownUnlock

def seenOnDesktop : List (Observation ⊕ Approval) :=
  [.inl (.lookedUp 0 KnownAnswer.peerId (some ⟨KnownAnswer.bondKey, some KnownAnswer.pubkey, 0⟩)),
    .inl (.drew 0 KnownAnswer.nonce), .inl (.notified 0 KnownAnswer.peerId knownFrame),
    .inl (.waitCalled 0 KnownAnswer.peerId)]

def seenOnPhone : List (Observation ⊕ Approval) :=
  [.inr (.shown knownActivity), .inr (.approved knownActivity), .inr (.confirmed knownActivity)]

theorem knownSeen_eq : knownSeen =
    seenOnDesktop ++ .inr (.delivered knownActivity.resolved.peerId knownFrame) :: (seenOnPhone ++
      [.inl (.waitReturned 0 KnownAnswer.peerId KnownAnswer.signature.val),
        .inl (.sent 0 (.challenge KnownAnswer.peerId KnownAnswer.nonce.val)
          (.challenge true (some KnownAnswer.signature.val) "ok"))]) := by
  decide +kernel

theorem unforged_knownSeen :
    Unforged KnownAnswer.primitives KnownAnswer.pubkey "syauth" knownSeen := by
  intro before c peerId response after hseen signature body hparse hverify
  rw [knownSeen_eq, ← List.cons_append, ← List.append_assoc] at hseen
  have hbody : body = challengeBody KnownAnswer.nonce := by
    simp only [KnownAnswer.primitives, Bool.and_eq_true, beq_iff_eq] at hverify
    exact hverify.1.2
  obtain ⟨rfl, -⟩ := (List.append_cons_inj_of_notMem (by simp [seenOnDesktop, seenOnPhone])
    (by simp)).mp hseen
  exact ⟨knownActivity, by simp [seenOnPhone], rfl, hbody.symm⟩

theorem world_start_known :
    (world KnownAnswer.primitives).start (knownInitial, pairedPhone) :=
  ⟨⟨_, _, _, _, rfl⟩, rfl, rfl, rfl, rfl, rfl, rfl⟩

theorem world_run_known :
    ∃ final, (world KnownAnswer.primitives).run (knownInitial, pairedPhone) knownUnlock =
      some final := by
  refine Option.isSome_iff_exists.mp ?_
  decide +kernel

/-! ## What is granted was approved -/

/-- What PAM grants for a peer whose key is the phone's was approved on the phone: the challenge
of the call was shown there, approved there and confirmed by biometrics before the daemon got
its signature. -/
theorem granted_unlock_was_approved (hstart : (world prim).start initial)
    (hrun : (world prim).run initial events = some final)
    (hunforged : Unforged prim pubkey keystoreAlias
      ((world prim).trace (watch prim) initial events))
    {roundTrip : Request → Except Unit Response}
    (hsocket : Pam.AnsweredBy prim initial.1 (lefts events) roundTrip)
    {read : BondFileRead} {random : Option Nonce} {peerId : String}
    (hauth : Pam.authenticate prim read random roundTrip = .success peerId) :
    ∃ c requestNonce entry, ∃ signature : Signature,
      roundTrip (.challenge peerId requestNonce) =
        .ok (.challenge true (some signature.val) "ok") ∧
      [Observation.lookedUp c peerId (some entry), .sent c (.challenge peerId requestNonce)
        (.challenge true (some signature.val) "ok")].Sublist
          (lefts ((world prim).trace (watch prim) initial events)) ∧
      (entry.phonePubkey = some pubkey →
        ApprovedAnswer ((world prim).trace (watch prim) initial events) keystoreAlias c peerId
          requestNonce signature) := by
  obtain ⟨requestNonce, ok, sent, hround⟩ := Pam.authenticate_eq_success hauth
  obtain ⟨c, hsent⟩ := hsocket _ _ hround
  have htrace : lefts ((world prim).trace (watch prim) initial events) =
      (daemon prim).trace (observe prim) initial.1 (lefts events) :=
    (System.trace_beside (observe prim) Phone.approval hrun).1
  rcases (tracking_run hstart.1 (System.run_beside hrun).1).granted c _ _ hsent with
    hrefuses | hgranted
  · exact absurd rfl (hrefuses ok sent)
  obtain ⟨peer, nonce, tx, signature, hrequest, hresponse, -, -, hhistory⟩ := hgranted
  obtain ⟨rfl, rfl⟩ := Request.challenge.inj hrequest
  rw [hresponse] at hround hhistory
  rw [← htrace] at hhistory
  have hends : [Observation.lookedUp c peerId (some tx.peer.entry),
      .sent c (.challenge peerId requestNonce.val)
        (.challenge true (some signature.val) "ok")].Sublist
          (lefts ((world prim).trace (watch prim) initial events)) := by
    refine List.Sublist.trans ?_ hhistory
    exact (List.sublist_append_right _ _).cons_cons _
  refine ⟨c, requestNonce.val, tx.peer.entry, signature, hround, hends, fun hkey => ?_⟩
  obtain ⟨accepted, -, hsignature, happroved⟩ :=
    approvedAnswer_of_sent hstart hrun hunforged
      (mem_lefts.mp (hends.subset (List.mem_cons_of_mem _ List.mem_cons_self)))
      (mem_lefts.mp (hends.subset List.mem_cons_self)) hkey
  obtain rfl : signature = accepted := Subtype.ext (Option.some.inj hsignature)
  exact happroved

theorem granted_unlock_was_approved_known :
    ∃ c requestNonce entry, ∃ signature : Signature,
      Pam.knownRoundTrip (.challenge KnownAnswer.peerId requestNonce) =
        .ok (.challenge true (some signature.val) "ok") ∧
      [Observation.lookedUp c KnownAnswer.peerId (some entry),
        .sent c (.challenge KnownAnswer.peerId requestNonce)
          (.challenge true (some signature.val) "ok")].Sublist (lefts knownSeen) ∧
      (entry.phonePubkey = some KnownAnswer.pubkey →
        ApprovedAnswer knownSeen "syauth" c KnownAnswer.peerId requestNonce signature) := by
  obtain ⟨final, hrun⟩ := world_run_known
  have hevents : lefts knownUnlock = knownExchange := by
    rw [knownUnlock, lefts_append, lefts_append, lefts_map_inl, lefts_map_inl, lefts_map_inr,
      List.append_nil, List.take_append_drop]
  have hauth : Pam.authenticate KnownAnswer.primitives (.parsed ⟨1, [knownBond]⟩)
      (some KnownAnswer.nonce) Pam.knownRoundTrip = .success KnownAnswer.peerId := by
    decide
  exact granted_unlock_was_approved world_start_known hrun unforged_knownSeen
    (hevents ▸ Pam.answeredBy_knownRoundTrip) hauth

/-! ## Every unlock has an approval of its own -/

theorem ApprovedAnswer.unlockedBy {seen : List (Observation ⊕ Approval)} {peerId : String}
    {requestNonce : Bytes} {signature : Signature} (hfresh : Fresh seen)
    (happroved : ApprovedAnswer seen keystoreAlias c peerId requestNonce signature) :
    ∃ activity, UnlockedBy seen keystoreAlias c activity := by
  obtain ⟨nonce, frameBytes, activity, hdrew, halias, hbytes, hbody, hstages⟩ := happroved
  refine ⟨activity, peerId, requestNonce, signature, nonce, frameBytes, halias, hbytes, ?_⟩
  obtain ⟨upTo, rest, rfl, hdelivered, hlater⟩ := List.cons_sublist_iff.mp hstages
  obtain ⟨before, between, rfl⟩ := List.append_of_mem hdelivered
  -- the frame came to the phone after its nonce was drawn, which was for this call
  have hdrawn := hfresh.unguessed before activity.resolved.peerId frameBytes (between ++ rest) c
    nonce (by simp) hbody hdrew
  rw [List.append_assoc, List.cons_append]
  exact (List.singleton_sublist.mpr hdrawn).append
    ((hlater.trans (List.sublist_append_right between rest)).cons_cons _)

/-- Each accepted call has an activity that was approved while it waited, and no two calls have
the same one. -/
theorem unlocks_agree_injectively (hstart : (world prim).start initial)
    (hrun : (world prim).run initial events = some final)
    (hunforged : Unforged prim pubkey keystoreAlias
      ((world prim).trace (watch prim) initial events))
    (hfresh : Fresh ((world prim).trace (watch prim) initial events)) :
    (∀ c, AcceptedUnder ((world prim).trace (watch prim) initial events) pubkey c →
      ∃ activity, UnlockedBy ((world prim).trace (watch prim) initial events) keystoreAlias c
        activity) ∧
    ∀ c c' activity,
      UnlockedBy ((world prim).trace (watch prim) initial events) keystoreAlias c activity →
      UnlockedBy ((world prim).trace (watch prim) initial events) keystoreAlias c' activity →
      c = c' := by
  constructor
  · rintro c ⟨peerId, lookedPeer, requestNonce, sent, entry, hlooked, hkey, hsent⟩
    obtain ⟨signature, -, -, happroved⟩ :=
      approvedAnswer_of_sent hstart hrun hunforged hsent hlooked hkey
    exact happroved.unlockedBy hfresh
  · rintro c c' activity ⟨_, _, _, nonce, _, -, hbytes, hstages⟩
      ⟨_, _, _, nonce', _, -, hbytes', hstages'⟩
    obtain rfl := challengeBody_injective (hbytes.symm.trans hbytes')
    exact hfresh.distinct c c' nonce (hstages.subset List.mem_cons_self)
      (hstages'.subset List.mem_cons_self)

/-! ## Two unlocks by one phone -/

def frameFor (nonce : Nonce) : Bytes :=
  challengeBody nonce ++
    (computeTag KnownAnswer.twicePrimitives KnownAnswer.bondKey (challengeBody nonce)).val

/-- The phone takes the challenge while the call waits, shows it and signs it. -/
def unlockOf (c : CallId) (nonce : Nonce) (signature : Signature) : List (Event ⊕ PhoneEvent) :=
  ((exchangeOf c nonce signature).take 7).map .inl ++
    [.notified (frameFor nonce), .startActivity 0, .approveTapped .ready,
      .biometric 0 true].map .inr ++
    ((exchangeOf c nonce signature).drop 7).map .inl

def twoUnlocks : List (Event ⊕ PhoneEvent) :=
  [.inr (.openApp true), .inr (.createService true)] ++
    unlockOf 0 KnownAnswer.nonce KnownAnswer.signature ++
    unlockOf 1 KnownAnswer.secondNonce KnownAnswer.secondSignature

def activityFor (c : CallId) (nonce : Nonce) : ApprovalActivity :=
  ⟨c, "AA:BB:CC:DD:EE:FF", "laptop", challengeBody nonce, "syauth"⟩

def seenOf (c : CallId) (nonce : Nonce) (signature : Signature) : List (Observation ⊕ Approval) :=
  [.inl (.lookedUp c KnownAnswer.peerId (some ⟨KnownAnswer.bondKey, some KnownAnswer.pubkey, 0⟩)),
    .inl (.drew c nonce), .inl (.notified c KnownAnswer.peerId (frameFor nonce)),
    .inl (.waitCalled c KnownAnswer.peerId),
    .inr (.delivered "AA:BB:CC:DD:EE:FF" (frameFor nonce)), .inr (.shown (activityFor c nonce)),
    .inr (.approved (activityFor c nonce)), .inr (.confirmed (activityFor c nonce)),
    .inl (.waitReturned c KnownAnswer.peerId signature.val),
    .inl (.sent c (.challenge KnownAnswer.peerId nonce.val)
      (.challenge true (some signature.val) "ok"))]

def seenTwice : List (Observation ⊕ Approval) :=
  (world KnownAnswer.twicePrimitives).trace (watch KnownAnswer.twicePrimitives)
    (knownInitial, pairedPhone) twoUnlocks

theorem seenTwice_eq : seenTwice =
    seenOf 0 KnownAnswer.nonce KnownAnswer.signature ++
      seenOf 1 KnownAnswer.secondNonce KnownAnswer.secondSignature := by
  decide +kernel

/-- The property holds of every element with what stands before it. -/
def AtEveryPlace {α : Type} (P : List α → α → Prop) : List α → List α → Prop
  | _, [] => True
  | before, x :: rest => P before x ∧ AtEveryPlace P (before ++ [x]) rest

theorem AtEveryPlace.of_eq_append {α : Type} {P : List α → α → Prop} {x : α} {after : List α} :
    ∀ {earlier before xs : List α}, AtEveryPlace P earlier xs → xs = before ++ x :: after →
      P (earlier ++ before) x
  | _, [], _, heach, rfl => by simpa using heach.1
  | _, _ :: _, _, heach, rfl => by simpa using AtEveryPlace.of_eq_append heach.2 rfl

theorem signed_twice {body : Bytes} {signature : Signature}
    (hverify : KnownAnswer.twicePrimitives.verifyStrict KnownAnswer.pubkey body signature = true) :
    (body = challengeBody KnownAnswer.nonce ∧ signature = KnownAnswer.signature) ∨
      (body = challengeBody KnownAnswer.secondNonce ∧
        signature = KnownAnswer.secondSignature) := by
  simp only [KnownAnswer.twicePrimitives, KnownAnswer.primitives, Bool.or_eq_true,
    Bool.and_eq_true, beq_iff_eq] at hverify
  exact hverify.imp (fun hfirst => ⟨hfirst.1.2, hfirst.2⟩) (fun hsecond => ⟨hsecond.1.2, hsecond.2⟩)

theorem unforged_seenTwice :
    Unforged KnownAnswer.twicePrimitives KnownAnswer.pubkey "syauth" seenTwice := by
  have hplaces : AtEveryPlace (fun before note => ∀ c peerId response,
      note = .inl (.waitReturned c peerId response) → ∀ signature body,
        parseSignature response = some signature →
        KnownAnswer.twicePrimitives.verifyStrict KnownAnswer.pubkey body signature = true →
        ∃ activity, .inr (.confirmed activity) ∈ before ∧
          activity.resolved.keystoreAlias = "syauth" ∧ activity.resolved.challengeBytes = body)
      [] seenTwice := by
    have hne : KnownAnswer.signature ≠ KnownAnswer.secondSignature := by decide
    rw [seenTwice_eq]
    simp only [seenOf, List.cons_append, List.nil_append, AtEveryPlace, Sum.inl.injEq,
      reduceCtorEq, false_implies, implies_true, true_and, and_true]
    refine ⟨fun c peerId response hnote signature body hparse hverify => ?_,
      fun c peerId response hnote signature body hparse hverify => ?_⟩
    all_goals
      obtain ⟨-, -, rfl⟩ := Observation.waitReturned.inj hnote
      obtain rfl := Subtype.ext (parseSignature_eq_some.mp hparse)
    · obtain ⟨rfl, -⟩ | ⟨-, hsecond⟩ := signed_twice hverify
      · exact ⟨activityFor 0 KnownAnswer.nonce, by simp, rfl, rfl⟩
      · exact absurd hsecond hne
    · obtain ⟨-, hfirst⟩ | ⟨rfl, -⟩ := signed_twice hverify
      · exact absurd hfirst.symm hne
      · exact ⟨activityFor 1 KnownAnswer.secondNonce, by simp, rfl, rfl⟩
  intro before c peerId response after hseen
  exact hplaces.of_eq_append hseen c peerId response rfl

theorem fresh_seenTwice : Fresh seenTwice := by
  have hdrawn : ∀ c nonce, Sum.inl (.drew c nonce) ∈ seenTwice →
      (c = 0 ∧ nonce = KnownAnswer.nonce) ∨ (c = 1 ∧ nonce = KnownAnswer.secondNonce) := by
    simp +contextual [seenTwice_eq, seenOf]
  have hne : KnownAnswer.nonce ≠ KnownAnswer.secondNonce := by decide
  constructor
  · intro c c' nonce hdrew hdrew'
    obtain ⟨rfl, rfl⟩ | ⟨rfl, rfl⟩ := hdrawn c nonce hdrew <;>
      obtain ⟨rfl, hnonce⟩ | ⟨rfl, hnonce⟩ := hdrawn c' _ hdrew'
    · rfl
    · exact absurd hnonce hne
    · exact absurd hnonce.symm hne
    · rfl
  · have hplaces : AtEveryPlace (fun before note => ∀ peerId frameBytes,
        note = .inr (.delivered peerId frameBytes) → ∀ c nonce,
          Android.challengeBody frameBytes = challengeBody nonce →
          .inl (.drew c nonce) ∈ seenTwice → .inl (.drew c nonce) ∈ before) [] seenTwice := by
      have hframe : ∀ drawn nonce, Android.challengeBody (frameFor drawn) = challengeBody nonce →
          drawn = nonce := fun drawn nonce hbody =>
        challengeBody_injective ((challengeBody_challenge drawn _).symm.trans hbody)
      rw [seenTwice_eq] at hdrawn ⊢
      simp only [seenOf, List.cons_append, List.nil_append, AtEveryPlace, Sum.inr.injEq,
        reduceCtorEq, false_implies, implies_true, true_and, and_true] at hdrawn ⊢
      refine ⟨fun peerId frameBytes hnote c nonce hbody hdrew => ?_,
        fun peerId frameBytes hnote c nonce hbody hdrew => ?_⟩
      all_goals
        obtain ⟨-, rfl⟩ := Approval.delivered.inj hnote
        obtain rfl := hframe _ nonce hbody
      · obtain ⟨rfl, -⟩ | ⟨-, hsecond⟩ := hdrawn c _ hdrew
        · simp
        · exact absurd hsecond hne
      · obtain ⟨-, hfirst⟩ | ⟨rfl, -⟩ := hdrawn c _ hdrew
        · exact absurd hfirst.symm hne
        · simp
    intro before peerId frameBytes after c nonce hseen
    exact hplaces.of_eq_append hseen peerId frameBytes rfl c nonce

theorem world_run_twice :
    ∃ final, (world KnownAnswer.twicePrimitives).run (knownInitial, pairedPhone) twoUnlocks =
      some final := by
  refine Option.isSome_iff_exists.mp ?_
  decide +kernel

/-- Both calls are unlocked, each by an activity of its own. -/
theorem unlocks_agree_injectively_twice :
    ∃ first second, UnlockedBy seenTwice "syauth" 0 first ∧
      UnlockedBy seenTwice "syauth" 1 second ∧ first ≠ second := by
  obtain ⟨final, hrun⟩ := world_run_twice
  obtain ⟨hunlocked, hinjective⟩ := unlocks_agree_injectively
    ⟨⟨_, _, _, _, rfl⟩, rfl, rfl, rfl, rfl, rfl, rfl⟩ hrun unforged_seenTwice fresh_seenTwice
  have haccepted : ∀ c nonce signature, (c, nonce, signature) ∈
      [(0, KnownAnswer.nonce, KnownAnswer.signature),
        (1, KnownAnswer.secondNonce, KnownAnswer.secondSignature)] →
      AcceptedUnder seenTwice KnownAnswer.pubkey c := by
    intro c nonce signature hcall
    refine ⟨KnownAnswer.peerId, KnownAnswer.peerId, nonce.val, some signature.val,
      ⟨KnownAnswer.bondKey, some KnownAnswer.pubkey, 0⟩, ?_, rfl, ?_⟩
    all_goals
      rw [seenTwice_eq]
      simp only [List.mem_cons, List.not_mem_nil, or_false, Prod.mk.injEq] at hcall
      obtain ⟨rfl, rfl, rfl⟩ | ⟨rfl, rfl, rfl⟩ := hcall <;> simp [seenOf]
  obtain ⟨first, hfirst⟩ := hunlocked 0 (haccepted 0 KnownAnswer.nonce KnownAnswer.signature
    (by simp))
  obtain ⟨second, hsecond⟩ := hunlocked 1 (haccepted 1 KnownAnswer.secondNonce
    KnownAnswer.secondSignature (by simp))
  refine ⟨first, second, hfirst, hsecond, ?_⟩
  rintro rfl
  exact absurd (hinjective 0 1 first hfirst hsecond) (by decide)

end Syauth.Unlocking
