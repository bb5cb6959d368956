import Syauth.Cli.PairWindow
import Syauth.Transition.Mailbox

/-! # The key of a pairing

What `initiate_lesc_with_peer` takes out of the mailbox after the calls, questions and
writes on a backend, and the bond that `run_pair_with_io` makes of it.
-/

namespace Syauth.Cli.PairWindow

open Presenced (PairDisk bondKeyFileExt)

/-! ## The key and the code -/

variable (host : Host)

/-- The key that the phone wrote. -/
def Event.written : Event → Option Pubkey
  | .read sent => (readPubkey sent).toOption
  | _ => none

def Event.asked : Event → Option UInt32
  | .requestConfirmation passkey => some passkey
  | _ => none

def Event.initiates : Event → Bool
  | .initiateLesc => true
  | _ => false

theorem phonePubkeyMailbox_step {backend next : Backend} {event : Event}
    (hstep : host.system.step backend event = some next) :
    next.phonePubkeyMailbox =
      if event.initiates then none else event.written <|> backend.phonePubkeyMailbox := by
  have hsound := step_sound host hstep
  cases hsound with
  | delivered hopen hreads hread | notDelivered hopen hreads hread =>
      rw [Event.written, hread]
      rfl
  | initiated hidle =>
      change _ = none
      unfold Host.initiateLesc
      split
      next hempty => exact hempty
      next => rfl
  | _ => rfl

theorem passkeySeen_step {backend next : Backend} {event : Event}
    (hstep : host.system.step backend event = some next) :
    next.passkeySeen =
      if event.initiates ∧ backend.phonePubkeyMailbox.isSome then none
      else event.asked <|> backend.passkeySeen := by
  have hsound := step_sound host hstep
  cases hsound with
  | initiated hidle =>
      unfold Host.initiateLesc
      split
      next hempty => rw [hempty]; rfl
      next hwritten => rw [hwritten]; rfl
  | _ => rfl

def keyMailbox : host.system.Mailbox Pubkey where
  slot := Backend.phonePubkeyMailbox
  puts _ event := if event.initiates then none else event.written
  takes _ event := event.initiates = true
  slot_of_puts hstep hput := by
    split at hput
    next => cases hput
    next hwrites => rw [phonePubkeyMailbox_step host hstep, if_neg hwrites, hput]; rfl
  slot_of_takes hstep htakes := by rw [phonePubkeyMailbox_step host hstep, if_pos htakes]
  slot_of_keeps hstep hput htakes := by
    rw [if_neg htakes] at hput
    rw [phonePubkeyMailbox_step host hstep, if_neg htakes, hput]
    rfl

def passkeyMailbox : host.system.Mailbox UInt32 where
  slot := Backend.passkeySeen
  puts _ event := event.asked
  takes backend event := event.initiates ∧ backend.phonePubkeyMailbox.isSome
  slot_of_puts {backend event next passkey} hstep hput := by
    have hasks : ¬ (event.initiates ∧ backend.phonePubkeyMailbox.isSome) := by
      cases event with
      | requestConfirmation => exact fun htakes => nomatch htakes.1
      | _ => cases hput
    rw [passkeySeen_step host hstep, if_neg hasks, hput]
    rfl
  slot_of_takes hstep htakes := by rw [passkeySeen_step host hstep, if_pos htakes]
  slot_of_keeps hstep hput htakes := by
    rw [passkeySeen_step host hstep, if_neg htakes, hput]
    rfl

theorem read_of_written {event : Event} {phonePubkey : Pubkey}
    (hwritten : event.written = some phonePubkey) :
    ∃ sent, event = .read (.ok sent) ∧ phonePubkey.val = sent.take pairPubkeyLen := by
  unfold Event.written at hwritten
  split at hwritten
  next sent =>
    unfold readPubkey at hwritten
    split at hwritten
    next => cases hwritten
    next bytes =>
      refine ⟨bytes, rfl, ?_⟩
      dsimp only at hwritten
      split at hwritten
      next => cases hwritten; rfl
      next => cases hwritten
  next => cases hwritten

theorem written_of_length {sent : Bytes} (hlen : pairPubkeyLen ≤ sent.length) :
    ∃ phonePubkey, (Event.read (.ok sent)).written = some phonePubkey := by
  have hread : (sent.take pairPubkeyLen).length = pairPubkeyLen := by
    rw [List.length_take, min_eq_left hlen]
  have hok : readPubkey (.ok sent) =
      .ok ⟨sent.take pairPubkeyLen, hread.trans pairPubkeyLen_eq⟩ := dif_pos hread
  exact ⟨_, by rw [Event.written, hok]; rfl⟩

/-- The phone wrote the key last, and no call has taken it since. -/
def WrittenLast (events : List Event) (phonePubkey : Pubkey) : Prop :=
  ∃ before sent after, events = before ++ .read (.ok sent) :: after ∧
    phonePubkey.val = sent.take pairPubkeyLen ∧
    ∀ later ∈ after, later.written = none ∧ later.initiates = false

/-- The agent was asked about this code last, or not at all since the last call. -/
def AskedLast (events : List Event) (numericCode : UInt32) : Prop :=
  (∃ before after, events = before ++ .requestConfirmation numericCode :: after ∧
    ∀ later ∈ after, later.asked = none) ∨
  numericCode = numericCodeNotObserved ∧ ∀ before passkey after,
    events = before ++ .requestConfirmation passkey :: after → ∃ later ∈ after, later.initiates

variable {host}

theorem writtenLast_of_mailbox {final : Backend} {events : List Event} {phonePubkey : Pubkey}
    (hrun : host.system.run .new events = some final)
    (hslot : final.phonePubkeyMailbox = some phonePubkey) : WrittenLast events phonePubkey := by
  obtain ⟨before, event, after, middle, next, rfl, hreached, hstep, hput, hkept⟩ :=
    ((keyMailbox host).slot_eq_some_iff rfl hrun).mp hslot
  rw [host.system.run_append, hreached, Option.bind_some, host.system.run_cons, hstep,
    Option.bind_some] at hrun
  have hwritten : event.written = some phonePubkey := by
    change (if event.initiates then none else event.written) = _ at hput
    split at hput
    next => cases hput
    next => exact hput
  obtain ⟨sent, rfl, hkey⟩ := read_of_written hwritten
  refine ⟨before, sent, after, rfl, hkey, ?_⟩
  refine host.system.forall_mem_of_allSteps (host.system.allSteps_imp ?_ hkept) hrun
  intro state later hkeeps
  have hquiet : ¬ later.initiates = true := hkeeps.2
  have hsilent : (if later.initiates then none else later.written) = none := hkeeps.1
  rw [if_neg hquiet] at hsilent
  exact ⟨hsilent, Bool.eq_false_iff.mpr hquiet⟩

theorem askedLast_of_slot {final : Backend} {events : List Event}
    (hrun : host.system.run .new events = some final) :
    AskedLast events (final.passkeySeen.getD numericCodeNotObserved) := by
  cases hslot : final.passkeySeen with
  | some passkey =>
      obtain ⟨before, event, after, middle, next, rfl, hreached, hstep, hput, hkept⟩ :=
        ((passkeyMailbox host).slot_eq_some_iff rfl hrun).mp hslot
      rw [host.system.run_append, hreached, Option.bind_some, host.system.run_cons, hstep,
        Option.bind_some] at hrun
      have hasked : event = .requestConfirmation passkey := by
        change event.asked = some passkey at hput
        cases event with
        | requestConfirmation other => exact congrArg _ (Option.some.inj hput)
        | _ => cases hput
      refine .inl ⟨before, after, by rw [hasked]; rfl, ?_⟩
      exact host.system.forall_mem_of_allSteps
        (host.system.allSteps_imp (fun _ _ hkeeps => hkeeps.1) hkept) hrun
  | none =>
      refine .inr ⟨rfl, ?_⟩
      rintro before passkey after rfl
      obtain ⟨middle, hreached, hlast⟩ := host.system.run_append_eq_some.mp hrun
      obtain ⟨next, hstep, hrest⟩ := host.system.run_cons_eq_some.mp hlast
      by_contra hnone
      have hquiet : ∀ later ∈ after, ∀ state, ¬ (passkeyMailbox host).takes state later :=
        fun later hmem _ htakes => hnone ⟨later, hmem, htakes.1⟩
      have hsome := (passkeyMailbox host).isSome_slot_of_put hstep rfl
        (host.system.allSteps_of_forall hquiet next) hrest
      change final.passkeySeen.isSome = true at hsome
      rw [hslot] at hsome
      cases hsome

/-- For all calls on one backend and everything between them: an outcome has the key that was
written last, in the first octets of one write, its bond key and the code that the agent was
asked last; without a key there is no outcome. -/
theorem initiateLesc_after_run {final : Backend} {events : List Event}
    (hrun : host.system.run .new events = some final) :
    (∀ outcome, (host.initiateLesc final).1 = .ok outcome →
      WrittenLast events outcome.peerPubkey ∧
      outcome.bondKey = bondKeyFromPubkeys host.prim host.hostPubkey outcome.peerPubkey ∧
      AskedLast events outcome.numericCode) ∧
    ∀ err, (host.initiateLesc final).1 = .error err → err = .noPeers ∧
      ∀ before sent after, events = before ++ .read (.ok sent) :: after →
        pairPubkeyLen ≤ sent.length → ∃ later ∈ after, later.initiates := by
  cases hslot : final.phonePubkeyMailbox with
  | some phonePubkey =>
      rw [Host.initiateLesc, hslot]
      refine ⟨?_, fun err hfails => nomatch hfails⟩
      rintro outcome ⟨⟩
      exact ⟨writtenLast_of_mailbox hrun hslot, rfl, askedLast_of_slot hrun⟩
  | none =>
      rw [Host.initiateLesc, hslot]
      refine ⟨fun outcome hok => (by cases hok), ?_⟩
      rintro err ⟨⟩
      refine ⟨rfl, ?_⟩
      rintro before sent after rfl hlen
      obtain ⟨middle, hreached, hlast⟩ := host.system.run_append_eq_some.mp hrun
      obtain ⟨next, hstep, hrest⟩ := host.system.run_cons_eq_some.mp hlast
      obtain ⟨phonePubkey, hwritten⟩ := written_of_length hlen
      by_contra hnone
      have hquiet : ∀ later ∈ after, ∀ state, ¬ (keyMailbox host).takes state later :=
        fun later hmem _ htakes => hnone ⟨later, hmem, htakes⟩
      have hsome := (keyMailbox host).isSome_slot_of_put hstep hwritten
        (host.system.allSteps_of_forall hquiet next) hrest
      change final.phonePubkeyMailbox.isSome = true at hsome
      rw [hslot] at hsome
      cases hsome

/-- The agent is asked, and the phone writes. -/
def writtenWindow : List Event :=
  rotatingWindow ++ [.requestConfirmation 495916, .write (.ok ()),
    .read (.ok KnownAnswer.otherPubkey.val)]

theorem initiateLesc_after_run_written :
    ∃ final outcome, KnownAnswer.pairHost.system.run .new writtenWindow = some final ∧
      (KnownAnswer.pairHost.initiateLesc final).1 = .ok outcome ∧
      WrittenLast writtenWindow outcome.peerPubkey ∧
      AskedLast writtenWindow outcome.numericCode := by
  refine ⟨_, _, rfl, rfl, ?_⟩
  obtain ⟨hwritten, -, hasked⟩ :=
    (@initiateLesc_after_run KnownAnswer.pairHost _ writtenWindow rfl).1 _ rfl
  exact ⟨hwritten, hasked⟩

/-! ## The bond -/

/-- The backend as `run_pair_with_io` sees it: the scan has returned `scanned`, and the call
that follows is answered after `millis`. -/
def Host.answers (host : Host) (adapterInfo : String → Except PairFlowError AdapterInfo)
    (scanned : Except PairFlowError (List PairCandidate)) (final : Backend) (millis : Nat) :
    PairBackend where
  adapterInfo := adapterInfo
  scanPeers := scanned
  initiateLescWithPeer _ _ := some ⟨millis, (host.initiateLesc final).1⟩

theorem mem_of_mem_filterCandidates {candidates : List PairCandidate}
    {peerFilter : Option String} {chosen : PairCandidate}
    (hmem : chosen ∈ filterCandidates candidates peerFilter) : chosen ∈ candidates := by
  cases peerFilter with
  | none => exact hmem
  | some needle => exact List.mem_of_mem_filter hmem

/-- What a call of `scan_peers` that returns candidates returns. -/
theorem returned_eq_connectedPeer {final : Backend} {events : List Event}
    (hrun : host.system.run .new events = some final) :
    ∀ candidates, .ok candidates ∈ final.returned → candidates = [connectedPeer] := by
  refine host.system.run_invariant
    (fun backend => ∀ candidates, .ok candidates ∈ backend.returned →
      candidates = [connectedPeer]) ?_ (fun _ hmem => by cases hmem) hrun
  intro backend event next hreturned hstep candidates hmem
  have hnew : ∀ result, .ok candidates ∈ backend.returned ++ [result] →
      (∀ other, result = .ok other → other = [connectedPeer]) → candidates = [connectedPeer] := by
    intro result hmem hresult
    rcases List.mem_append.mp hmem with hold | hlast
    · exact hreturned candidates hold
    · exact hresult candidates (List.mem_singleton.mp hlast).symm
  have hsound := step_sound host hstep
  cases hsound with
  | refused | notAccepted | notDelivered | ended | elapsed =>
      exact hnew _ hmem fun _ hok => by cases hok
  | delivered => exact hnew _ hmem fun _ hok => (Except.ok.inj hok).symm
  | initiated hidle =>
      unfold Host.initiateLesc at hmem
      split at hmem
      next => exact hreturned candidates hmem
      next => exact hreturned candidates hmem
  | _ => exact hreturned candidates hmem

/-- The pair command over a run of the backend: the bond that it stores has the key that the
phone wrote last, under the name of the synthetic peer, and the key file its bond key. -/
theorem paired_with_written_key {final : Backend} {events : List Event}
    {scanned : Except PairFlowError (List PairCandidate)} {opts : PairOpts} {env : PairEnv}
    {disk : PairDisk} {t : PairWorld} {adapterInfo : String → Except PairFlowError AdapterInfo}
    {oobCode : BondKey → List String} {accepts : Nat → Bool} {millis : Nat}
    (hrun : host.system.run .new events = some final)
    (hscanned : final.returned.getLast? = some scanned)
    (hpaired : (runPairWithIo host.prim oobCode opts
      (host.answers adapterInfo scanned final millis) env).run (.start disk accepts) = .ok () t) :
    ∃ phonePubkey, WrittenLast events phonePubkey ∧
      t.disk.keys = Function.update disk.keys
        (peerIdFromPubkey host.prim phonePubkey ++ bondKeyFileExt)
        (.ok (bondKeyFromPubkeys host.prim host.hostPubkey phonePubkey).val) ∧
      ∃ store added, BondStore.load host.prim disk.bonds = .ok store ∧
        Recorded store { peerId := peerIdFromPubkey host.prim phonePubkey, pubkey := phonePubkey,
                         name := pairConnectedPeerName, createdAt := env.now, status := .bonded }
          opts.force added ∧
        t.disk.bonds = added.saved := by
  obtain ⟨chosen, outcome, store, added, hconfirmed, hload, hrecorded, hbonds, hkeys⟩ :=
    (runPairWithIo_gated host.prim oobCode opts (host.answers adapterInfo scanned final millis)
      env disk accepts).success hpaired
  obtain ⟨candidates, hscan, hsingle⟩ := hconfirmed.single
  have hpeer : candidates = [connectedPeer] := by
    have hmem := List.mem_of_getLast? hscanned
    rw [show scanned = .ok candidates from hscan] at hmem
    exact returned_eq_connectedPeer hrun candidates hmem
  have hchosen : chosen = connectedPeer := by
    have hmem : chosen ∈ filterCandidates candidates opts.peer := by
      rw [hsingle]
      exact List.mem_singleton_self _
    rw [hpeer] at hmem
    exact List.mem_singleton.mp (mem_of_mem_filterCandidates hmem)
  obtain ⟨after, hanswer, -⟩ := hconfirmed.inTime
  have hlesc : (host.initiateLesc final).1 = .ok outcome :=
    (LescAnswer.mk.inj (Option.some.inj hanswer)).2
  obtain ⟨hwritten, hbondKey, -⟩ := (initiateLesc_after_run hrun).1 outcome hlesc
  refine ⟨outcome.peerPubkey, hwritten, ?_, store, added, hload, ?_, hbonds⟩
  · rw [hkeys, hbondKey]
  · rw [hchosen] at hrecorded
    exact hrecorded

theorem paired_with_written_key_known :
    let opts : PairOpts := ⟨"hci0", none, 60, true, false, false, none⟩
    let env : PairEnv := ⟨0, .error (), false, .ok (), .written⟩
    ∃ final t, KnownAnswer.pairHost.system.run .new writtenWindow = some final ∧
      (runPairWithIo KnownAnswer.pairHost.prim (fun _ => ["cat"]) opts
        (KnownAnswer.pairHost.answers (fun name => .ok ⟨name, true⟩) (.ok [connectedPeer]) final 0)
        env).run (.start emptyDisk fun _ => true) = .ok () t ∧
      ∃ phonePubkey, WrittenLast writtenWindow phonePubkey := by
  intro opts env
  obtain ⟨final, hrun, hreturned⟩ : ∃ final,
      KnownAnswer.pairHost.system.run .new writtenWindow = some final ∧
        final = ⟨some KnownAnswer.otherPubkey, some 495916,
          some (KnownAnswer.pairHost.buildAdvertisement 1), none, [.ok [connectedPeer]]⟩ :=
    ⟨_, rfl, rfl⟩
  subst hreturned
  refine ⟨_, _, hrun, rfl, ?_⟩
  obtain ⟨phonePubkey, hwritten, -⟩ := @paired_with_written_key KnownAnswer.pairHost _ writtenWindow
    (.ok [connectedPeer]) opts env emptyDisk _ (fun name => .ok ⟨name, true⟩) (fun _ => ["cat"])
    (fun _ => true) 0 hrun rfl rfl
  exact ⟨phonePubkey, hwritten⟩

end Syauth.Cli.PairWindow
