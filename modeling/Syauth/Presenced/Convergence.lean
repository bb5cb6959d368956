import Syauth.Presenced.Revocation
import Syauth.Presenced.Watcher

/-! # The live peers follow the bond file

A change of the bond file is noticed by the file watcher or announced by `SIGHUP`, by the
RPC or by the pair consumer.  Notices are merged in four places: bursts while the watcher
sleeps and drains its channel, and several `SIGHUP`s at once.  None of them loses the last
change, the daemon's own steps bring every notice to a reload, and a reload whose calls to
the peripheral succeed leaves exactly the eligible peers live.
-/

namespace Syauth.Presenced.Watcher

open Transport Transition

variable {prim : Primitives} {s t next final : Host} {event : Event} {after : List Event}

/-! ## Notices -/

/-- A notice is on its way to the orchestrator, in whatever form. -/
def Host.NoticeAhead (s : Host) : Prop :=
  (∃ result ∈ s.undelivered, concerns s.bondsPath result = true) ∨ 0 < s.changes ∨
    s.phase.owesReload = true ∨ s.hangup = true ∨ s.forwarding = true ∨
    s.daemon.reloadQueue ≠ []

/-- There is an orchestrator, and a notice on its way to it. -/
def Host.Underway (s : Host) : Prop := s.daemon.orchestrated = true ∧ s.NoticeAhead

/-- What the callback is about to be called with includes an event of the bond file. -/
def Host.Watches (s : Host) (raised : List NotifyResult) : Prop :=
  s.phase.watching = true ∧ ∃ result ∈ raised, concerns s.bondsPath result = true

/-- The steps that announce a change to a daemon with an orchestrator: what the watcher
sees, a `SIGHUP`, a finished pairing and a `Reload` request. -/
def Notices (s : Host) (event : Event) : Prop :=
  s.daemon.orchestrated = true ∧
    match event with
    | .writeBonds _ raised | .otherFile raised => s.Watches raised
    | .sighup => True
    | .daemon (.loop (.signal _)) => True
    | .daemon (.call c (.dispatch _)) => s.daemon.connections c = some ⟨.reload, .decoded⟩
    | _ => False

theorem Host.noticeAhead_of_pushed (trigger : ReloadTrigger)
    (hqueue : s.daemon.reloadQueue = t.daemon.reloadQueue ++ [trigger]) : s.NoticeAhead := by
  refine .inr (.inr (.inr (.inr (.inr ?_))))
  rw [hqueue]
  exact List.append_ne_nil_of_right_ne_nil _ (List.cons_ne_nil _ _)

theorem daemon_raise (results : List NotifyResult) : (s.raise results).daemon = s.daemon := by
  unfold Host.raise
  split <;> rfl

theorem content_raise (results : List NotifyResult) :
    (s.raise results).bondsFile = s.bondsFile ∧ (s.raise results).keysDir = s.keysDir := by
  unfold Host.raise
  split <;> exact ⟨rfl, rfl⟩

theorem Host.NoticeAhead.raise (hahead : s.NoticeAhead) (results : List NotifyResult) :
    (s.raise results).NoticeAhead := by
  unfold Host.raise
  split
  · rcases hahead with ⟨result, hmem, hconcerns⟩ | hrest
    · exact .inl ⟨result, List.mem_append_left _ hmem, hconcerns⟩
    · exact .inr hrest
  · exact hahead

theorem Host.Watches.noticeAhead {results : List NotifyResult} (hwatches : s.Watches results) :
    (s.raise results).NoticeAhead := by
  obtain ⟨hwatching, result, hmem, hconcerns⟩ := hwatches
  unfold Host.raise
  rw [if_pos hwatching]
  exact .inl ⟨result, List.mem_append_right _ hmem, hconcerns⟩

theorem Step.orchestrated_eq (hstep : Step prim s event t) :
    t.daemon.orchestrated = s.daemon.orchestrated := by
  cases hstep with
  | wrote => rw [daemon_raise]
  | other => rw [daemon_raise]
  | reload hdaemon => exact orchestrated_step hdaemon
  | daemon _ hdaemon => exact orchestrated_step hdaemon
  | _ => rfl

/-- A notice moves on or is merged with another, and only a reload uses it up. -/
theorem Step.noticeAhead (hstep : Step prim s event t) (horch : s.daemon.orchestrated = true)
    (hahead : s.NoticeAhead) (hread : ∀ order, event ≠ .reload order) : t.NoticeAhead := by
  unfold Host.NoticeAhead at hahead
  cases hstep with
  | @wrote file raised =>
      have hbefore : { s with bondsFile := file }.NoticeAhead := hahead
      exact hbefore.raise _
  | other =>
      have hbefore : s.NoticeAhead := hahead
      exact hbefore.raise _
  | wroteKeys => exact hahead
  | delivered => exact .inr (.inl (Nat.succ_pos _))
  | @ignored result rest hundelivered hconcerns =>
      refine hahead.imp_left ?_
      rintro ⟨other, hmem, hother⟩
      rw [hundelivered] at hmem
      rcases List.mem_cons.mp hmem with rfl | hrest
      · rw [hconcerns] at hother
        cases hother
      · exact ⟨other, hrest, hother⟩
  | watched hphase =>
      rw [hphase] at hahead
      rcases hahead with hundelivered | hchanges | howes | hrest
      · exact .inl hundelivered
      · exact .inr (.inl hchanges)
      · cases howes
      · exact .inr (.inr (.inr hrest))
  | received => exact .inr (.inr (.inl rfl))
  | slept => exact .inr (.inr (.inl rfl))
  | drained hphase =>
      -- the command that the task is about to send covers the change it takes
      refine .inr (.inr (.inl ?_))
      rw [hphase]
      rfl
  | emptied => exact .inr (.inr (.inl rfl))
  | sent => exact Host.noticeAhead_of_pushed .inotify rfl
  | hungUp => exact .inr (.inr (.inr (.inl rfl)))
  | hangupReceived => exact .inr (.inr (.inr (.inr (.inl horch))))
  | hangupSent => exact Host.noticeAhead_of_pushed .sighup rfl
  | reload => exact absurd rfl (hread _)
  | daemon helsewhere hdaemon =>
      rcases hahead with hundelivered | hchanges | howes | hhangup | hforwarding | hqueue
      · exact .inl hundelivered
      · exact .inr (.inl hchanges)
      · exact .inr (.inr (.inl howes))
      · exact .inr (.inr (.inr (.inl hhangup)))
      · exact .inr (.inr (.inr (.inr (.inl hforwarding))))
      · refine .inr (.inr (.inr (.inr (.inr fun hempty => hqueue ?_))))
        exact List.prefix_nil.mp (hempty ▸ reloadQueue_prefix helsewhere hdaemon)

/-- A `Reload` request that is dispatched leaves a command on the queue. -/
theorem reloadQueue_dispatch {d d' : State} {c : CallId} {now : SystemTime}
    (horch : d.orchestrated = true) (hconn : d.connections c = some ⟨.reload, .decoded⟩)
    (hstep : Presenced.step prim d (.call c (.dispatch now)) = some d') :
    d'.reloadQueue = d.reloadQueue ++ [.rpc] := by
  simp only [Presenced.step, hconn, callStep, dispatchStep, horch, if_true] at hstep
  split at hstep
  · cases hstep
    rfl
  · cases hstep

theorem Step.noticeAhead_of_notices (hstep : Step prim s event t) (hnotices : Notices s event) :
    t.NoticeAhead := by
  obtain ⟨horch, hkind⟩ := hnotices
  cases hstep with
  | @wrote file raised =>
      have hwatches : { s with bondsFile := file }.Watches raised := hkind
      exact hwatches.noticeAhead
  | other => exact Host.Watches.noticeAhead hkind
  | hungUp => exact .inr (.inr (.inr (.inl rfl)))
  | @daemon event daemon helsewhere hdaemon =>
      match event, hkind with
      | .loop (.signal trigger), _ =>
          have hloop : (Presenced.daemon prim).step s.daemon (.loop (.signal trigger)) =
            some daemon := hdaemon
          cases Presenced.step_sound hloop with
          | loop hqueued =>
              cases hqueued
              exact Host.noticeAhead_of_pushed trigger rfl
      | .call c (.dispatch now), hconn =>
          exact Host.noticeAhead_of_pushed .rpc (reloadQueue_dispatch horch hconn hdaemon)
  | _ => exact absurd hkind id

/-! ## The files as a register with notices -/

/-- A reload reads both files at once. -/
def reads (s : Host) : Event → List (BondFileRead × KeysDir)
  | .reload _ => [(s.bondsFile, s.keysDir)]
  | _ => []

/-- The bond file and the key files, with the notices that are raised of the former. -/
def files (prim : Primitives) : System.Noticed (host prim) (BondFileRead × KeysDir) where
  content s := (s.bondsFile, s.keysDir)
  underway := Host.Underway
  notices := Notices
  reads := reads
  read_eq := by
    intro s event t hstep value hvalue
    cases step_sound hstep with
    | reload => exact ⟨List.mem_singleton.mp hvalue, rfl⟩
    | _ => exact absurd hvalue List.not_mem_nil
  underway_of_notices := by
    intro s event t hstep hnotices
    have hstep := step_sound hstep
    exact ⟨hstep.orchestrated_eq.trans hnotices.1, hstep.noticeAhead_of_notices hnotices⟩
  underway_of_step := by
    intro s event t hstep hunderway hreads
    have hstep := step_sound hstep
    refine ⟨hstep.orchestrated_eq.trans hunderway.1,
      hstep.noticeAhead hunderway.1 hunderway.2 ?_⟩
    rintro order rfl
    cases hreads

/-- A change that the watcher is told about.  Nothing reports a write to a key file. -/
def Reported (s : Host) : Event → Prop
  | .writeBonds _ raised => s.daemon.orchestrated = true ∧ s.Watches raised
  | .writeKeys _ => False
  | _ => True

theorem Reported.files (hreported : Reported s event) : (files prim).Reported s event := by
  intro next hstep hchanged
  cases step_sound hstep with
  | wrote => exact hreported
  | wroteKeys => exact absurd hreported id
  | other => exact absurd (Prod.ext (content_raise _).1 (content_raise _).2) hchanged
  | _ => exact absurd rfl hchanged

theorem allSteps_reported (hreported : (host prim).AllSteps Reported next after) :
    (host prim).AllSteps (files prim).Reported next after :=
  (host prim).allSteps_imp (fun _ _ hreported => hreported.files) hreported

/-- The contents that reloads read along a run. -/
def readings (prim : Primitives) (s : Host) (events : List Event) :
    List (BondFileRead × KeysDir) := (host prim).trace reads s events

/-- No change is lost: once a change was noticed, and as long as the later ones are reported,
the daemon has read the files as they are wherever no notice is underway. -/
theorem reload_reads_last_change (hstep : (host prim).step s event = some next)
    (hnotices : Notices s event) (hreported : (host prim).AllSteps Reported next after)
    (hrun : (host prim).run next after = some final) (hquiet : ¬ final.Underway) :
    (readings prim next after).getLast? = some (final.bondsFile, final.keysDir) :=
  (files prim).last_reading_of_notice hstep hnotices (allSteps_reported hreported) hrun hquiet

/-! ## What a reload leaves behind -/

/-- Calls of the reload to the peripheral succeed. -/
def Confirmed (_ : Host) : Event → Prop
  | .daemon (.loop (.removed result)) => result = .ok ()
  | .daemon (.loop (.added result)) => result = .ok ()
  | _ => True

/-- The peers to remove are not eligible, those to add are, and the rest of the map is right. -/
structure Reconciles (keysDir : KeysDir) (store : BondStore) (task : ReloadTask) (live : Live) :
    Prop where
  store_eq : task.store = store
  newSet_eq : task.newSet = computeNewSet keysDir store
  eligible : ∀ peerId ∈ task.toAdd, Eligible keysDir store peerId
  pending : ∀ peerId, Eligible keysDir store peerId ↔
    peerId ∈ live.peers ∧ peerId ∉ task.toRemove ∨ peerId ∈ task.toAdd

/-- The daemon has carried a store over to its peer map, or is about to. -/
def Follows (keysDir : KeysDir) (store : BondStore) (d : State) : Prop :=
  match d.reload with
  | none => ∀ peerId, peerId ∈ d.live.peers ↔ Eligible keysDir store peerId
  | some task => Reconciles keysDir store task d.live

variable {keysDir : KeysDir} {store : BondStore}

theorem reconciles_start (trigger : ReloadTrigger) (order : IterOrder) (live : Live) :
    Reconciles keysDir store (.start trigger store keysDir order live) live where
  store_eq := rfl
  newSet_eq := rfl
  eligible := fun _ hadd => (mem_toAdd.mp hadd).1
  pending := by
    intro peerId
    have hadd : peerId ∈ (ReloadTask.start trigger store keysDir order live).toAdd ↔
        Eligible keysDir store peerId ∧ peerId ∉ live.peers := mem_toAdd
    have hremove : peerId ∈ (ReloadTask.start trigger store keysDir order live).toRemove ↔
        peerId ∈ live.peers ∧ ¬ Eligible keysDir store peerId := mem_toRemove
    rw [hadd, hremove]
    tauto

/-- An eligible peer is in the new set, and some record of the store carries its identifier. -/
theorem mem_addFromSet_of_eligible {live : Live} {peerId added : String}
    (heligible : Eligible keysDir store added) :
    peerId ∈ (addFromSet store (computeNewSet keysDir store) live added (.ok ())).peers ↔
      peerId = added ∨ peerId ∈ live.peers := by
  obtain ⟨⟨bond, hbond⟩, key, hkey⟩ := heligible
  have hset : (computeNewSet keysDir store).lookup added = some key :=
    lookup_computeNewSet_eq_some.mpr ⟨⟨bond, hbond⟩, hkey⟩
  have hfound : (store.list.find? fun bond => bond.peerId = added).isSome := by
    rw [List.find?_isSome]
    exact ⟨bond, hbond.1, by simpa using hbond.2.2⟩
  obtain ⟨first, hfirst⟩ := Option.isSome_iff_exists.mp hfound
  simp only [addFromSet, hset, doAddPeer, hfirst, Option.map_some, Live.peers_insertPeer,
    AList.mem_insert]

theorem Reconciles.removed {task : ReloadTask} {live : Live} {removed : String}
    {rest : List String} (hreconciles : Reconciles keysDir store task live)
    (hremove : task.toRemove = removed :: rest) :
    Reconciles keysDir store { task with toRemove := rest }
      (doRemovePeer live removed (.ok ())) where
  store_eq := hreconciles.store_eq
  newSet_eq := hreconciles.newSet_eq
  eligible := hreconciles.eligible
  pending := by
    intro peerId
    rw [hreconciles.pending peerId, hremove]
    simp only [doRemovePeer, Live.peers_removePeer, AList.mem_erase, List.mem_cons, not_or]
    tauto

theorem Reconciles.added {task : ReloadTask} {live : Live} {added : String} {rest : List String}
    (hreconciles : Reconciles keysDir store task live) (hremove : task.toRemove = [])
    (hadd : task.toAdd = added :: rest) :
    Reconciles keysDir store { task with toAdd := rest }
      (addFromSet task.store task.newSet live added (.ok ())) where
  store_eq := hreconciles.store_eq
  newSet_eq := hreconciles.newSet_eq
  eligible := fun peerId hmem =>
    hreconciles.eligible peerId (hadd ▸ List.mem_cons_of_mem added hmem)
  pending := by
    intro peerId
    have heligible := hreconciles.eligible added (hadd ▸ List.mem_cons_self)
    rw [hreconciles.pending peerId, hremove, hadd, hreconciles.store_eq, hreconciles.newSet_eq,
      mem_addFromSet_of_eligible heligible]
    simp only [List.not_mem_nil, not_false_eq_true, and_true, List.mem_cons]
    tauto

/-- Tasks of the daemon other than a reload's beginning keep what a store asks for. -/
theorem Follows.step {d d' : State} {event : Presenced.Event}
    (hfollows : Follows keysDir store d) (hconfirmed : Confirmed s (.daemon event))
    (helsewhere : Elsewhere event = true) (hstep : Presenced.step prim d event = some d') :
    Follows keysDir store d' := by
  have hdaemon : (Presenced.daemon prim).step d event = some d' := hstep
  unfold Follows at hfollows ⊢
  cases Presenced.step_sound hdaemon with
  | accept => exact hfollows
  | call hconn hcall =>
      obtain ⟨hpeers, -, hreload, -⟩ := hcall.frame
      rw [hreload]
      split
      · next hidle =>
          rw [hidle] at hfollows
          rwa [hpeers]
      · next task htask =>
          rw [htask] at hfollows
          refine ⟨hfollows.store_eq, hfollows.newSet_eq, hfollows.eligible, ?_⟩
          rw [hpeers]
          exact hfollows.pending
  | loop hloop =>
      cases hloop with
      | queued => exact hfollows
      | skipped | began => cases helsewhere
      | removed hreload =>
          have hresult : _ = Except.ok () := hconfirmed
          subst hresult
          rw [hreload] at hfollows
          exact hfollows.removed rfl
      | added hreload =>
          have hresult : _ = Except.ok () := hconfirmed
          subst hresult
          rw [hreload] at hfollows
          exact hfollows.added rfl rfl
      | ended hreload =>
          rw [hreload] at hfollows
          rw [State.reload_rotateOnce, State.live_rotateOnce]
          intro peerId
          rw [hfollows.pending peerId]
          simp
      | ticked hidle =>
          rw [State.reload_rotateOnce, State.live_rotateOnce]
          exact hfollows

/-- The daemon follows the store that its last reading loads. -/
def FollowsReadings (prim : Primitives) (seen : List (BondFileRead × KeysDir)) (s : Host) : Prop :=
  ∀ file keysDir store, seen.getLast? = some (file, keysDir) →
    BondStore.load prim file = .ok store → Follows keysDir store s.daemon

theorem FollowsReadings.step {seen : List (BondFileRead × KeysDir)}
    (hfollows : FollowsReadings prim seen s) (hconfirmed : Confirmed s event)
    (hstep : Step prim s event t) : FollowsReadings prim (seen ++ reads s event) t := by
  intro file keysDir store hlast hload
  cases hstep with
  | @reload order d hdaemon =>
      have hread : (s.bondsFile, s.keysDir) = (file, keysDir) := by
        rw [show reads s (.reload order) = [(s.bondsFile, s.keysDir)] from rfl,
          List.getLast?_concat] at hlast
        exact Option.some.inj hlast
      obtain ⟨rfl, rfl⟩ := Prod.mk.inj hread
      have hbegin : (Presenced.daemon prim).step s.daemon
          (.loop (.reloadBegin s.bondsFile s.keysDir order)) = some d := hdaemon
      cases Presenced.step_sound hbegin with
      | loop hloop =>
          cases hloop with
          | skipped queue hfailed =>
              rw [hload] at hfailed
              cases hfailed
          | began trigger queue hidle hloaded =>
              obtain rfl := Except.ok.inj (hload.symm.trans hloaded)
              exact reconciles_start trigger order s.daemon.live
  | daemon helsewhere hdaemon =>
      have hbefore : seen.getLast? = some (file, keysDir) := by simpa [reads] using hlast
      exact (hfollows file keysDir store hbefore hload).step hconfirmed helsewhere hdaemon
  | wrote =>
      have hbefore : seen.getLast? = some (file, keysDir) := by simpa [reads] using hlast
      rw [daemon_raise]
      exact hfollows file keysDir store hbefore hload
  | other =>
      have hbefore : seen.getLast? = some (file, keysDir) := by simpa [reads] using hlast
      rw [daemon_raise]
      exact hfollows file keysDir store hbefore hload
  | _ =>
      -- the reload queue is not part of what a store asks for
      have hbefore : seen.getLast? = some (file, keysDir) := by simpa [reads] using hlast
      exact hfollows file keysDir store hbefore hload

/-- No notice is underway and no reload is being carried out. -/
def Host.Settled (s : Host) : Prop := ¬ s.Underway ∧ s.daemon.reload = none

def bondsPath : String := "/var/lib/syauth/bonds.toml"

/-- The daemon answers for the phone, and its watch is established. -/
def watchingHost : Host :=
  { Host.started knownInitial bondsPath (.parsed ⟨1, [knownBond]⟩) (fun _ => .error "not read") with
    phase := .receiving }

/-- The rename of the new file over the old one, as `notify` reports it. -/
def revocation : Event := .writeBonds revokedFile [.ok ⟨.modify, [bondsPath]⟩]

/-- What the daemon does about it. -/
def revocationSeen : List Event :=
  [.callback, .recv, .slept, .tryRecv, .send, .reload .declared,
    .daemon (.loop (.removed (.ok ()))), .daemon (.loop (.reloadEnd 0 (.ok ())))]

def Host.view (s : Host) : Bool × Nat × Nat × WatcherPhase × Bool × Bool × List ReloadTrigger :=
  (s.daemon.reload.isNone, s.undelivered.length, s.changes, s.phase, s.hangup, s.forwarding,
    s.daemon.reloadQueue)

theorem settled_of_view (hview : s.view = (true, 0, 0, .receiving, false, false, [])) :
    s.Settled := by
  simp only [Host.view, Prod.mk.injEq, Option.isNone_iff_eq_none, List.length_eq_zero_iff] at hview
  obtain ⟨hidle, hundelivered, hchanges, hphase, hhangup, hforwarding, hqueue⟩ := hview
  refine ⟨fun hunderway => ?_, hidle⟩
  have hahead := hunderway.2
  simp [Host.NoticeAhead, hundelivered, hchanges, hphase, hhangup, hforwarding, hqueue,
    WatcherPhase.owesReload] at hahead

theorem revocation_run : ∃ next final,
    (host KnownAnswer.primitives).step watchingHost revocation = some next ∧
      (host KnownAnswer.primitives).run next revocationSeen = some final ∧ final.Settled ∧
        final.bondsFile = revokedFile := by
  have hview : ((host KnownAnswer.primitives).run watchingHost
      (revocation :: revocationSeen)).map Host.view =
        some (true, 0, 0, .receiving, false, false, []) := rfl
  have hfile : ((host KnownAnswer.primitives).run watchingHost
      (revocation :: revocationSeen)).map Host.bondsFile = some revokedFile := rfl
  obtain ⟨final, hrun, hfinal⟩ := Option.map_eq_some_iff.mp hview
  rw [hrun] at hfile
  obtain ⟨next, hstep, hrest⟩ := (host _).run_cons_eq_some.mp hrun
  exact ⟨next, final, hstep, hrest, settled_of_view hfinal, Option.some.inj hfile⟩

theorem notices_revocation : Notices watchingHost revocation :=
  ⟨rfl, rfl, _, List.mem_singleton_self _, by decide⟩

theorem reported_revocationSeen (state : Host) :
    (host prim).AllSteps Reported state revocationSeen :=
  (host prim).allSteps_of_forall (by simp [revocationSeen, Reported]) state

theorem reload_reads_last_change_revocation : ∃ next final,
    (host KnownAnswer.primitives).step watchingHost revocation = some next ∧
      (host KnownAnswer.primitives).run next revocationSeen = some final ∧
        (readings KnownAnswer.primitives next revocationSeen).getLast? =
          some (revokedFile, final.keysDir) := by
  obtain ⟨next, final, hstep, hrun, hsettled, hfile⟩ := revocation_run
  refine ⟨next, final, hstep, hrun, hfile ▸ ?_⟩
  exact reload_reads_last_change hstep notices_revocation (reported_revocationSeen next) hrun
    hsettled.1

/-- What the daemon, the watcher and `notify` do without anything new from outside. -/
def Own : Event → Prop
  | .callback | .watch _ | .recv | .slept | .tryRecv | .send | .sighupRecv | .sighupSend
  | .reload _ => True
  | .daemon (.loop (.removed _)) | .daemon (.loop (.added _)) | .daemon (.loop (.reloadEnd _ _)) =>
      True
  | _ => False

def WatcherPhase.weight : WatcherPhase → Nat
  | .starting => 1
  | .returned | .receiving => 0
  | .debouncing => 4
  | .draining => 3
  | .sending => 2

/-- The notices that are underway, each weighed by the steps between it and a reload. -/
def Host.noticeWeight (s : Host) : Nat :=
  6 * s.undelivered.length + 5 * s.changes + s.phase.weight +
    (if s.hangup then 3 else 0) + (if s.forwarding then 2 else 0) + s.daemon.reloadQueue.length

/-- The steps that are left of the reload under way. -/
def reloadWork (d : State) : Nat :=
  match d.reload with
  | none => 0
  | some task => task.toRemove.length + task.toAdd.length + 1

def Host.work (s : Host) : Nat ×ₗ Nat := toLex (s.noticeWeight, reloadWork s.daemon)

theorem Host.work_lt_of_noticeWeight (hweight : t.noticeWeight < s.noticeWeight) :
    t.work < s.work :=
  Prod.Lex.toLex_lt_toLex.mpr (.inl hweight)

theorem Host.work_lt_of_reloadWork (hqueue : t.noticeWeight = s.noticeWeight)
    (hwork : reloadWork t.daemon < reloadWork s.daemon) : t.work < s.work :=
  Prod.Lex.toLex_lt_toLex.mpr (.inr ⟨hqueue, hwork⟩)

theorem reloadQueue_rotateOnce (d : State) (now : SystemTime)
    (result : Except PeripheralError Unit) :
    (d.rotateOnce prim now result).reloadQueue = d.reloadQueue := by
  cases result <;> rfl

theorem reload_takes_command {d d' : State} {read : BondFileRead} {keysDir : KeysDir}
    {order : IterOrder} (hstep : Presenced.step prim d (.loop (.reloadBegin read keysDir order)) =
      some d') : d.reloadQueue.length = d'.reloadQueue.length + 1 := by
  simp only [Presenced.step] at hstep
  split at hstep
  · simp only [loopStep] at hstep
    split at hstep
    · next trigger queue hidle hqueue =>
        rw [hqueue]
        split at hstep <;> (cases hstep; rfl)
    · cases hstep
  · cases hstep

theorem Step.work_lt (hstep : Step prim s event t) (hown : Own event) : t.work < s.work := by
  cases hstep with
  | delivered hundelivered =>
      apply Host.work_lt_of_noticeWeight
      simp only [Host.noticeWeight, hundelivered, List.length_cons]
      omega
  | ignored hundelivered =>
      apply Host.work_lt_of_noticeWeight
      simp only [Host.noticeWeight, hundelivered, List.length_cons]
      omega
  | @watched established hphase =>
      apply Host.work_lt_of_noticeWeight
      cases established <;> simp [Host.noticeWeight, hphase, WatcherPhase.weight]
  | received hphase hchanges =>
      apply Host.work_lt_of_noticeWeight
      simp only [Host.noticeWeight, hphase, hchanges, WatcherPhase.weight]
      omega
  | slept hphase =>
      apply Host.work_lt_of_noticeWeight
      simp only [Host.noticeWeight, hphase, WatcherPhase.weight]
      omega
  | drained hphase hchanges =>
      apply Host.work_lt_of_noticeWeight
      simp only [Host.noticeWeight, hchanges]
      omega
  | emptied hphase hchanges =>
      apply Host.work_lt_of_noticeWeight
      simp only [Host.noticeWeight, hphase, WatcherPhase.weight]
      omega
  | sent hphase =>
      apply Host.work_lt_of_noticeWeight
      simp only [Host.noticeWeight, hphase, WatcherPhase.weight, List.length_append,
        List.length_singleton]
      omega
  | hangupReceived hhangup hforwarding =>
      apply Host.work_lt_of_noticeWeight
      simp only [Host.noticeWeight, hhangup, hforwarding, Bool.false_eq_true, ↓reduceIte]
      split <;> omega
  | hangupSent hforwarding =>
      apply Host.work_lt_of_noticeWeight
      simp only [Host.noticeWeight, hforwarding, Bool.false_eq_true, ↓reduceIte,
        List.length_append, List.length_singleton]
      omega
  | reload hdaemon =>
      apply Host.work_lt_of_noticeWeight
      simp only [Host.noticeWeight, reload_takes_command hdaemon]
      omega
  | @daemon event d helsewhere hdaemon =>
      have hloop : (Presenced.daemon prim).step s.daemon event = some d := hdaemon
      cases Presenced.step_sound hloop with
      | accept | call => exact absurd hown id
      | loop hloop =>
          cases hloop with
          | queued | ticked => exact absurd hown id
          | skipped | began => cases helsewhere
          | removed hreload =>
              refine Host.work_lt_of_reloadWork rfl ?_
              simp [reloadWork, hreload]
          | added hreload =>
              refine Host.work_lt_of_reloadWork rfl ?_
              simp [reloadWork, hreload]
          | ended hreload =>
              refine Host.work_lt_of_reloadWork ?_ ?_
              · simp only [Host.noticeWeight, reloadQueue_rotateOnce]
              · simp [reloadWork, hreload]
  | _ => exact absurd hown id

/-- Nothing reaches the watcher before its watch is established. -/
def Host.QuietBefore (s : Host) : Prop :=
  s.phase.watching = false → s.undelivered = [] ∧ s.changes = 0

theorem Host.QuietBefore.raise (hquiet : s.QuietBefore) (results : List NotifyResult) :
    (s.raise results).QuietBefore := by
  unfold Host.raise
  split
  · next hwatching =>
      intro hphase
      exact absurd (hwatching.symm.trans hphase) Bool.noConfusion
  · exact hquiet

theorem Host.QuietBefore.step (hquiet : s.QuietBefore) (hstep : Step prim s event t) :
    t.QuietBefore := by
  cases hstep with
  | @wrote file raised =>
      have hbefore : { s with bondsFile := file }.QuietBefore := hquiet
      exact hbefore.raise raised
  | other => exact hquiet.raise _
  | delivered hundelivered | ignored hundelivered =>
      intro hphase
      rw [(hquiet hphase).1] at hundelivered
      cases hundelivered
  | watched hphase => exact fun _ => hquiet (by rw [hphase]; rfl)
  | received | slept | emptied | sent => exact fun hphase => nomatch hphase
  | drained hphase =>
      intro hwatching
      change s.phase.watching = false at hwatching
      rw [hphase] at hwatching
      cases hwatching
  | _ => exact hquiet

theorem exists_move (event : Event) (hown : Own event)
    (henabled : ((host prim).step s event).isSome) :
    ∃ next, (host prim).Moves Own next s := by
  obtain ⟨next, hstep⟩ := Option.isSome_iff_exists.mp henabled
  exact ⟨next, event, hown, hstep⟩

theorem Host.isSome_pushReload (s : Host) (trigger : ReloadTrigger)
    (hempty : s.daemon.reloadQueue = []) : (s.pushReload trigger).isSome := by
  unfold Host.pushReload
  rw [hempty]
  rfl

/-- The orchestrator's loop is never stuck inside a reload. -/
theorem exists_move_of_reload (horch : s.daemon.orchestrated = true)
    (hreload : s.daemon.reload ≠ none) : ∃ next, (host prim).Moves Own next s := by
  obtain ⟨⟨trigger, store, newSet, toRemove, toAdd⟩, htask⟩ :=
    Option.ne_none_iff_exists'.mp hreload
  cases toRemove with
  | cons removed rest =>
      refine exists_move (.daemon (.loop (.removed (.ok ())))) trivial ?_
      simp [host, step, Elsewhere, daemonStep, Presenced.step, horch, loopStep, htask]
  | nil =>
      cases toAdd with
      | cons added rest =>
          refine exists_move (.daemon (.loop (.added (.ok ())))) trivial ?_
          simp [host, step, Elsewhere, daemonStep, Presenced.step, horch, loopStep, htask]
      | nil =>
          refine exists_move (.daemon (.loop (.reloadEnd 0 (.ok ())))) trivial ?_
          simp [host, step, Elsewhere, daemonStep, Presenced.step, horch, loopStep, htask]

theorem exists_move_of_command (horch : s.daemon.orchestrated = true)
    (hidle : s.daemon.reload = none) (hqueue : s.daemon.reloadQueue ≠ []) :
    ∃ next, (host prim).Moves Own next s := by
  obtain ⟨trigger, queue, hqueue⟩ := List.exists_cons_of_ne_nil hqueue
  refine exists_move (.reload .declared) trivial ?_
  simp only [host, step, daemonStep, Option.isSome_map, Presenced.step, horch, if_true, loopStep,
    hidle, hqueue]
  split <;> rfl

theorem exists_move_of_hangup (hempty : s.daemon.reloadQueue = [])
    (hpending : s.hangup = true ∨ s.forwarding = true) :
    ∃ next, (host prim).Moves Own next s := by
  by_cases hforwarding : s.forwarding = true
  · refine exists_move .sighupSend trivial ?_
    simp only [host, step, hangupStep, hforwarding, if_true]
    exact Host.isSome_pushReload { s with forwarding := false } .sighup hempty
  · refine exists_move .sighupRecv trivial ?_
    simp [host, step, hangupStep, hpending.resolve_right hforwarding, hforwarding]

/-- The task that owes a reload goes on to send its command. -/
theorem exists_move_of_owesReload (hempty : s.daemon.reloadQueue = [])
    (howes : s.phase.owesReload = true) : ∃ next, (host prim).Moves Own next s := by
  match hphase : s.phase with
  | .debouncing =>
      refine exists_move .slept trivial ?_
      simp [host, step, watcherStep, hphase]
  | .draining =>
      refine exists_move .tryRecv trivial ?_
      cases hchanges : s.changes <;> simp [host, step, watcherStep, hphase, hchanges]
  | .sending =>
      refine exists_move .send trivial ?_
      simp only [host, step, watcherStep, hphase]
      exact Host.isSome_pushReload { s with phase := .receiving } .inotify hempty
  | .starting | .returned | .receiving =>
      rw [hphase] at howes
      cases howes

theorem exists_move_of_changes (hquiet : s.QuietBefore) (hempty : s.daemon.reloadQueue = [])
    (hpos : 0 < s.changes) : ∃ next, (host prim).Moves Own next s := by
  by_cases howes : s.phase.owesReload = true
  · exact exists_move_of_owesReload hempty howes
  · match hphase : s.phase with
    | .receiving =>
        obtain ⟨changes, hchanges⟩ := Nat.exists_eq_succ_of_ne_zero hpos.ne'
        refine exists_move .recv trivial ?_
        simp [host, step, watcherStep, hphase, hchanges]
    | .starting | .returned =>
        rw [(hquiet (by rw [hphase]; rfl)).2] at hpos
        cases hpos
    | .debouncing | .draining | .sending =>
        rw [hphase] at howes
        exact absurd rfl howes

/-- The callback waits only for a channel that the watcher's task can empty. -/
theorem exists_move_of_undelivered (hquiet : s.QuietBefore) (hempty : s.daemon.reloadQueue = [])
    (hundelivered : s.undelivered ≠ []) : ∃ next, (host prim).Moves Own next s := by
  obtain ⟨first, rest, hfirst⟩ := List.exists_cons_of_ne_nil hundelivered
  by_cases hpos : 0 < s.changes
  · exact exists_move_of_changes hquiet hempty hpos
  · have hzero : s.changes = 0 := Nat.eq_zero_of_not_pos hpos
    refine exists_move .callback trivial ?_
    simp only [host, step, callbackStep, hfirst, hzero]
    split <;> rfl

/-- The callback, the watcher's task, `wait_for_reason` and the orchestrator do not wait for
each other in a circle. -/
theorem exists_move_of_not_settled (hquiet : s.QuietBefore) (hsettled : ¬ s.Settled) :
    s.daemon.orchestrated = true → ∃ next, (host prim).Moves Own next s := by
  intro horch
  by_cases hreload : s.daemon.reload = none
  · by_cases hempty : s.daemon.reloadQueue = []
    · have hahead : s.NoticeAhead := by
        by_contra hnone
        exact hsettled ⟨fun hunderway => hnone hunderway.2, hreload⟩
      rcases hahead with ⟨result, hmem, -⟩ | hpos | howes | hhangup | hforwarding | hqueue
      · exact exists_move_of_undelivered hquiet hempty (List.ne_nil_of_mem hmem)
      · exact exists_move_of_changes hquiet hempty hpos
      · exact exists_move_of_owesReload hempty howes
      · exact exists_move_of_hangup hempty (.inl hhangup)
      · exact exists_move_of_hangup hempty (.inr hforwarding)
      · exact absurd hempty hqueue
    · exact exists_move_of_command horch hreload hempty
  · exact exists_move_of_reload horch hreload

/-- A host with an orchestrator, as its runs leave it. -/
structure Host.Running (s : Host) : Prop where
  quietBefore : s.QuietBefore
  orchestrated : s.daemon.orchestrated = true

theorem Host.Running.step (hrunning : s.Running) (hstep : (host prim).step s event = some t) :
    t.Running :=
  ⟨hrunning.quietBefore.step (step_sound hstep),
    (step_sound hstep).orchestrated_eq.trans hrunning.orchestrated⟩

/-- Without news from outside the daemon settles on every schedule: its own steps do not go on
forever, and from every state a run comes to they lead to one where all notices are used up. -/
theorem daemon_settles (prim : Primitives) :
    WellFounded ((host prim).Moves Own) ∧
      ∀ initial events s, (host prim).start initial → initial.daemon.orchestrated = true →
        (host prim).run initial events = some s →
          ∃ more final, (∀ event ∈ more, Own event) ∧ (host prim).run s more = some final ∧
            final.Settled := by
  have hwf : WellFounded ((host prim).Moves Own) :=
    (host prim).wellFounded_moves Host.work fun _ _ _ hown hstep => (step_sound hstep).work_lt hown
  refine ⟨hwf, ?_⟩
  rintro initial events s ⟨daemon, bondsPath, bondsFile, keysDir, rfl⟩ horch hrun
  have hrunning : s.Running :=
    (host prim).run_invariant Host.Running (fun _ _ _ hrunning hstep => hrunning.step hstep)
      ⟨fun _ => ⟨rfl, rfl⟩, horch⟩ hrun
  refine (host prim).exists_settled_run hwf (fun _ _ _ hrunning _ hstep => hrunning.step hstep)
    (fun state hrunning hsettled => ?_) s hrunning
  exact exists_move_of_not_settled hrunning.quietBefore hsettled hrunning.orchestrated

/-- What the daemon does about a revocation is a run of its own steps that settles it. -/
example : (∀ event ∈ revocationSeen, Own event) ∧ ∃ next final,
    (host KnownAnswer.primitives).step watchingHost revocation = some next ∧
      (host KnownAnswer.primitives).run next revocationSeen = some final ∧ final.Settled := by
  obtain ⟨next, final, hstep, hrun, hsettled, -⟩ := revocation_run
  exact ⟨by simp [revocationSeen, Own], next, final, hstep, hrun, hsettled⟩

end Syauth.Presenced.Watcher
