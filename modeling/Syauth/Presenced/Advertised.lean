import Syauth.Presenced.Steps

/-! # The advertised rendezvous set

`rotate_once` publishes the identifiers of one minute: those of the live peers and the
pair-mode one.  Only the loop that publishes them edits the peer map, so that the set is
still that of the map when a status row is computed in the same minute, and a reload ends
with the set of the map it leaves behind.
-/

namespace Syauth.Presenced

open Transport

variable {prim : Primitives} {s t : State} {c : CallId} {minute : Int} {uuid : Uuid}

/-- A key the advertisement is derived from: that of a live peer, or the pair-mode zero key. -/
def Live.Advertises (live : Live) (key : BondKey) : Prop :=
  key = .zero bondKeyBytes ∨
    ∃ peerId entry, live.peers.lookup peerId = some entry ∧ entry.bondKey = key

theorem mem_entries_iff {live : Live} {peerId : String} {entry : PeerEntry} :
    ⟨peerId, entry⟩ ∈ live.peers.entries ↔ live.peers.lookup peerId = some entry :=
  AList.mem_lookup_iff.symm

theorem mem_buildUuidUnion {live : Live} :
    uuid ∈ buildUuidUnion prim live minute ↔
      ∃ key, live.Advertises key ∧ uuid = sessionUuidFor prim key minute := by
  unfold buildUuidUnion
  rw [Finset.mem_insert, List.mem_toFinset, List.mem_map]
  constructor
  · intro hmem
    rcases hmem with hpair | ⟨⟨peerId, entry⟩, hentry, rfl⟩
    · exact ⟨_, .inl rfl, hpair⟩
    · exact ⟨_, .inr ⟨peerId, entry, mem_entries_iff.mp hentry, rfl⟩, rfl⟩
  · intro hkey
    obtain ⟨key, hadvertised, huuid⟩ := hkey
    rcases hadvertised with rfl | ⟨peerId, entry, hlookup, rfl⟩
    · exact .inl huuid
    · exact .inr ⟨⟨peerId, entry⟩, mem_entries_iff.mpr hlookup, huuid.symm⟩

theorem buildUuidUnion_congr {live live' : Live} (hpeers : live'.peers = live.peers) :
    buildUuidUnion prim live' minute = buildUuidUnion prim live minute := by
  unfold buildUuidUnion
  rw [hpeers]

theorem mem_peersSnapshot {live : Live} {now : SystemTime} {row : PeerStatus}
    (hrow : row ∈ peersSnapshot prim live now) :
    ∃ key, live.Advertises key ∧
      row.currentSessionUuid = sessionUuidFor prim key (minuteIndex now) := by
  obtain ⟨⟨peerId, entry⟩, hentry, rfl⟩ := List.mem_map.mp hrow
  rw [List.mem_mergeSort] at hentry
  exact ⟨entry.bondKey, .inr ⟨peerId, entry, mem_entries_iff.mp hentry, rfl⟩, rfl⟩

/-! ## Between a rotation and the next reload -/

/-- A task other than the loop moves: connections, and senders of reload commands. -/
def Event.OtherTask : Event → Prop
  | .loop (.signal _) => True
  | .loop _ => False
  | _ => True

/-- No reload begins, and the loop publishes for no other minute. -/
def Event.StaysInMinute (minute : Int) : Event → Prop
  | .loop (.tick now result) => result = .ok () ∧ minuteIndex now = minute
  | event => event.OtherTask

/-- No reload begins; the loop may publish for another minute, and it may fail to. -/
def Event.NoReload : Event → Prop
  | .loop (.tick _ _) => True
  | event => event.OtherTask

theorem CallStep.advertised_eq {conn : Connection} {event : CallEvent}
    (hcall : CallStep prim s c conn event t) : t.advertised = s.advertised := by
  cases hcall <;> rfl

theorem OtherTask.frame {event : Event} (hother : event.OtherTask) (hstep : Step prim s event t) :
    t.live.peers = s.live.peers ∧ t.advertised = s.advertised ∧ t.reload = s.reload := by
  cases hstep with
  | accept hnew => exact ⟨rfl, rfl, rfl⟩
  | call hconn hcall =>
      obtain ⟨hpeers, -, hreload, -⟩ := hcall.frame
      exact ⟨hpeers, hcall.advertised_eq, hreload⟩
  | loop hloop =>
      cases hloop with
      | queued => exact ⟨rfl, rfl, rfl⟩
      | _ => exact absurd hother id

/-- What is published is the set of the minute for the peer map as it stands. -/
def Published (prim : Primitives) (minute : Int) (s : State) : Prop :=
  s.advertised = some (buildUuidUnion prim s.live minute)

theorem published_rotateOnce (s : State) (now : SystemTime) :
    Published prim (minuteIndex now) (s.rotateOnce prim now (.ok ())) := rfl

theorem Published.step {event : Event} (hpublished : Published prim minute s)
    (hstays : event.StaysInMinute minute) (hstep : Step prim s event t) :
    Published prim minute t := by
  have hframe : event.OtherTask → Published prim minute t := by
    intro hother
    obtain ⟨hpeers, hadvertised, -⟩ := OtherTask.frame hother hstep
    unfold Published
    rw [hadvertised, buildUuidUnion_congr hpeers]
    exact hpublished
  cases hstep with
  | accept hnew => exact hframe trivial
  | call hconn hcall => exact hframe trivial
  | loop hloop =>
      cases hloop with
      | queued => exact hframe trivial
      | @ticked now result hidle =>
          obtain ⟨rfl, rfl⟩ := hstays
          exact published_rotateOnce s now
      | _ => exact absurd hstays id

theorem Published.run {events : List Event} (hpublished : Published prim minute s)
    (hstays : ∀ event ∈ events, event.StaysInMinute minute)
    (hrun : (daemon prim).run s events = some t) : Published prim minute t :=
  (daemon prim).run_invariant_of_allSteps (fun _ event => event.StaysInMinute minute)
    (Published prim minute)
    (fun _ _ _ hinv hguard hnext => hinv.step hguard (step_sound hnext)) hpublished
    ((daemon prim).allSteps_of_forall (fun event hmem _ => hstays event hmem) s) hrun

/-- The peers of a snapshot are still those of the map while other tasks run. -/
theorem peers_of_otherTasks {events : List Event} (hother : ∀ event ∈ events, event.OtherTask)
    (hrun : (daemon prim).run s events = some t) : t.live.peers = s.live.peers :=
  (daemon prim).run_invariant_of_allSteps (fun _ event => event.OtherTask)
    (fun state => state.live.peers = s.live.peers)
    (fun _ _ _ hinv hguard hnext => (OtherTask.frame hguard (step_sound hnext)).1.trans hinv) rfl
    ((daemon prim).allSteps_of_forall (fun event hmem _ => hother event hmem) s) hrun

/-! ## What the set promises -/

/-- The step ends with a successful `rotate_once`. -/
def Event.Rotates (now : SystemTime) (event : Event) : Prop :=
  event = .loop (.tick now (.ok ())) ∨ event = .loop (.reloadEnd now (.ok ()))

theorem rotateOnce_of_rotates {event : Event} {now : SystemTime} (hrotates : event.Rotates now)
    (hstep : Step prim s event t) :
    ∃ before : State, before.live = s.live ∧ t = before.rotateOnce prim now (.ok ()) := by
  rcases hrotates with rfl | rfl
  · cases hstep with
    | loop hloop =>
        cases hloop with
        | ticked hidle => exact ⟨s, rfl, rfl⟩
  · cases hstep with
    | loop hloop =>
        cases hloop with
        | ended hreload => exact ⟨{ s with reload := none }, rfl, rfl⟩

/-- The published set is that of the live peers and the pair-mode key, and no other; the map
may have been read earlier, as long as only other tasks have run since. -/
def PublishesExactly (prim : Primitives) : Prop :=
  ∀ s snapshot others event now t, (∀ other ∈ others, Event.OtherTask other) →
    (daemon prim).run snapshot others = some s → event.Rotates now →
      (daemon prim).step s event = some t →
        t.live = s.live ∧ ∃ set, t.advertised = some set ∧
          set = buildUuidUnion prim snapshot.live (minuteIndex now) ∧
            ∀ uuid, uuid ∈ set ↔
              ∃ key, t.live.Advertises key ∧ uuid = sessionUuidFor prim key (minuteIndex now)

/-- A status row of the minute shows an identifier that is on the air, as long as only certain
steps come between. -/
def ReportsAdvertised (prim : Primitives) (between : Int → Event → Prop) : Prop :=
  ∀ s event now t events final later, event.Rotates now → (daemon prim).step s event = some t →
    (daemon prim).run t events = some final →
      (∀ event ∈ events, between (minuteIndex now) event) →
        minuteIndex later = minuteIndex now →
          ∃ set, final.advertised = some set ∧
            ∀ row ∈ peersSnapshot prim final.live later, row.currentSessionUuid ∈ set

/-- After a reload whose publication succeeds, a peer that it has removed is advertised in no
minute, unless its key is exempt.  Identifiers of other keys are taken to be different. -/
def WithdrawsRemoved (prim : Primitives) (exempt : Live → BondKey → Prop) : Prop :=
  ∀ before read keysDir order begun during now final,
    (daemon prim).step before (.loop (.reloadBegin read keysDir order)) = some begun →
      (∀ event ∈ during, ∀ now result, event ≠ .loop (.reloadEnd now result)) →
        (daemon prim).run begun (during ++ [.loop (.reloadEnd now (.ok ()))]) = some final →
          ∀ peerId entry, before.live.peers.lookup peerId = some entry →
            peerId ∉ final.live.peers → ¬ exempt final.live entry.bondKey →
              ∀ minute, (∀ key, final.live.Advertises key → key ≠ entry.bondKey →
                  sessionUuidFor prim entry.bondKey minute ≠
                    sessionUuidFor prim key (minuteIndex now)) →
                ∃ set, final.advertised = some set ∧
                  sessionUuidFor prim entry.bondKey minute ∉ set

theorem publishesExactly (prim : Primitives) : PublishesExactly prim := by
  intro s snapshot others event now t hothers hrun hrotates hstep
  obtain ⟨before, hlive, rfl⟩ := rotateOnce_of_rotates hrotates (step_sound hstep)
  refine ⟨(State.live_rotateOnce _ _ _).trans hlive, _, rfl, ?_, fun uuid => ?_⟩
  · apply buildUuidUnion_congr
    rw [hlive]
    exact peers_of_otherTasks hothers hrun
  · exact mem_buildUuidUnion

theorem reportsAdvertised (prim : Primitives) :
    ReportsAdvertised prim fun minute event => event.StaysInMinute minute := by
  intro s event now t events final later hrotates hstep hrun hstays hminute
  obtain ⟨before, -, rfl⟩ := rotateOnce_of_rotates hrotates (step_sound hstep)
  have hpublished := (published_rotateOnce before now).run hstays hrun
  refine ⟨_, hpublished, fun row hrow => ?_⟩
  obtain ⟨key, hkey, huuid⟩ := mem_peersSnapshot hrow
  rw [hminute] at huuid
  exact mem_buildUuidUnion.mpr ⟨key, hkey, huuid⟩

theorem withdrawsRemoved (prim : Primitives) : WithdrawsRemoved prim Live.Advertises := by
  intro before read keysDir order begun during now final hbegin hduring hrun peerId entry hlookup
    hgone hexempt minute hdistinct
  obtain ⟨ending, -, hlast⟩ := (daemon prim).run_append_eq_some.mp hrun
  obtain ⟨next, hend, hnil⟩ := (daemon prim).run_cons_eq_some.mp hlast
  cases hnil
  obtain ⟨ended, -, rfl⟩ := rotateOnce_of_rotates (.inr rfl) (step_sound hend)
  refine ⟨_, rfl, fun hmem => ?_⟩
  obtain ⟨key, hkey, huuid⟩ := mem_buildUuidUnion.mp hmem
  by_cases hsame : key = entry.bondKey
  · exact hexempt (hsame ▸ hkey)
  · exact hdistinct key hkey hsame huuid

/-- Rotations publish exactly the identifiers of the minute, status rows agree with them until
a rotation fails or is for another minute, and a reload withdraws those of a removed peer unless
a live peer has the same key or the key is the pair-mode one. -/
theorem advertised_set_follows_peers (prim : Primitives) :
    PublishesExactly prim ∧
      (ReportsAdvertised prim fun minute event => event.StaysInMinute minute) ∧
      WithdrawsRemoved prim Live.Advertises :=
  ⟨publishesExactly prim, reportsAdvertised prim, withdrawsRemoved prim⟩

/-! ## Two peers with one key -/

def secondBond : Bond :=
  ⟨KnownAnswer.otherPeerId, KnownAnswer.otherPubkey, "Pixel 9", 0, .bonded⟩

/-- The daemon with two phones, whose key files hold these keys, and a reload in its queue. -/
def twoPeers (key otherKey : BondKey) : State :=
  { State.init [(knownBond, key), (secondBond, otherKey)] true true 0 with
    reloadQueue := [.sighup] }

/-- The reload reads a store without the second phone. -/
def dropsOther (key : BondKey) : Event :=
  .loop (.reloadBegin (.parsed ⟨1, [knownBond]⟩) (fun _ => .ok key.val) .declared)

/-- The removal succeeds. -/
def removesOther : List Event := [.loop (.removed (.ok ()))]

/-- The states in which that reload begins and ends. -/
def reloadOutcome (key otherKey : BondKey) : Option (State × State) :=
  let system := daemon KnownAnswer.sessionPrimitives
  (system.step (twoPeers key otherKey) (dropsOther key)).bind fun begun =>
    (system.run begun (removesOther ++ [.loop (.reloadEnd 0 (.ok ()))])).map fun final =>
      (begun, final)

theorem reload_of_outcome {key otherKey : BondKey} {begun final : State}
    (houtcome : reloadOutcome key otherKey = some (begun, final)) :
    (daemon KnownAnswer.sessionPrimitives).step (twoPeers key otherKey) (dropsOther key) =
        some begun ∧
      (daemon KnownAnswer.sessionPrimitives).run begun
        (removesOther ++ [.loop (.reloadEnd 0 (.ok ()))]) = some final := by
  unfold reloadOutcome at houtcome
  obtain ⟨begun', hbegin, hmap⟩ := Option.bind_eq_some_iff.mp houtcome
  obtain ⟨final', hrun, hpair⟩ := Option.map_eq_some_iff.mp hmap
  obtain ⟨rfl, rfl⟩ := Prod.mk.inj hpair
  exact ⟨hbegin, hrun⟩

theorem removesOther_noEnd :
    ∀ event ∈ removesOther, ∀ now result, event ≠ .loop (.reloadEnd now result) := by
  intro event hmem now result
  rw [List.mem_singleton.mp hmem]
  exact fun heq => (nomatch heq)

theorem advertises_cases {live : Live} {key only : BondKey}
    (hkeys : live.peers.entries.map (fun entry => entry.2.bondKey) = [only])
    (hkey : live.Advertises key) : key = .zero bondKeyBytes ∨ key = only := by
  rcases hkey with hzero | ⟨peerId, entry, hlookup, rfl⟩
  · exact .inl hzero
  · have hmem := List.mem_map_of_mem (f := fun entry => entry.2.bondKey)
      (mem_entries_iff.mpr hlookup)
    rw [hkeys] at hmem
    exact .inr (List.mem_singleton.mp hmem)

/-- A reload removes one of two phones that have the same key file. -/
theorem shared_key_stays_advertised :
    ¬ WithdrawsRemoved KnownAnswer.sessionPrimitives fun _ _ => False := by
  intro hwithdraws
  have hshown : (reloadOutcome KnownAnswer.bondKey KnownAnswer.bondKey).map (fun states =>
      ((twoPeers KnownAnswer.bondKey KnownAnswer.bondKey).live.peers.lookup
          KnownAnswer.otherPeerId |>.map (·.bondKey),
        decide (KnownAnswer.otherPeerId ∈ states.2.live.peers),
        states.2.live.peers.entries.map (fun entry => entry.2.bondKey),
        states.2.advertised.map fun set => decide (sessionUuidFor KnownAnswer.sessionPrimitives
          KnownAnswer.bondKey 0 ∈ set))) =
      some (some KnownAnswer.bondKey, false, [KnownAnswer.bondKey], some true) := by
    decide
  obtain ⟨⟨begun, final⟩, houtcome, hproj⟩ := Option.map_eq_some_iff.mp hshown
  simp only [Prod.mk.injEq, decide_eq_false_iff_not] at hproj
  obtain ⟨hentry, hgone, hkeys, hset⟩ := hproj
  obtain ⟨entry, hlookup, hkey⟩ := Option.map_eq_some_iff.mp hentry
  obtain ⟨hbegin, hrun⟩ := reload_of_outcome houtcome
  obtain ⟨set, hadvertised, habsent⟩ := hwithdraws _ _ _ _ _ _ _ _ hbegin removesOther_noEnd hrun
    _ entry hlookup hgone id 0 (by
      intro key hadvertises hne
      rw [hkey] at hne ⊢
      rcases advertises_cases hkeys hadvertises with rfl | rfl
      · decide
      · exact absurd rfl hne)
  rw [hadvertised] at hset
  rw [hkey] at habsent
  exact habsent (of_decide_eq_true (Option.some.inj hset))

/-- A rotation fails after one that has succeeded in the same minute. -/
theorem failed_rotation_advertises_nothing :
    ¬ ReportsAdvertised KnownAnswer.sessionPrimitives fun _ event => event.NoReload := by
  intro hreports
  have hshown : ((daemon KnownAnswer.sessionPrimitives).run knownInitial
      [.loop (.tick 0 (.ok ())), .loop (.tick 0 (.error (.backend "advertise")))]).map
        (fun final => final.advertised.isNone) = some true := by
    decide
  obtain ⟨final, hrun, hnone⟩ := Option.map_eq_some_iff.mp hshown
  obtain ⟨rotated, hstep, hrest⟩ := (daemon _).run_cons_eq_some.mp hrun
  obtain ⟨set, hset, -⟩ := hreports _ _ 0 _ _ _ 0 (.inl rfl) hstep hrest (by simp [Event.NoReload])
    rfl
  rw [hset] at hnone
  cases hnone

/-- Neither exception can be left out. -/
theorem advertised_set_not_unconditional :
    ¬ (ReportsAdvertised KnownAnswer.sessionPrimitives fun _ event => event.NoReload) ∧
      ¬ WithdrawsRemoved KnownAnswer.sessionPrimitives fun _ _ => False :=
  ⟨failed_rotation_advertises_nothing, shared_key_stays_advertised⟩

theorem advertised_set_follows_peers_two_keys :
    ∃ begun final, reloadOutcome KnownAnswer.bondKey KnownAnswer.derivedKey = some (begun, final) ∧
      KnownAnswer.otherPeerId ∉ final.live.peers ∧
        ∃ set, final.advertised = some set ∧
          sessionUuidFor KnownAnswer.sessionPrimitives KnownAnswer.derivedKey 0 ∉ set := by
  have hshown : (reloadOutcome KnownAnswer.bondKey KnownAnswer.derivedKey).map (fun states =>
      ((twoPeers KnownAnswer.bondKey KnownAnswer.derivedKey).live.peers.lookup
          KnownAnswer.otherPeerId |>.map (·.bondKey),
        decide (KnownAnswer.otherPeerId ∈ states.2.live.peers),
        states.2.live.peers.entries.map (fun entry => entry.2.bondKey))) =
      some (some KnownAnswer.derivedKey, false, [KnownAnswer.bondKey]) := by
    decide
  obtain ⟨⟨begun, final⟩, houtcome, hproj⟩ := Option.map_eq_some_iff.mp hshown
  simp only [Prod.mk.injEq, decide_eq_false_iff_not] at hproj
  obtain ⟨hentry, hgone, hkeys⟩ := hproj
  obtain ⟨entry, hlookup, hkey⟩ := Option.map_eq_some_iff.mp hentry
  obtain ⟨hbegin, hrun⟩ := reload_of_outcome houtcome
  refine ⟨begun, final, houtcome, hgone, ?_⟩
  rw [← hkey]
  refine (advertised_set_follows_peers KnownAnswer.sessionPrimitives).2.2 _ _ _ _ _ _ _ _ hbegin
    removesOther_noEnd hrun _ entry hlookup hgone ?_ 0 ?_
  · intro hadvertises
    rw [hkey] at hadvertises
    exact absurd (advertises_cases hkeys hadvertises) (by decide)
  · intro key hadvertises hne
    rw [hkey]
    rcases advertises_cases hkeys hadvertises with rfl | rfl <;> decide

end Syauth.Presenced
