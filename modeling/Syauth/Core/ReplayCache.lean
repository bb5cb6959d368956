import Syauth.Core.Crypto
import Syauth.Sequence.Recent

/-! # The replay cache

`crates/syauth-core/src/replay.rs`.  Instants and durations are nanoseconds; the caller
passes the time of every call.  Expired entries are taken from the front up to the first
live one, and the oldest entries give way to new ones beyond the capacity.
-/

namespace Syauth

open Sequence

def defaultReplayCap : Nat := 64
def defaultReplayTtl : Nat := 10 * 1000000000

inductive Acceptance where
  | fresh
  | replayed
  deriving DecidableEq

structure ReplayCache where
  cap : Nat
  ttl : Nat
  /-- Nonces with the time of their insertion, oldest first. -/
  entries : List (Nonce × Nat)
  deriving DecidableEq

namespace ReplayCache

def new (cap ttl : Nat) : ReplayCache := ⟨cap, ttl, []⟩

/-- The age of an entry has reached the time to live; `saturating_duration_since` is the
subtraction of natural numbers. -/
def expired (ttl now : Nat) (entry : Nonce × Nat) : Bool := decide (ttl ≤ now - entry.2)

def evictExpired (cache : ReplayCache) (now : Nat) : ReplayCache :=
  { cache with entries := cache.entries.dropWhile (expired cache.ttl now) }

def observe (cache : ReplayCache) (nonce : Nonce) (now : Nat) : Acceptance × ReplayCache :=
  let cache := cache.evictExpired now
  if cache.entries.any fun entry => entry.1 == nonce then (.replayed, cache)
  else if cache.cap = 0 then (.fresh, cache)
  else (.fresh, { cache with entries := popExcess cache.cap (cache.entries ++ [(nonce, now)]) })

end ReplayCache

/-! ## Sequences of calls -/

/-- A cache and the calls that it has reported fresh. -/
structure Observed where
  cache : ReplayCache
  log : List (Nonce × Nat)

def Observed.next (seen : Observed) (call : Nonce × Nat) : Observed :=
  match seen.cache.observe call.1 call.2 with
  | (.fresh, cache) => ⟨cache, seen.log ++ [call]⟩
  | (.replayed, cache) => ⟨cache, seen.log⟩

/-- What a new cache and its log have become after some calls. -/
def observed (cap ttl : Nat) (calls : List (Nonce × Nat)) : Observed :=
  calls.foldl Observed.next ⟨.new cap ttl, []⟩

/-- Calls in the order of their times. -/
def InOrder (calls : List (Nonce × Nat)) : Prop := calls.Pairwise fun a b => a.2 ≤ b.2

/-- The nonce was last reported fresh at `t0`, and `others` have been since. -/
def LastFresh (log : List (Nonce × Nat)) (nonce : Nonce) (t0 others : Nat) : Prop :=
  ∃ before after, log = before ++ (nonce, t0) :: after ∧ (∀ entry ∈ after, entry.1 ≠ nonce) ∧
    after.length = others

/-- What the cache promises to a sequence of calls. -/
structure MeetsReplaySpec (cap ttl : Nat) (calls : List (Nonce × Nat)) : Prop where
  replayed_iff : ∀ before nonce now after, calls = before ++ (nonce, now) :: after →
    (((observed cap ttl before).cache.observe nonce now).1 = .replayed ↔
      ∃ t0 others, LastFresh (observed cap ttl before).log nonce t0 others ∧
        now - t0 < ttl ∧ others < cap)
  bounded : (observed cap ttl calls).cache.entries.length ≤ cap
  distinct : ((observed cap ttl calls).cache.entries.map Prod.fst).Nodup
  inOrder : InOrder (observed cap ttl calls).cache.entries
  /-- A replay leaves the survivors with their times, and a later call finds no difference. -/
  replay_inert : ∀ before nonce now after, calls = before ++ (nonce, now) :: after →
    ((observed cap ttl before).cache.observe nonce now).1 = .replayed →
      ((observed cap ttl before).cache.observe nonce now).2.entries <:+
          (observed cap ttl before).cache.entries ∧
        ∀ other later, now ≤ later →
          ((observed cap ttl before).cache.observe nonce now).2.observe other later =
            (observed cap ttl before).cache.observe other later

/-! ## What one call does -/

/-- The cache is swept; then the nonce is found in it or goes to its end. -/
inductive ObserveResult (cache : ReplayCache) (nonce : Nonce) (now : Nat) :
    Acceptance × ReplayCache → Prop
  | replayed (hfound : ∃ entry ∈ (cache.evictExpired now).entries, entry.1 = nonce) :
      ObserveResult cache nonce now (.replayed, cache.evictExpired now)
  | passed (hnew : ∀ entry ∈ (cache.evictExpired now).entries, entry.1 ≠ nonce)
      (hcap : cache.cap = 0) : ObserveResult cache nonce now (.fresh, cache.evictExpired now)
  | pushed (hnew : ∀ entry ∈ (cache.evictExpired now).entries, entry.1 ≠ nonce) :
      ObserveResult cache nonce now
        (.fresh, { cache with
          entries := ((cache.evictExpired now).entries ++ [(nonce, now)]).rtake cache.cap })

theorem ReplayCache.observe_sound (cache : ReplayCache) (nonce : Nonce) (now : Nat) :
    ObserveResult cache nonce now (cache.observe nonce now) := by
  unfold ReplayCache.observe
  dsimp only
  split
  · next hfound =>
      simp only [List.any_eq_true, beq_iff_eq] at hfound
      exact .replayed hfound
  · next hmissing =>
      simp only [List.any_eq_true, beq_iff_eq, not_exists, not_and] at hmissing
      split
      · next hcap => exact .passed hmissing hcap
      · rw [popExcess_eq_rtake]
        exact .pushed hmissing

theorem observe_replayed_iff_found {cache : ReplayCache} {nonce : Nonce} {now : Nat} :
    (cache.observe nonce now).1 = .replayed ↔
      ∃ entry ∈ (cache.evictExpired now).entries, entry.1 = nonce := by
  have hresult := cache.observe_sound nonce now
  generalize cache.observe nonce now = result at hresult ⊢
  cases hresult with
  | replayed hfound => exact ⟨fun _ => hfound, fun _ => rfl⟩
  | passed hnew | pushed hnew =>
      refine ⟨fun hreplayed => (nomatch hreplayed), ?_⟩
      rintro ⟨entry, hmem, hnonce⟩
      exact absurd hnonce (hnew entry hmem)

theorem observe_of_replayed {cache : ReplayCache} {nonce : Nonce} {now : Nat}
    (hreplayed : (cache.observe nonce now).1 = .replayed) :
    (cache.observe nonce now).2 = cache.evictExpired now := by
  have hresult := cache.observe_sound nonce now
  generalize cache.observe nonce now = result at hresult hreplayed ⊢
  cases hresult with
  | replayed hfound => rfl
  | passed hnew | pushed hnew => cases hreplayed

/-! ## What the sweeps leave -/

variable {cap ttl now later : Nat} {entry call : Nonce × Nat} {entries log : List (Nonce × Nat)}
  {seen : Observed} {nonce : Nonce}

theorem expired_mono (hlater : now ≤ later)
    (hexpired : ReplayCache.expired ttl now entry = true) :
    ReplayCache.expired ttl later entry = true := by
  simp only [ReplayCache.expired, decide_eq_true_eq] at hexpired ⊢
  omega

theorem not_expired_iff : ReplayCache.expired ttl now entry = false ↔ now - entry.2 < ttl := by
  simp [ReplayCache.expired]

theorem expired_of_earlier {other : Nonce × Nat} (horder : entry.2 ≤ other.2)
    (hexpired : ReplayCache.expired ttl now other = true) :
    ReplayCache.expired ttl now entry = true := by
  simp only [ReplayCache.expired, decide_eq_true_eq] at hexpired ⊢
  omega

/-- The first live entry stops the sweep, and everything behind it is younger. -/
theorem live_of_mem_dropWhile (horder : InOrder entries)
    (hmem : entry ∈ entries.dropWhile (ReplayCache.expired ttl now)) :
    ReplayCache.expired ttl now entry = false := by
  induction entries with
  | nil => cases hmem
  | cons first rest ih =>
      obtain ⟨hfirst, hrest⟩ := List.pairwise_cons.mp horder
      rw [List.dropWhile_cons] at hmem
      split at hmem
      · exact ih hrest hmem
      · next hlive =>
          rw [Bool.not_eq_true] at hlive
          rcases List.mem_cons.mp hmem with rfl | hin
          · exact hlive
          · by_contra hexpired
            rw [Bool.not_eq_false] at hexpired
            rw [expired_of_earlier (hfirst entry hin) hexpired] at hlive
            cases hlive

/-- A later sweep makes an earlier one superfluous. -/
theorem dropWhile_expired_expired (hlater : now ≤ later) (entries : List (Nonce × Nat)) :
    (entries.dropWhile (ReplayCache.expired ttl now)).dropWhile (ReplayCache.expired ttl later) =
      entries.dropWhile (ReplayCache.expired ttl later) := by
  induction entries with
  | nil => rfl
  | cons first rest ih =>
      by_cases hexpired : ReplayCache.expired ttl now first = true
      · rw [List.dropWhile_cons_of_pos hexpired, ih,
          List.dropWhile_cons_of_pos (expired_mono hlater hexpired)]
      · rw [List.dropWhile_cons_of_neg hexpired]

/-- After a sweep no entry that is younger than the time to live is missing from the window,
and no other one is left. -/
structure Swept (cap ttl now : Nat) (log entries : List (Nonce × Nat)) : Prop where
  window : ∃ gone, log.rtake cap = gone ++ entries ∧
    ∀ entry ∈ gone, ReplayCache.expired ttl now entry = true
  live : ∀ entry ∈ entries, ReplayCache.expired ttl now entry = false

theorem Swept.mem_iff (hswept : Swept cap ttl now log entries) :
    entry ∈ entries ↔ entry ∈ log.rtake cap ∧ now - entry.2 < ttl := by
  obtain ⟨⟨gone, hwindow, hgone⟩, hlive⟩ := hswept
  rw [hwindow, List.mem_append, ← not_expired_iff]
  constructor
  · intro hmem
    exact ⟨.inr hmem, hlive entry hmem⟩
  · rintro ⟨hold | hmem, hyoung⟩
    · rw [hgone entry hold] at hyoung
      cases hyoung
    · exact hmem

/-- The cache holds the window of the log but for entries that have expired. -/
structure Observed.Recent (cap ttl now : Nat) (seen : Observed) : Prop where
  cap_eq : seen.cache.cap = cap
  ttl_eq : seen.cache.ttl = ttl
  inOrder : InOrder seen.log
  past : ∀ entry ∈ seen.log, entry.2 ≤ now
  window : ∃ gone, seen.log.rtake cap = gone ++ seen.cache.entries ∧
    ∀ entry ∈ gone, ReplayCache.expired ttl now entry = true
  distinct : (seen.cache.entries.map Prod.fst).Nodup

namespace Observed.Recent

theorem suffix (hrecent : seen.Recent cap ttl now) : seen.cache.entries <:+ seen.log := by
  obtain ⟨gone, hwindow, -⟩ := hrecent.window
  exact (hwindow ▸ List.suffix_append gone seen.cache.entries).trans (rtake_suffix cap seen.log)

theorem entries_inOrder (hrecent : seen.Recent cap ttl now) : InOrder seen.cache.entries :=
  hrecent.inOrder.sublist hrecent.suffix.sublist

theorem bounded (hrecent : seen.Recent cap ttl now) : seen.cache.entries.length ≤ cap := by
  obtain ⟨gone, hwindow, -⟩ := hrecent.window
  have hlen := congrArg List.length hwindow
  rw [length_rtake, List.length_append] at hlen
  omega

theorem swept (hrecent : seen.Recent cap ttl now) (hlater : now ≤ later) :
    Swept cap ttl later seen.log (seen.cache.evictExpired later).entries := by
  obtain ⟨gone, hwindow, hgone⟩ := hrecent.window
  have hsplit := List.takeWhile_append_dropWhile (p := ReplayCache.expired ttl later)
    (l := seen.cache.entries)
  refine ⟨⟨gone ++ seen.cache.entries.takeWhile (ReplayCache.expired ttl later), ?_, ?_⟩, ?_⟩
  · rw [List.append_assoc, ReplayCache.evictExpired, hrecent.ttl_eq, hsplit, hwindow]
  · intro entry hmem
    rcases List.mem_append.mp hmem with hold | hin
    · exact expired_mono hlater (hgone entry hold)
    · exact List.mem_takeWhile_imp hin
  · intro entry hmem
    rw [ReplayCache.evictExpired, hrecent.ttl_eq] at hmem
    exact live_of_mem_dropWhile hrecent.entries_inOrder hmem

/-- A nonce is a replay when the window has it and it has not expired there. -/
theorem observe_replayed_iff (hrecent : seen.Recent cap ttl now) (hlater : now ≤ later) :
    (seen.cache.observe nonce later).1 = .replayed ↔
      ∃ entry ∈ seen.log.rtake cap, entry.1 = nonce ∧ later - entry.2 < ttl := by
  rw [observe_replayed_iff_found]
  simp only [(hrecent.swept hlater).mem_iff]
  constructor
  · rintro ⟨entry, ⟨hmem, hyoung⟩, hnonce⟩
    exact ⟨entry, hmem, hnonce, hyoung⟩
  · rintro ⟨entry, hmem, hnonce, hyoung⟩
    exact ⟨entry, ⟨hmem, hyoung⟩, hnonce⟩

end Observed.Recent

theorem Observed.Recent.next (hrecent : seen.Recent cap ttl now) (hlater : now ≤ call.2) :
    (seen.next call).Recent cap ttl call.2 := by
  obtain ⟨⟨gone, hwindow, hgone⟩, -⟩ := hrecent.swept hlater
  have hswept : ((seen.cache.evictExpired call.2).entries.map Prod.fst).Nodup :=
    hrecent.distinct.sublist ((List.dropWhile_sublist _).map Prod.fst)
  have hpast : ∀ entry ∈ seen.log, entry.2 ≤ call.2 := fun entry hmem =>
    (hrecent.past entry hmem).trans hlater
  have hinOrder : InOrder (seen.log ++ [call]) :=
    List.pairwise_append.mpr ⟨hrecent.inOrder, List.pairwise_singleton _ _, by simpa using hpast⟩
  have hpast' : ∀ entry ∈ seen.log ++ [call], entry.2 ≤ call.2 := by
    intro entry hmem
    rcases List.mem_append.mp hmem with hin | hin
    · exact hpast entry hin
    · rw [List.mem_singleton.mp hin]
  have hresult := seen.cache.observe_sound call.1 call.2
  unfold Observed.next
  generalize seen.cache.observe call.1 call.2 = result at hresult ⊢
  cases hresult with
  | replayed hfound =>
      exact ⟨hrecent.cap_eq, hrecent.ttl_eq, hrecent.inOrder, hpast, ⟨gone, hwindow, hgone⟩,
        hswept⟩
  | passed hnew hcap =>
      refine ⟨hrecent.cap_eq, hrecent.ttl_eq, hinOrder, hpast', ⟨[], ?_, by simp⟩, hswept⟩
      rw [hrecent.cap_eq] at hcap
      rw [hcap, List.rtake_zero] at hwindow
      rw [hcap, List.rtake_zero, (List.append_eq_nil_iff.mp hwindow.symm).2, List.append_nil]
  | pushed hnew =>
      refine ⟨hrecent.cap_eq, hrecent.ttl_eq, hinOrder, hpast', ?_, ?_⟩
      · -- the window of the longer log begins with what is left of the expired entries
        refine ⟨gone.rtake (cap - ((seen.cache.evictExpired call.2).entries ++ [call]).length),
          ?_, fun entry hmem => hgone entry ((rtake_suffix _ gone).subset hmem)⟩
        rw [hrecent.cap_eq, ← rtake_rtake_append, hwindow, List.append_assoc, rtake_append]
      · refine List.Nodup.sublist ((rtake_suffix _ _).sublist.map Prod.fst) ?_
        rw [List.map_append, List.map_singleton, List.nodup_append]
        refine ⟨hswept, List.pairwise_singleton _ _, ?_⟩
        intro nonce hmem other hother
        obtain ⟨entry, hentry, rfl⟩ := List.mem_map.mp hmem
        rw [List.mem_singleton.mp hother]
        exact hnew entry hentry

/-! ## Any sequence of calls -/

theorem observed_concat (cap ttl : Nat) (calls : List (Nonce × Nat)) (call : Nonce × Nat) :
    observed cap ttl (calls ++ [call]) = (observed cap ttl calls).next call := by
  rw [observed, List.foldl_append]
  rfl

/-- The time of the last call, or the beginning of time. -/
def lastTime (calls : List (Nonce × Nat)) : Nat := (calls.getLast?.map Prod.snd).getD 0

theorem lastTime_le {calls : List (Nonce × Nat)} (horder : InOrder (calls ++ [call])) :
    lastTime calls ≤ call.2 := by
  rw [lastTime]
  cases hlast : calls.getLast? with
  | none => exact Nat.zero_le _
  | some last =>
      exact (List.pairwise_append.mp horder).2.2 last (List.mem_of_getLast? hlast) call
        List.mem_cons_self

theorem observed_recent (cap ttl : Nat) {calls : List (Nonce × Nat)} (horder : InOrder calls) :
    (observed cap ttl calls).Recent cap ttl (lastTime calls) := by
  induction calls using List.reverseRecOn with
  | nil =>
      exact ⟨rfl, rfl, List.Pairwise.nil, fun _ hmem => (nomatch hmem),
        ⟨[], List.rtake_nil cap, by simp⟩,
        List.nodup_nil⟩
  | append_singleton calls call ih =>
      have hbefore : InOrder calls := (List.pairwise_append.mp horder).1
      have hnext := (ih hbefore).next (lastTime_le horder)
      rw [observed_concat]
      rw [lastTime, List.getLast?_concat]
      exact hnext

/-- The latest entry of a nonce in the window is the one that counts. -/
theorem recent_iff_lastFresh (horder : InOrder log) :
    (∃ entry ∈ log.rtake cap, entry.1 = nonce ∧ now - entry.2 < ttl) ↔
      ∃ t0 others, LastFresh log nonce t0 others ∧ now - t0 < ttl ∧ others < cap := by
  constructor
  · rintro ⟨entry, hmem, hnonce, hyoung⟩
    have hfound : ((log.rtake cap).reverse.find? fun e => e.1 == nonce).isSome := by
      rw [List.find?_isSome]
      exact ⟨entry, List.mem_reverse.mpr hmem, beq_iff_eq.mpr hnonce⟩
    obtain ⟨last, hlast⟩ := Option.isSome_iff_exists.mp hfound
    obtain ⟨hsame, newer, older, hsplit, hnewer⟩ := List.find?_eq_some_iff_append.mp hlast
    have hwindow : log.rtake cap = older.reverse ++ last :: newer.reverse := by
      rw [← List.reverse_inj, hsplit]
      simp
    obtain ⟨hbefore, hcut⟩ := rtake_suffix cap log
    have hothers : ∀ e ∈ newer.reverse, e.1 ≠ nonce := by
      intro e he
      have hdiffers := hnewer e (List.mem_reverse.mp he)
      rw [Bool.not_eq_true', beq_eq_false_iff_ne] at hdiffers
      exact hdiffers
    have hlastNonce : last.1 = nonce := beq_iff_eq.mp hsame
    refine ⟨last.2, newer.reverse.length, ⟨hbefore ++ older.reverse, newer.reverse, ?_, hothers,
      rfl⟩, ?_, ?_⟩
    · rw [← hlastNonce, List.append_assoc, ← hwindow, hcut]
    · -- it is no older than any other entry of the nonce in the window
      have hwindowOrder : InOrder (older.reverse ++ last :: newer.reverse) :=
        hwindow ▸ horder.sublist (rtake_suffix cap log).sublist
      have hlater : entry.2 ≤ last.2 := by
        rw [hwindow, List.mem_append, List.mem_cons] at hmem
        rcases hmem with hold | rfl | hnew
        · exact (List.pairwise_append.mp hwindowOrder).2.2 entry hold last List.mem_cons_self
        · exact Nat.le_refl _
        · exact absurd hnonce (hothers entry hnew)
      omega
    · have hlen := congrArg List.length hwindow
      rw [length_rtake, List.length_append, List.length_cons] at hlen
      omega
  · rintro ⟨t0, others, ⟨before, after, hlog, -, rfl⟩, hyoung, hcap⟩
    exact ⟨(nonce, t0), mem_rtake_iff.mpr ⟨before, after, hlog, hcap⟩, rfl, hyoung⟩

/-- A call after a sweep finds what it would have found without it. -/
theorem observe_evictExpired (cache : ReplayCache) (nonce : Nonce) (hlater : now ≤ later) :
    (cache.evictExpired now).observe nonce later = cache.observe nonce later := by
  have hsweep : (cache.evictExpired now).evictExpired later = cache.evictExpired later := by
    rw [ReplayCache.evictExpired, ReplayCache.evictExpired, ReplayCache.evictExpired,
      dropWhile_expired_expired hlater]
  rw [ReplayCache.observe, ReplayCache.observe, hsweep]

/-- Over any calls in the order of their times, for every capacity and time to live. -/
theorem replayCache_meets_spec (cap ttl : Nat) {calls : List (Nonce × Nat)}
    (horder : InOrder calls) : MeetsReplaySpec cap ttl calls := by
  have hrecent := observed_recent cap ttl horder
  refine ⟨?_, hrecent.bounded, hrecent.distinct, hrecent.entries_inOrder, ?_⟩
  · rintro before nonce now after rfl
    have hsofar : InOrder (before ++ [(nonce, now)]) := horder.sublist (by simp)
    have hbefore := observed_recent cap ttl (List.pairwise_append.mp hsofar).1
    rw [hbefore.observe_replayed_iff (lastTime_le hsofar), recent_iff_lastFresh hbefore.inOrder]
  · rintro before nonce now after rfl hreplayed
    rw [observe_of_replayed hreplayed]
    exact ⟨List.dropWhile_suffix _, fun other later hlater =>
      observe_evictExpired _ other hlater⟩

/-- A nonce, another one, the first again within its time to live and right at its end. -/
def sampleCalls : List (Nonce × Nat) :=
  [(KnownAnswer.nonce, 0), (Octets.zero nonceLen, 1), (KnownAnswer.nonce, defaultReplayTtl - 1),
    (KnownAnswer.nonce, defaultReplayTtl)]

theorem replayCache_meets_spec_sample :
    InOrder sampleCalls ∧ MeetsReplaySpec defaultReplayCap defaultReplayTtl sampleCalls := by
  have horder : InOrder sampleCalls := by
    unfold InOrder
    decide
  exact ⟨horder, replayCache_meets_spec defaultReplayCap defaultReplayTtl horder⟩

end Syauth
