import Syauth.Presenced.Advertised
import Syauth.Presenced.Framing

/-! # The minutes of the rotation

`align_to_next_minute` and the timer of `run` in `orchestrator.rs`.  The timer starts at the
offset that was computed when the orchestrator was built, and ticks once a minute from there.
-/

namespace Syauth.Presenced

/-- A span of time in nanoseconds. -/
abbrev Duration := Int

def Duration.fromSecs (secs : Int) : Duration := secs * 1000000000

/-- The offset to the next minute, from the whole seconds of the clock. -/
def alignToNextMinute (now : SystemTime) : Duration :=
  if now < 0 then Duration.fromSecs secondsPerMinute
  else
    let secs := now / 1000000000
    let remainder := secs % secondsPerMinute
    let toNext := secondsPerMinute - remainder
    Duration.fromSecs toNext

/-- A timer of the runtime.  A tick that is taken late does not move the later ones. -/
structure Interval where
  start : SystemTime
  period : Duration

/-- When a tick is due. -/
def Interval.due (interval : Interval) (k : Nat) : SystemTime :=
  interval.start + k * interval.period

/-- The timer of an orchestrator that is built at a time. -/
def rotationInterval (now : SystemTime) : Interval where
  start := now + alignToNextMinute now
  period := Duration.fromSecs secondsPerMinute

/-- When a minute begins. -/
def minuteStart (minute : Int) : SystemTime := Duration.fromSecs (minute * secondsPerMinute)

theorem alignToNextMinute_eq {now : Int} (hepoch : 0 ≤ now) :
    alignToNextMinute now = Duration.fromSecs (60 - now / 1000000000 % 60) := by
  rw [alignToNextMinute, if_neg (Int.not_lt.mpr hepoch)]
  rfl

/-- A time that fits is in the minute of its seconds. -/
theorem minuteIndex_of_fits {time : Int} (hepoch : 0 ≤ time) (hfits : SystemTime.Fits time) :
    minuteIndex time = time / 1000000000 / 60 := by
  have hbound : time < 2 ^ 63 * 1000000000 := hfits
  unfold minuteIndex secondsPerMinute
  rw [if_neg (Int.not_lt.mpr hepoch), min_eq_left]
  omega

/-- A tick is due as far into its second as the clock was when the timer was set. -/
theorem due_rotationInterval {now : Int} (hepoch : 0 ≤ now) (k : Nat) :
    (rotationInterval now).due k =
      (now / 1000000000 / 60 + 1 + k) * 60 * 1000000000 + now % 1000000000 := by
  unfold Interval.due rotationInterval
  dsimp only
  rw [alignToNextMinute_eq hepoch]
  change now + (60 - now / 1000000000 % 60) * 1000000000 + (k : Int) * (60 * 1000000000) = _
  omega

/-- A clock that is read up to 59 seconds after a tick was due is still in its minute. -/
theorem minuteIndex_of_due {now clock : Int} (hepoch : 0 ≤ now) {k : Nat}
    (hdue : (rotationInterval now).due k ≤ clock)
    (hsoon : clock < (rotationInterval now).due k + Duration.fromSecs 59)
    (hfits : SystemTime.Fits clock) : minuteIndex clock = minuteIndex now + 1 + k := by
  rw [due_rotationInterval hepoch] at hdue hsoon
  change (now / 1000000000 / 60 + 1 + k) * 60 * 1000000000 + now % 1000000000 ≤ clock at hdue
  change clock < _ + (59 * 1000000000 : Int) at hsoon
  have hbound : clock < 2 ^ 63 * 1000000000 := hfits
  have hnow : SystemTime.Fits now := by
    change now < 2 ^ 63 * 1000000000
    omega
  rw [minuteIndex_of_fits (by omega) hfits, minuteIndex_of_fits hepoch hnow]
  omega

/-! ## What a run hands to the peripheral -/

/-- The clock of a rotation: the one on entry of the loop, or that of a tick. -/
def Event.rotationClock : Event → Option SystemTime
  | .loop (.tick now _) => some now
  | _ => none

def rotationClocks (events : List Event) : List SystemTime := events.filterMap Event.rotationClock

/-- The minute and the set that a rotation hands to the peripheral. -/
def handedOver (prim : Primitives) (s : State) (event : Event) : List (Int × Finset Uuid) :=
  event.rotationClock.toList.map fun now =>
    (minuteIndex now, buildUuidUnion prim s.live (minuteIndex now))

/-- The loop is entered in the minute in which its timer was set, and each tick is taken when it
is due or less than 59 seconds later. -/
structure OnSchedule (now : SystemTime) (clocks : List SystemTime) : Prop where
  entry : ∀ clock, clocks[0]? = some clock → minuteIndex clock = minuteIndex now
  due : ∀ k clock, clocks[k + 1]? = some clock → (rotationInterval now).due k ≤ clock
  soon : ∀ k clock, clocks[k + 1]? = some clock →
    clock < (rotationInterval now).due k + Duration.fromSecs 59
  fits : ∀ clock ∈ clocks, SystemTime.Fits clock

theorem OnSchedule.minutes {now : SystemTime} (hepoch : 0 ≤ now) {clocks : List SystemTime}
    (hschedule : OnSchedule now clocks) :
    clocks.map minuteIndex =
      (List.range clocks.length).map fun i : Nat => minuteIndex now + i := by
  apply List.ext_getElem?
  intro i
  rw [List.getElem?_map, List.getElem?_map]
  cases hclock : clocks[i]? with
  | none =>
      have hlength : clocks.length ≤ i := List.getElem?_eq_none_iff.mp hclock
      rw [List.getElem?_eq_none (by rwa [List.length_range])]
      rfl
  | some clock =>
      have hlength : i < clocks.length := (List.getElem?_eq_some_iff.mp hclock).1
      rw [List.getElem?_range hlength, Option.map_some, Option.map_some]
      congr 1
      cases i with
      | zero =>
          rw [hschedule.entry clock hclock]
          exact (Int.add_zero _).symm
      | succ k =>
          have hfits := hschedule.fits clock (List.mem_of_getElem? hclock)
          rw [minuteIndex_of_due hepoch (hschedule.due k clock hclock)
            (hschedule.soon k clock hclock) hfits, Int.add_assoc, Int.add_comm 1]
          rfl

/-- A tick is due in the first second of its minute. -/
theorem minuteStart_le_due {now : Int} (hepoch : 0 ≤ now) {k : Nat}
    (hfits : SystemTime.Fits ((rotationInterval now).due k)) :
    minuteIndex ((rotationInterval now).due k) = minuteIndex now + 1 + k ∧
      minuteStart (minuteIndex now + 1 + k) ≤ (rotationInterval now).due k ∧
      (rotationInterval now).due k <
        minuteStart (minuteIndex now + 1 + k) + Duration.fromSecs 1 := by
  have hdue := due_rotationInterval hepoch k
  have hbound : (rotationInterval now).due k < (2 ^ 63 * 1000000000 : Int) := hfits
  have hnow : SystemTime.Fits now := by
    change now < 2 ^ 63 * 1000000000
    rw [hdue] at hbound
    change (now / 1000000000 / 60 + 1 + k) * 60 * 1000000000 + now % 1000000000 <
      (2 ^ 63 * 1000000000 : Int) at hbound
    omega
  have hminute : minuteIndex ((rotationInterval now).due k) = minuteIndex now + 1 + k := by
    refine minuteIndex_of_due hepoch le_rfl ?_ hfits
    exact Int.lt_add_of_pos_right _ (by decide)
  refine ⟨hminute, ?_, ?_⟩
  · rw [hdue, minuteIndex_of_fits hepoch hnow]
    change (now / 1000000000 / 60 + 1 + k) * 60 * 1000000000 ≤
      (now / 1000000000 / 60 + 1 + k) * 60 * 1000000000 + now % 1000000000
    omega
  · rw [hdue, minuteIndex_of_fits hepoch hnow]
    change (now / 1000000000 / 60 + 1 + k) * 60 * 1000000000 + now % 1000000000 <
      (now / 1000000000 / 60 + 1 + k) * 60 * 1000000000 + 1 * 1000000000
    omega

theorem alignToNextMinute_bounds {now : Int} (hepoch : 0 ≤ now) :
    Duration.fromSecs 1 ≤ alignToNextMinute now ∧
      alignToNextMinute now ≤ Duration.fromSecs secondsPerMinute := by
  rw [alignToNextMinute_eq hepoch]
  change (1 * 1000000000 : Int) ≤ (60 - now / 1000000000 % 60) * 1000000000 ∧
    (60 - now / 1000000000 % 60) * 1000000000 ≤ (60 * 1000000000 : Int)
  omega

theorem map_fst_handedOver (prim : Primitives) (s : State) (event : Event) :
    (handedOver prim s event).map Prod.fst = event.rotationClock.toList.map minuteIndex := by
  rw [handedOver, List.map_map]
  rfl

/-- The minutes of a run are those of the clocks that its rotations read. -/
theorem minutes_of_run {prim : Primitives} {s final : State} {events : List Event}
    (hrun : (daemon prim).run s events = some final) :
    ((daemon prim).trace (handedOver prim) s events).map Prod.fst =
      (rotationClocks events).map minuteIndex := by
  rw [(daemon prim).map_trace (map_fst_handedOver prim) hrun, rotationClocks,
    List.filterMap_eq_flatMap_toList, List.map_flatMap]

/-- What is handed over is advertised once the peripheral has accepted it. -/
theorem advertised_of_handedOver {prim : Primitives} {s t : State} {now : SystemTime}
    (hstep : (daemon prim).step s (.loop (.tick now (.ok ()))) = some t) :
    ∀ handed ∈ handedOver prim s (.loop (.tick now (.ok ()))),
      t.advertised = some handed.2 := by
  intro handed hmem
  obtain ⟨before, hlive, rfl⟩ := rotateOnce_of_rotates (.inl rfl) (step_sound hstep)
  rw [List.mem_singleton.mp hmem, published_rotateOnce before now]
  exact congrArg some (buildUuidUnion_congr (congrArg Live.peers hlive))

/-- The timer is set to the next minute, every tick is due in the first second of its own minute,
and a loop whose ticks are taken on time hands over the set of every minute once, in order; a set
that is handed over is advertised once the peripheral has accepted it. -/
theorem rotation_takes_every_minute {now : SystemTime} (hepoch : 0 ≤ now) :
    (Duration.fromSecs 1 ≤ alignToNextMinute now ∧
      alignToNextMinute now ≤ Duration.fromSecs secondsPerMinute) ∧
    (SystemTime.Fits (now + alignToNextMinute now) →
      minuteIndex (now + alignToNextMinute now) = minuteIndex now + 1) ∧
    (∀ k, SystemTime.Fits ((rotationInterval now).due k) →
      minuteIndex ((rotationInterval now).due k) = minuteIndex now + 1 + k ∧
        minuteStart (minuteIndex now + 1 + k) ≤ (rotationInterval now).due k ∧
        (rotationInterval now).due k <
          minuteStart (minuteIndex now + 1 + k) + Duration.fromSecs 1) ∧
    (∀ prim s final events, (daemon prim).run s events = some final →
      OnSchedule now (rotationClocks events) →
        ((daemon prim).trace (handedOver prim) s events).map Prod.fst =
          (List.range (rotationClocks events).length).map fun i : Nat => minuteIndex now + i) ∧
    ∀ prim s t clock, (daemon prim).step s (.loop (.tick clock (.ok ()))) = some t →
      ∀ handed ∈ handedOver prim s (.loop (.tick clock (.ok ()))),
        t.advertised = some handed.2 := by
  have hfirst : (rotationInterval now).due 0 = now + alignToNextMinute now := by
    unfold Interval.due rotationInterval
    exact (congrArg (_ + ·) (Int.zero_mul _)).trans (Int.add_zero _)
  refine ⟨alignToNextMinute_bounds hepoch, ?_, ?_, ?_, ?_⟩
  · intro hfits
    rw [← hfirst] at hfits ⊢
    exact (minuteStart_le_due hepoch hfits).1.trans (Int.add_zero _)
  · intro k hfits
    exact minuteStart_le_due hepoch hfits
  · intro prim s final events hrun hschedule
    rw [minutes_of_run hrun]
    exact hschedule.minutes hepoch
  · intro prim s t clock hstep
    exact advertised_of_handedOver hstep

/-- A timer that is set a quarter of a second into second 17, and a loop that is entered at once
and takes its second tick a minute less a second too late. -/
def quarterRotations : List Event :=
  [.loop (.tick 17250000000 (.ok ())), .loop (.tick 60250000000 (.ok ())),
    .loop (.tick 179240000000 (.ok ()))]

theorem onSchedule_quarterRotations :
    OnSchedule 17250000000 (rotationClocks quarterRotations) := by
  have hclocks : rotationClocks quarterRotations = [17250000000, 60250000000, 179240000000] := rfl
  rw [hclocks]
  refine ⟨?_, ?_, ?_, ?_⟩
  · intro clock hclock
    cases hclock
    rfl
  · intro k clock hclock
    match k, hclock with
    | 0, rfl => decide
    | 1, rfl => decide
  · intro k clock hclock
    match k, hclock with
    | 0, rfl => decide
    | 1, rfl => decide
  · intro clock hclock
    have hbound : ∀ clock ∈ ([17250000000, 60250000000, 179240000000] : List Int),
        clock < 2 ^ 63 * 1000000000 := by decide
    exact hbound clock hclock

theorem rotation_takes_every_minute_quarter :
    minuteIndex ((rotationInterval 17250000000).due 2) = 3 ∧
      ∃ final, (daemon KnownAnswer.primitives).run knownInitial quarterRotations = some final ∧
        ((daemon KnownAnswer.primitives).trace (handedOver KnownAnswer.primitives) knownInitial
          quarterRotations).map Prod.fst = [0, 1, 2] := by
  have hthird : (180250000000 : Int) < 2 ^ 63 * 1000000000 := by decide
  have htheorem := @rotation_takes_every_minute 17250000000 (by decide)
  have hrun : ((daemon KnownAnswer.primitives).run knownInitial quarterRotations).isSome = true :=
    rfl
  obtain ⟨final, hfinal⟩ := Option.isSome_iff_exists.mp hrun
  refine ⟨(htheorem.2.2.1 2 hthird).1, final, hfinal, ?_⟩
  exact htheorem.2.2.2.1 _ _ _ _ hfinal onSchedule_quarterRotations

end Syauth.Presenced
