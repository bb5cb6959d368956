import Syauth.Mobile.SessionUuid
import Syauth.Presenced.Daemon
import Syauth.Wire.BigEndian

/-! # The phone's scan filters

`slotUuidsFor` of `bg/BleScanController.kt` and `pairModeUuidsFor` of
`pair/impl/RealPairBackend.kt`, against what the desktop advertises: `minute_index` of the
daemon for bonded peers, `unix_minute_floor` of `crates/syauth-cli/src/pair_backend.rs`
for pairing.  A Kotlin `Long` is an `Int64`, a `Byte` the signed reading of an octet.
-/

namespace Syauth.Android

open Wire Mobile

/-- `java.util.UUID`: two signed halves of 64 bits. -/
structure JavaUuid where
  mostSigBits : Int64
  leastSigBits : Int64
  deriving DecidableEq

/-- The 128 bits of a UUID as a number. -/
def JavaUuid.value (uuid : JavaUuid) : Nat :=
  uuid.mostSigBits.toBitVec.toNat * 2 ^ 64 + uuid.leastSigBits.toBitVec.toNat

/-- `Uuid::from_bytes` takes the octets most significant first. -/
def uuidValue (uuid : Uuid) : Nat := beValue uuid.val

/-! ## Packing -/

/-- One turn of the packing loops. -/
def packByte (shift mask : Int64) (half : Int64) (byte : UInt8) : Int64 :=
  (half <<< shift) ||| (byte.toInt8.toInt64 &&& mask)

/-- The body that `uuidFromBytes` and `pairUuidFromBytes` share. -/
def packUuid (byteLen : Nat) (shift mask : Int64) (bytes : Bytes) : JavaUuid :=
  if bytes.length ≠ byteLen then ⟨0, 0⟩
  else
    ⟨(bytes.take (byteLen / 2)).foldl (packByte shift mask) 0,
      (bytes.drop (byteLen / 2)).foldl (packByte shift mask) 0⟩

def uuidByteLen : Nat := 16
def uuidByteShift : Int64 := 8
def uuidByteMask : Int64 := 0xFF

def uuidFromBytes (bytes : Bytes) : JavaUuid :=
  packUuid uuidByteLen uuidByteShift uuidByteMask bytes

def pairUuidByteLen : Nat := 16
def pairUuidByteShift : Int64 := 8
def pairUuidByteMask : Int64 := 0xFF

def pairUuidFromBytes (bytes : Bytes) : JavaUuid :=
  packUuid pairUuidByteLen pairUuidByteShift pairUuidByteMask bytes

/-- The mask undoes the sign extension of a byte. -/
theorem signExtend_and_mask (byte : BitVec 8) :
    byte.signExtend 64 &&& 0xFF#64 = byte.setWidth 64 := by
  revert byte
  decide

theorem toBitVec_packByte (half : Int64) (byte : UInt8) :
    (packByte 8 0xFF half byte).toBitVec = shiftIn half.toBitVec byte := by
  rw [packByte, Int64.toBitVec_or, Int64.toBitVec_and, Int64.toBitVec_shiftLeft,
    Int8.toBitVec_toInt64, shiftIn, ← signExtend_and_mask]
  rfl

theorem toBitVec_foldl_packByte (bytes : Bytes) (half : Int64) :
    (bytes.foldl (packByte 8 0xFF) half).toBitVec = bytes.foldl shiftIn half.toBitVec := by
  induction bytes generalizing half with
  | nil => rfl
  | cons byte bytes ih =>
      rw [List.foldl_cons, List.foldl_cons, ih, toBitVec_packByte]

/-- Both packings give the octets the same 128 bits. -/
theorem value_packUuid (uuid : Uuid) : (packUuid 16 8 0xFF uuid.val).value = uuidValue uuid := by
  have hlen : uuid.val.length = 16 := uuid.property
  have htake : (uuid.val.take 8).length ≤ 8 := List.length_take_le 8 _
  have hdrop : (uuid.val.drop 8).length = 8 := by rw [List.length_drop, hlen]
  rw [packUuid, if_neg (not_not.mpr hlen), JavaUuid.value, toBitVec_foldl_packByte,
    toBitVec_foldl_packByte]
  change ((uuid.val.take 8).foldl shiftIn 0).toNat * 2 ^ 64 +
    ((uuid.val.drop 8).foldl shiftIn 0).toNat = beValue uuid.val
  rw [toNat_foldl_shiftIn htake, toNat_foldl_shiftIn hdrop.le,
    ← List.take_append_drop 8 uuid.val, beValue_append, List.take_append_drop, hdrop]
  norm_num

theorem value_uuidFromBytes (uuid : Uuid) : (uuidFromBytes uuid.val).value = uuidValue uuid :=
  value_packUuid uuid

theorem value_pairUuidFromBytes (uuid : Uuid) :
    (pairUuidFromBytes uuid.val).value = uuidValue uuid :=
  value_packUuid uuid

theorem uuidValue_injective : Function.Injective uuidValue := by
  intro uuid other hvalue
  exact Subtype.ext (beValue_inj (uuid.property.trans other.property.symm) hvalue)

/-! ## The filter of a bond -/

def secondsPerMinute : Int64 := 60

/-- The UniFFI surface: the lookup may throw. -/
abbrev SessionUuidLookup := Bytes → Int64 → Except MobileError Bytes

def slotUuidsFor (bondKey : Bytes) (nowEpochSeconds : Int64)
    (sessionUuidLookup : SessionUuidLookup) : Except MobileError (List JavaUuid) := do
  let currentMinute := nowEpochSeconds / secondsPerMinute
  let previousMinute := currentMinute - 1
  let current ← sessionUuidLookup bondKey currentMinute
  let previous ← sessionUuidLookup bondKey previousMinute
  return [uuidFromBytes current, uuidFromBytes previous]

def sessionUuidLookup (prim : Primitives) : SessionUuidLookup :=
  fun bondKey minute => sessionUuidForBond prim bondKey minute.toInt

/-- `nowEpochSeconds / 60`, for a clock that shows a time after the epoch. -/
theorem toInt_div_minute {now : Int64} (hnow : 0 ≤ now.toInt) :
    (now / secondsPerMinute).toInt = now.toInt / 60 := by
  rw [Int64.toInt_div_of_ne_right _ _ (by decide), Int.tdiv_eq_ediv_of_nonneg hnow]
  rfl

/-- Minutes around the current one are far from the ends of a `Long`. -/
theorem toInt_minute_add {now offset : Int64} (hnow : 0 ≤ now.toInt)
    (hlow : -60 ≤ offset.toInt) (hhigh : offset.toInt ≤ 60) :
    (now / secondsPerMinute + offset).toInt = now.toInt / 60 + offset.toInt := by
  have hmax := now.toInt_lt
  rw [Int64.toInt_add, toInt_div_minute hnow]
  apply Int.bmod_eq_of_le <;> omega

theorem slotUuidsFor_eq {prim : Primitives} (hexpands : prim.Expands) (bondKey : BondKey)
    {now : Int64} (hnow : 0 ≤ now.toInt) :
    slotUuidsFor bondKey.val now (sessionUuidLookup prim) =
      .ok [uuidFromBytes (sessionUuidFor prim bondKey (now.toInt / 60)).val,
        uuidFromBytes (sessionUuidFor prim bondKey (now.toInt / 60 - 1)).val] := by
  have hcurrent : sessionUuidLookup prim bondKey.val (now / secondsPerMinute) =
      .ok (sessionUuidFor prim bondKey (now.toInt / 60)).val := by
    rw [sessionUuidLookup, sessionUuidForBond_eq hexpands, toInt_div_minute hnow]
  have hprevious : sessionUuidLookup prim bondKey.val (now / secondsPerMinute - 1) =
      .ok (sessionUuidFor prim bondKey (now.toInt / 60 - 1)).val := by
    have hminute : (now / secondsPerMinute + -1).toInt = now.toInt / 60 + (-1 : Int64).toInt :=
      toInt_minute_add hnow (by decide) (by decide)
    rw [sessionUuidLookup, sessionUuidForBond_eq hexpands, Int64.sub_eq_add_neg, hminute]
    rfl
  simp only [slotUuidsFor, hcurrent, hprevious, bind, Except.bind]
  rfl

/-- The desktop's clock in whole seconds. -/
def desktopSeconds (now : Presenced.SystemTime) : Int := now / 1000000000

theorem minuteIndex_eq {now : Presenced.SystemTime} (hnow : 0 ≤ now)
    (hrange : desktopSeconds now < 2 ^ 63) :
    Presenced.minuteIndex now = desktopSeconds now / 60 := by
  unfold desktopSeconds at hrange ⊢
  unfold Presenced.minuteIndex Presenced.secondsPerMinute
  rw [if_neg (Int.not_lt.mpr hnow), min_eq_left (by omega)]

/-- Phone and desktop derive and pack equal identifiers, and a phone that is at most a minute
ahead scans for the one the desktop advertises. -/
theorem phone_scans_for_desktop {prim : Primitives} (hexpands : prim.Expands) :
    (∀ bondKey minute, sessionUuidForBond prim bondKey.val minute =
      .ok (sessionUuidFor prim bondKey minute).val) ∧
    (∀ uuid : Uuid, (uuidFromBytes uuid.val).value = uuidValue uuid) ∧
    ∀ (bondKey : BondKey) (desktop : Presenced.SystemTime) (phone : Int64), 0 ≤ desktop →
      desktopSeconds desktop ≤ phone.toInt → phone.toInt - desktopSeconds desktop ≤ 60 →
        ∃ uuids, slotUuidsFor bondKey.val phone (sessionUuidLookup prim) = .ok uuids ∧
          uuidValue (sessionUuidFor prim bondKey (Presenced.minuteIndex desktop)) ∈
            uuids.map JavaUuid.value := by
  refine ⟨sessionUuidForBond_eq hexpands, value_uuidFromBytes, ?_⟩
  intro bondKey desktop phone hdesktop hbehind hskew
  have hseconds : 0 ≤ desktopSeconds desktop := Int.ediv_nonneg hdesktop (by decide)
  have hmax := phone.toInt_lt
  refine ⟨_, slotUuidsFor_eq hexpands bondKey (hseconds.trans hbehind), ?_⟩
  rw [minuteIndex_eq hdesktop (by omega), List.map_cons, List.map_singleton, value_uuidFromBytes,
    value_uuidFromBytes]
  -- one minute of seconds reaches into the previous minute and no further
  have hminute : desktopSeconds desktop / 60 = phone.toInt / 60 ∨
      desktopSeconds desktop / 60 = phone.toInt / 60 - 1 := by omega
  rcases hminute with hsame | hprevious
  · rw [hsame]
    exact List.mem_cons_self
  · rw [hprevious]
    exact List.mem_cons_of_mem _ List.mem_cons_self

theorem sessionPrimitives_expands : KnownAnswer.sessionPrimitives.Expands := by
  intro ikm info len _
  have hplain : (KnownAnswer.primitives.hkdfSha256 ikm info len).isSome = true := by
    simp only [KnownAnswer.primitives]
    split
    · split <;> rfl
    · rfl
  simp only [KnownAnswer.sessionPrimitives]
  split
  · split
    · rfl
    · exact hplain
  · exact hplain

/-- The desktop advertises in the last second of minute 0, and the phone scans in minute 1. -/
theorem phone_scans_for_desktop_next_minute :
    ∃ uuids, slotUuidsFor KnownAnswer.bondKey.val 100 (sessionUuidLookup
        KnownAnswer.sessionPrimitives) = .ok uuids ∧
      uuidValue (sessionUuidFor KnownAnswer.sessionPrimitives KnownAnswer.bondKey
        (Presenced.minuteIndex 59999999999)) ∈ uuids.map JavaUuid.value :=
  (phone_scans_for_desktop sessionPrimitives_expands).2.2 KnownAnswer.bondKey 59999999999 100
    (by decide) (by decide) (by decide)

/-! ## The filter of the pairing window -/

def pairBondKeyLen : Nat := 32
def pairSecondsPerMinute : Int64 := 60
def pairFilterFutureSlots : Nat := 4

def pairModeUuidsFor (nowEpochSeconds : Int64) (sessionUuidLookup : SessionUuidLookup) :
    Except MobileError (List JavaUuid) := do
  let zeroBondKey := List.replicate pairBondKeyLen 0
  let currentMinute := nowEpochSeconds / pairSecondsPerMinute
  let previousMinute := currentMinute - 1
  let previous ← sessionUuidLookup zeroBondKey previousMinute
  let current ← sessionUuidLookup zeroBondKey currentMinute
  let future ← (List.range' 1 pairFilterFutureSlots).mapM fun offset =>
    sessionUuidLookup zeroBondKey (currentMinute + Int64.ofNat offset)
  return (previous :: current :: future).map pairUuidFromBytes

/-- `unix_minute_floor`; the cast of the seconds to `i64` wraps. -/
def unixMinuteFloor (now : Presenced.SystemTime) : Int :=
  (if now < 0 then 0 else (now / 1000000000).bmod (2 ^ 64)).tdiv 60

def pairDiscoveryUuid (prim : Primitives) (minute : Int) : Uuid :=
  sessionUuidFor prim (.zero bondKeyBytes) minute

/-- The minutes of the filter, relative to the current one. -/
def pairSlots : List Int := [-1, 0, 1, 2, 3, 4]

/-- A loop of lookups that all succeed. -/
theorem mapM_eq_ok {α β ε : Type} {f : α → Except ε β} {g : α → β} {items : List α}
    (hok : ∀ item ∈ items, f item = .ok (g item)) : items.mapM f = .ok (items.map g) := by
  induction items with
  | nil => rfl
  | cons item items ih =>
      have hrest := ih fun other hmem => hok other (List.mem_cons_of_mem item hmem)
      rw [List.mapM_cons, hok item List.mem_cons_self, hrest]
      rfl

theorem pairModeUuidsFor_eq {prim : Primitives} (hexpands : prim.Expands) {now : Int64}
    (hnow : 0 ≤ now.toInt) :
    pairModeUuidsFor now (sessionUuidLookup prim) =
      .ok (pairSlots.map fun offset =>
        pairUuidFromBytes (pairDiscoveryUuid prim (now.toInt / 60 + offset)).val) := by
  have hslot : ∀ offset : Int64, -60 ≤ offset.toInt → offset.toInt ≤ 60 →
      sessionUuidLookup prim (List.replicate pairBondKeyLen 0)
          (now / pairSecondsPerMinute + offset) =
        .ok (pairDiscoveryUuid prim (now.toInt / 60 + offset.toInt)).val := by
    intro offset hlow hhigh
    rw [sessionUuidLookup, pairSecondsPerMinute]
    change sessionUuidForBond prim (Octets.zero bondKeyBytes).val
      (now / secondsPerMinute + offset).toInt = _
    rw [sessionUuidForBond_eq hexpands, toInt_minute_add hnow hlow hhigh]
    rfl
  have hprevious := hslot (-1) (by decide) (by decide)
  have hcurrent := hslot 0 (by decide) (by decide)
  rw [← Int64.sub_eq_add_neg] at hprevious
  rw [Int64.add_zero] at hcurrent
  have hfuture : ∀ offset ∈ List.range' 1 pairFilterFutureSlots,
      sessionUuidLookup prim (List.replicate pairBondKeyLen 0)
          (now / pairSecondsPerMinute + Int64.ofNat offset) =
        .ok (pairDiscoveryUuid prim (now.toInt / 60 + (offset : Int))).val := by
    intro offset hmem
    have hoffset : (Int64.ofNat offset).toInt = offset ∧ offset ≤ 4 := by
      revert offset
      decide
    rw [hslot _ (by omega) (by omega), hoffset.1]
  simp only [pairModeUuidsFor, hprevious, hcurrent, mapM_eq_ok hfuture, bind, Except.bind]
  rfl

/-- The filter computed at `now` names every identifier that the desktop advertises in the
accept window of five minutes, with a minute of skew before it.  The desktop's clock counts
nanoseconds. -/
def CoversPairWindow (prim : Primitives) (now : Int64) : Prop :=
  ∃ uuids, pairModeUuidsFor now (sessionUuidLookup prim) = .ok uuids ∧
    ∀ desktop : Int, (now.toInt - 60) * 1000000000 ≤ desktop →
      desktop < (now.toInt + 300) * 1000000000 →
        uuidValue (pairDiscoveryUuid prim (unixMinuteFloor desktop)) ∈ uuids.map JavaUuid.value

/-- The last second for which the phone's clock of milliseconds has a value. -/
def lastEpochSecond : Int := (2 ^ 63 - 1) / 1000

theorem unixMinuteFloor_eq {now : Int} (hnow : 0 ≤ now)
    (hrange : now / 1000000000 < 2 ^ 63) : unixMinuteFloor now = now / 1000000000 / 60 := by
  have hseconds : 0 ≤ now / 1000000000 := Int.ediv_nonneg hnow (by decide)
  have hcast : (now / 1000000000).bmod (2 ^ 64) = now / 1000000000 := by
    apply Int.bmod_eq_of_le <;> omega
  rw [unixMinuteFloor, if_neg (Int.not_lt.mpr hnow), hcast, Int.tdiv_eq_ediv_of_nonneg hseconds]

/-- The window spans the slots of the filter, and one more unless it opens with a minute. -/
theorem minute_in_window {now : Int} {desktop : Int} (hnow : 0 ≤ now)
    (hclock : now ≤ lastEpochSecond) (hopen : (now - 60) * 1000000000 ≤ desktop)
    (hclosed : desktop < (now + 300) * 1000000000) :
    ∃ offset, unixMinuteFloor desktop = now / 60 + offset ∧
      (offset ∈ pairSlots ∨ offset = 5 ∧ now % 60 ≠ 0) := by
  have hslots : ∀ offset : Int, -1 ≤ offset → offset ≤ 4 → offset ∈ pairSlots := by
    intro offset hlow hhigh
    simp only [pairSlots, List.mem_cons, List.not_mem_nil, or_false]
    omega
  unfold lastEpochSecond at hclock
  by_cases hepoch : desktop < 0
  · -- before the epoch the desktop stays in minute 0
    refine ⟨0, ?_, .inl (hslots 0 (by decide) (by decide))⟩
    rw [unixMinuteFloor, if_pos hepoch]
    change (0 : Int) = now / 60 + 0
    omega
  · rw [unixMinuteFloor_eq (by omega) (by omega)]
    refine ⟨desktop / 1000000000 / 60 - now / 60, by omega, ?_⟩
    by_cases hlast : desktop / 1000000000 / 60 - now / 60 = 5
    · exact .inr ⟨hlast, by omega⟩
    · exact .inl (hslots _ (by omega) (by omega))

/-- The filter covers the window exactly when the window opens with a minute; otherwise the
sixth minute is missing, unless its identifier happens to be that of another slot. -/
theorem pairFilter_covers_iff {prim : Primitives} (hexpands : prim.Expands) {now : Int64}
    (hnow : 0 ≤ now.toInt) (hclock : now.toInt ≤ lastEpochSecond) :
    CoversPairWindow prim now ↔ now.toInt % 60 = 0 ∨
      ∃ offset ∈ pairSlots, pairDiscoveryUuid prim (now.toInt / 60 + 5) =
        pairDiscoveryUuid prim (now.toInt / 60 + offset) := by
  have hmem : ∀ uuid : Uuid, uuidValue uuid ∈ (pairSlots.map fun offset =>
      pairUuidFromBytes (pairDiscoveryUuid prim (now.toInt / 60 + offset)).val).map
        JavaUuid.value ↔
      ∃ offset ∈ pairSlots, uuid = pairDiscoveryUuid prim (now.toInt / 60 + offset) := by
    intro uuid
    simp only [List.map_map, List.mem_map, Function.comp, value_pairUuidFromBytes]
    constructor
    · intro hvalue
      obtain ⟨offset, hoffset, hsame⟩ := hvalue
      exact ⟨offset, hoffset, (uuidValue_injective hsame).symm⟩
    · intro hsame
      obtain ⟨offset, hoffset, rfl⟩ := hsame
      exact ⟨offset, hoffset, rfl⟩
  constructor
  · intro hcovers
    obtain ⟨uuids, huuids, hall⟩ := hcovers
    rw [pairModeUuidsFor_eq hexpands hnow] at huuids
    obtain rfl := Except.ok.inj huuids
    by_cases hphase : now.toInt % 60 = 0
    · exact .inl hphase
    · -- the desktop reaches the sixth minute before the window closes
      have hlast := hall ((now.toInt / 60 * 60 + 300) * 1000000000) (by omega) (by omega)
      unfold lastEpochSecond at hclock
      rw [unixMinuteFloor_eq (by omega) (by omega), hmem] at hlast
      obtain ⟨offset, hoffset, hsame⟩ := hlast
      refine .inr ⟨offset, hoffset, ?_⟩
      rw [← hsame]
      congr 1
      omega
  · intro hcondition
    refine ⟨_, pairModeUuidsFor_eq hexpands hnow, fun desktop hopen hclosed => ?_⟩
    obtain ⟨offset, hminute, hoffset⟩ := minute_in_window hnow hclock hopen hclosed
    rw [hminute, hmem]
    rcases hoffset with hslot | ⟨rfl, hphase⟩
    · exact ⟨offset, hslot, rfl⟩
    · rcases hcondition with hstart | hcollision
      · exact absurd hstart hphase
      · exact hcollision

theorem pairFilter_covers_iff_minute_start :
    CoversPairWindow KnownAnswer.sessionPrimitives 0 :=
  (pairFilter_covers_iff sessionPrimitives_expands (by decide) (by decide)).mpr (.inl (by decide))

/-- The window opens in second 1, and the desktop advertises minute 5 before it closes. -/
theorem pairFilter_misses_sixth_minute : ¬ CoversPairWindow KnownAnswer.sessionPrimitives 1 := by
  intro hcovers
  obtain ⟨uuids, huuids, hall⟩ := hcovers
  have hlast := hall 300000000000 (by decide) (by decide)
  rw [pairModeUuidsFor_eq sessionPrimitives_expands (by decide)] at huuids
  obtain rfl := Except.ok.inj huuids
  simp only [List.map_map, List.mem_map, Function.comp, value_pairUuidFromBytes] at hlast
  obtain ⟨offset, hoffset, hsame⟩ := hlast
  have hdistinct : ∀ offset ∈ pairSlots,
      pairDiscoveryUuid KnownAnswer.sessionPrimitives ((1 : Int64).toInt / 60 + offset) ≠
        pairDiscoveryUuid KnownAnswer.sessionPrimitives (unixMinuteFloor 300000000000) := by
    decide
  exact hdistinct offset hoffset (uuidValue_injective hsame)

end Syauth.Android
