import Syauth.Android.ScanFilters
import Syauth.Cli.PairFlow
import Syauth.Transition.System

/-! # The pairing window

`scan_peers`, `initiate_lesc_with_peer` and the agent of `BluerPairBackend` in
`crates/syauth-cli/src/pair_backend.rs`: one backend, on which the two calls are made in
any order and any number of times, and the clock, BlueZ and the phone in any order.  What
BlueZ answers stands in the labels.  A registration that is given up when the window closes
leaves no handle behind.
-/

namespace Syauth.Cli.PairWindow

open Android (pairDiscoveryUuid unixMinuteFloor)
open Presenced (SystemTime)

/-- `bluer::Error`: whether its kind is `NotFound`, and its text. -/
structure BluerError where
  notFound : Bool
  text : String
  deriving DecidableEq

def mapBluer (err : BluerError) : PairFlowError :=
  if err.notFound then .adapterMissing "<unknown>" else .backend err.text

/-- What the calls before the window answer, in their order. -/
structure Setup where
  session : Except BluerError Unit
  registerAgent : Except BluerError Unit
  adapter : Except BluerError Unit
  setPowered : Except BluerError Unit
  setDiscoverable : Except BluerError Unit
  setPairable : Except BluerError Unit
  serveGattApplication : Except BluerError Unit
  advertise : Except BluerError Unit

def advertiseLocalName : String := "syauth"
def pairPubkeyLen : Nat := 32
def pairConnectedPeerName : String := "phone (LESC peer)"
def pairConnectedPeerAddress : String := "(advertised)"

def connectedPeer : PairCandidate := ⟨pairConnectedPeerName, pairConnectedPeerAddress⟩

/-- The host: its primitives, its public key and the adapter of the backend. -/
structure Host where
  prim : Primitives
  hostPubkey : Pubkey
  adapterId : String

def Host.setup (host : Host) (answers : Setup) : Except PairFlowError Unit := do
  answers.session.mapError mapBluer
  answers.registerAgent.mapError mapBluer
  answers.adapter.mapError fun err =>
    if err.notFound then .adapterMissing host.adapterId else .backend err.text
  answers.setPowered.mapError fun err => .backend err.text
  answers.setDiscoverable.mapError fun err => .backend err.text
  answers.setPairable.mapError fun err => .backend err.text
  answers.serveGattApplication.mapError fun err =>
    .backend ("serve_gatt_application: " ++ err.text)
  answers.advertise.mapError fun err => .backend ("advertise: " ++ err.text)

structure Advertisement where
  serviceUuids : List Uuid
  discoverable : Option Bool
  localName : Option String
  deriving DecidableEq

def Host.buildAdvertisement (host : Host) (minute : Int) : Advertisement where
  serviceUuids := [pairDiscoveryUuid host.prim minute]
  discoverable := some true
  localName := some advertiseLocalName

/-- Where the loop of the window stands: in `select!`, in the read of an accepted write, or
in the registration of the advertisement of another minute. -/
inductive Await where
  | select
  | read
  | advertise (newMinute : Int)
  deriving DecidableEq

/-- The variables of the loop. -/
structure Window where
  currentAdv : Advertisement
  currentMinute : Int
  await : Await
  deriving DecidableEq

/-- A call of `scan_peers` that has not returned. -/
inductive Scan where
  | starting
  | open (window : Window)
  deriving DecidableEq

/-- The fields of the backend, the call that is in progress and what the calls returned. -/
structure Backend where
  phonePubkeyMailbox : Option Pubkey
  passkeySeen : Option UInt32
  advHandle : Option Advertisement
  scan : Option Scan
  returned : List (Except PairFlowError (List PairCandidate))

def Backend.new : Backend := ⟨none, none, none, none, []⟩

/-- `scan_peers` returns before the window. -/
def Backend.refuse (backend : Backend) (err : PairFlowError) : Backend :=
  { backend with scan := none, returned := backend.returned ++ [.error err] }

/-- The window closes; the handle it leaves, if any, takes the place of the one held. -/
def Backend.close (backend : Backend) (handle : Option Advertisement)
    (result : Except PairFlowError (List PairCandidate)) : Backend :=
  { backend with
    scan := none, advHandle := handle, returned := backend.returned ++ [result] }

def Backend.resume (backend : Backend) (window : Window) : Backend :=
  { backend with scan := some (.open window) }

def Host.openWindow (host : Host) (now : SystemTime) : Window :=
  ⟨host.buildAdvertisement (unixMinuteFloor now), unixMinuteFloor now, .select⟩

theorem pairPubkeyLen_eq : pairPubkeyLen = pubkeyLen := rfl

/-- The read fills a buffer of `PAIR_PUBKEY_LEN` octets once. -/
def readPubkey (read : Except String Bytes) : Except PairFlowError Pubkey :=
  match read with
  | .error err => .error (.backend ("phone-pubkey read: " ++ err))
  | .ok sent =>
      let bytes := sent.take pairPubkeyLen
      if hlen : bytes.length = pairPubkeyLen then .ok ⟨bytes, hlen.trans pairPubkeyLen_eq⟩
      else .error (.backend s!"phone-pubkey: expected {pairPubkeyLen} bytes, got {bytes.length}")

inductive Event where
  | scanPeers
  | setup (answers : Setup) (now : SystemTime)
  /-- The tick of the interval, at which the clock is read. -/
  | tick (now : SystemTime)
  | advertised (result : Except BluerError Unit)
  | write (accept : Except String Unit)
  /-- What the phone has sent through the writer when the read is served. -/
  | read (sent : Except String Bytes)
  | otherControl
  | controlEnds
  | elapsed
  /-- BlueZ asks the agent, which is registered for as long as the call lasts. -/
  | requestConfirmation (passkey : UInt32)
  | initiateLesc

variable (host : Host)

/-- `initiate_lesc_with_peer`. -/
def Host.initiateLesc (backend : Backend) : Except PairFlowError LescOutcome × Backend :=
  match backend.phonePubkeyMailbox with
  | none => (.error .noPeers, backend)
  | some phonePubkey =>
      (.ok ⟨phonePubkey, bondKeyFromPubkeys host.prim host.hostPubkey phonePubkey,
        backend.passkeySeen.getD numericCodeNotObserved⟩,
        { backend with phonePubkeyMailbox := none, passkeySeen := none })

/-- One turn of the loop, or of what it awaits. -/
def Host.windowStep (backend : Backend) (window : Window) : Event → Option Backend
  | .tick now =>
      if window.await = .select then
        if unixMinuteFloor now = window.currentMinute then some (backend.resume window)
        else some (backend.resume { window with await := .advertise (unixMinuteFloor now) })
      else none
  | .advertised result =>
      match window.await, result with
      -- the handle of the minute before is dropped only now
      | .advertise minute, .ok () =>
          some (backend.resume ⟨host.buildAdvertisement minute, minute, .select⟩)
      | .advertise _, .error _ => some (backend.resume { window with await := .select })
      | _, _ => none
  | .write accept =>
      if window.await = .select then
        match accept with
        | .ok () => some (backend.resume { window with await := .read })
        | .error err =>
            some (backend.close none (.error (.backend ("phone-pubkey write.accept: " ++ err))))
      else none
  | .read sent =>
      if window.await = .read then
        match readPubkey sent with
        | .ok phonePubkey =>
            some ({ backend with phonePubkeyMailbox := some phonePubkey }.close
              (some window.currentAdv) (.ok [connectedPeer]))
        | .error err => some (backend.close none (.error err))
      else none
  | .otherControl => if window.await = .select then some (backend.resume window) else none
  | .controlEnds =>
      if window.await = .select then some (backend.close none (.error .noPeers)) else none
  | .elapsed => some (backend.close none (.error .noPeers))
  | _ => none

def Host.step (backend : Backend) : Event → Option Backend
  | .requestConfirmation passkey =>
      if backend.scan.isSome then some { backend with passkeySeen := some passkey } else none
  | event =>
      match backend.scan, event with
      | none, .scanPeers => some { backend with scan := some .starting }
      | none, .initiateLesc => some (host.initiateLesc backend).2
      | some .starting, .setup answers now =>
          match host.setup answers with
          | .ok () => some (backend.resume (host.openWindow now))
          | .error err => some (backend.refuse err)
      | some (.open window), event => host.windowStep backend window event
      | _, _ => none

/-- The calls on a new backend, and everything that happens meanwhile. -/
def Host.system : Transition.System Backend Event where
  start backend := backend = .new
  step := host.step

/-! ## What a step does -/

inductive Step (backend : Backend) : Event → Backend → Prop where
  | called (hidle : backend.scan = none) :
      Step backend .scanPeers { backend with scan := some .starting }
  | opened {answers now} (hstarting : backend.scan = some .starting)
      (hready : host.setup answers = .ok ()) :
      Step backend (.setup answers now) (backend.resume (host.openWindow now))
  | refused {answers now err} (hstarting : backend.scan = some .starting)
      (hfails : host.setup answers = .error err) :
      Step backend (.setup answers now) (backend.refuse err)
  | sameMinute {window now} (hopen : backend.scan = some (.open window))
      (hselect : window.await = .select) (hsame : unixMinuteFloor now = window.currentMinute) :
      Step backend (.tick now) (backend.resume window)
  | newMinute {window now} (hopen : backend.scan = some (.open window))
      (hselect : window.await = .select) (hnew : unixMinuteFloor now ≠ window.currentMinute) :
      Step backend (.tick now)
        (backend.resume { window with await := .advertise (unixMinuteFloor now) })
  | rotated {window minute} (hopen : backend.scan = some (.open window))
      (hrotates : window.await = .advertise minute) :
      Step backend (.advertised (.ok ()))
        (backend.resume ⟨host.buildAdvertisement minute, minute, .select⟩)
  | notRotated {window minute err} (hopen : backend.scan = some (.open window))
      (hrotates : window.await = .advertise minute) :
      Step backend (.advertised (.error err)) (backend.resume { window with await := .select })
  | accepted {window} (hopen : backend.scan = some (.open window))
      (hselect : window.await = .select) :
      Step backend (.write (.ok ())) (backend.resume { window with await := .read })
  | notAccepted {window err} (hopen : backend.scan = some (.open window))
      (hselect : window.await = .select) :
      Step backend (.write (.error err))
        (backend.close none (.error (.backend ("phone-pubkey write.accept: " ++ err))))
  | delivered {window sent phonePubkey} (hopen : backend.scan = some (.open window))
      (hreads : window.await = .read) (hread : readPubkey sent = .ok phonePubkey) :
      Step backend (.read sent) ({ backend with phonePubkeyMailbox := some phonePubkey }.close
        (some window.currentAdv) (.ok [connectedPeer]))
  | notDelivered {window sent err} (hopen : backend.scan = some (.open window))
      (hreads : window.await = .read) (hread : readPubkey sent = .error err) :
      Step backend (.read sent) (backend.close none (.error err))
  | ignored {window} (hopen : backend.scan = some (.open window))
      (hselect : window.await = .select) : Step backend .otherControl (backend.resume window)
  | ended {window} (hopen : backend.scan = some (.open window))
      (hselect : window.await = .select) :
      Step backend .controlEnds (backend.close none (.error .noPeers))
  | elapsed {window} (hopen : backend.scan = some (.open window)) :
      Step backend .elapsed (backend.close none (.error .noPeers))
  | asked {passkey} (hcalled : backend.scan.isSome) :
      Step backend (.requestConfirmation passkey) { backend with passkeySeen := some passkey }
  | initiated (hidle : backend.scan = none) :
      Step backend .initiateLesc (host.initiateLesc backend).2

theorem windowStep_sound {backend next : Backend} {window : Window} {event : Event}
    (hopen : backend.scan = some (.open window))
    (hstep : host.windowStep backend window event = some next) : Step host backend event next := by
  unfold Host.windowStep at hstep
  split at hstep
  next now =>
    split at hstep
    next hselect =>
      split at hstep
      next hsame => exact Option.some.inj hstep ▸ .sameMinute hopen hselect hsame
      next hnew => exact Option.some.inj hstep ▸ .newMinute hopen hselect hnew
    next => cases hstep
  next result =>
    split at hstep
    next hrotates => exact Option.some.inj hstep ▸ .rotated hopen hrotates
    next hrotates => exact Option.some.inj hstep ▸ .notRotated hopen hrotates
    next => cases hstep
  next accept =>
    split at hstep
    next hselect =>
      split at hstep
      next => exact Option.some.inj hstep ▸ .accepted hopen hselect
      next => exact Option.some.inj hstep ▸ .notAccepted hopen hselect
    next => cases hstep
  next sent =>
    split at hstep
    next hreads =>
      split at hstep
      next hread => exact Option.some.inj hstep ▸ .delivered hopen hreads hread
      next hread => exact Option.some.inj hstep ▸ .notDelivered hopen hreads hread
    next => cases hstep
  next =>
    split at hstep
    next hselect => exact Option.some.inj hstep ▸ .ignored hopen hselect
    next => cases hstep
  next =>
    split at hstep
    next hselect => exact Option.some.inj hstep ▸ .ended hopen hselect
    next => cases hstep
  next => exact Option.some.inj hstep ▸ .elapsed hopen
  next => cases hstep

theorem step_sound {backend next : Backend} {event : Event}
    (hstep : host.step backend event = some next) : Step host backend event next := by
  unfold Host.step at hstep
  split at hstep
  next passkey =>
    split at hstep
    next hcalled => exact Option.some.inj hstep ▸ .asked hcalled
    next => cases hstep
  next =>
    split at hstep
    next hidle _ => exact Option.some.inj hstep ▸ .called hidle
    next hidle _ => exact Option.some.inj hstep ▸ .initiated hidle
    next hstarting _ =>
      split at hstep
      next hready => exact Option.some.inj hstep ▸ .opened hstarting hready
      next hfails => exact Option.some.inj hstep ▸ .refused hstarting hfails
    next hopen _ => exact windowStep_sound host hopen hstep
    next => cases hstep

theorem scan_initiateLesc (backend : Backend) :
    (host.initiateLesc backend).2.scan = backend.scan := by
  unfold Host.initiateLesc
  split
  · rfl
  · rfl

/-! ## The advertisement -/

def clockReading : Event → Option SystemTime
  | .setup _ now | .tick now => some now
  | _ => none

/-- The clock was read last at `now`, before the labels `after`. -/
def LastReading (past : List Event) (now : SystemTime) (after : List Event) : Prop :=
  ∃ before event, past = before ++ event :: after ∧ clockReading event = some now ∧
    ∀ later ∈ after, clockReading later = none

theorem lastReading_of_reading {past : List Event} {event : Event} {now : SystemTime}
    (hreading : clockReading event = some now) : LastReading (past ++ [event]) now [] :=
  ⟨past, event, rfl, hreading, fun _ hmem => (nomatch hmem)⟩

theorem LastReading.snoc {past after : List Event} {now : SystemTime} {event : Event}
    (hlast : LastReading past now after) (hsilent : clockReading event = none) :
    LastReading (past ++ [event]) now (after ++ [event]) := by
  obtain ⟨before, reading, rfl, hreading, hafter⟩ := hlast
  refine ⟨before, reading, ?_, hreading, fun later hmem => ?_⟩
  · rw [List.append_assoc, List.cons_append]
  · rcases List.mem_append.mp hmem with hold | hnew
    · exact hafter later hold
    · rwa [List.mem_singleton.mp hnew]

/-- What the last reading has come to: its minute is advertised, being registered, or its
registration has failed. -/
def Window.Follows (window : Window) (now : SystemTime) (after : List Event) : Prop :=
  match window.await with
  | .advertise minute => minute = unixMinuteFloor now
  | _ => window.currentMinute = unixMinuteFloor now ∨ ∃ err, .advertised (.error err) ∈ after

/-- The advertisement of an open window. -/
structure Advertises (past : List Event) (window : Window) : Prop where
  adv : window.currentAdv = host.buildAdvertisement window.currentMinute
  shown : ∃ event ∈ past, ∃ now,
    clockReading event = some now ∧ window.currentMinute = unixMinuteFloor now
  latest : ∃ now after, LastReading past now after ∧ window.Follows now after

variable {host}

theorem Window.Follows.snoc {window : Window} {now : SystemTime} {after : List Event}
    (hfollows : window.Follows now after) (event : Event) :
    window.Follows now (after ++ [event]) := by
  have hkept : (window.currentMinute = unixMinuteFloor now ∨
      ∃ err, Event.advertised (.error err) ∈ after) →
      (window.currentMinute = unixMinuteFloor now ∨
        ∃ err, Event.advertised (.error err) ∈ after ++ [event]) :=
    Or.imp_right fun ⟨err, hmem⟩ => ⟨err, List.mem_append_left _ hmem⟩
  unfold Window.Follows at hfollows ⊢
  cases hawait : window.await with
  | advertise minute =>
      rw [hawait] at hfollows
      exact hfollows
  | select | read =>
      rw [hawait] at hfollows
      exact hkept hfollows

theorem Advertises.snoc {past : List Event} {window : Window} {event : Event}
    (hadvertises : Advertises host past window) (hsilent : clockReading event = none) :
    Advertises host (past ++ [event]) window where
  adv := hadvertises.adv
  shown := by
    obtain ⟨reading, hmem, hshown⟩ := hadvertises.shown
    exact ⟨reading, List.mem_append_left _ hmem, hshown⟩
  latest := by
    obtain ⟨now, after, hlast, hfollows⟩ := hadvertises.latest
    exact ⟨now, after ++ [event], hlast.snoc hsilent, hfollows.snoc event⟩

/-- A step that leaves the advertisement and says itself how it follows the last reading. -/
theorem Advertises.awaits {past : List Event} {window : Window} {event : Event} (await : Await)
    (hadvertises : Advertises host past window)
    (hlatest : ∃ now after, LastReading (past ++ [event]) now after ∧
      ({ window with await := await } : Window).Follows now after) :
    Advertises host (past ++ [event]) { window with await := await } where
  adv := hadvertises.adv
  shown := by
    obtain ⟨reading, hmem, hshown⟩ := hadvertises.shown
    exact ⟨reading, List.mem_append_left _ hmem, hshown⟩
  latest := hlatest

/-- Of the window that a backend may have open. -/
def Advertising (host : Host) (past : List Event) (backend : Backend) : Prop :=
  ∀ window, backend.scan = some (.open window) → Advertises host past window

theorem advertising_resume {past : List Event} {backend : Backend} {window : Window}
    (hadvertises : Advertises host past window) :
    Advertising host past (backend.resume window) := by
  intro other hopen
  obtain rfl : window = other := Scan.open.inj (Option.some.inj hopen)
  exact hadvertises

theorem advertising_of_no_window {past : List Event} {backend : Backend}
    (hclosed : ∀ window, backend.scan ≠ some (.open window)) : Advertising host past backend :=
  fun window hopen => absurd hopen (hclosed window)

theorem Advertising.step {past : List Event} {backend next : Backend} {event : Event}
    (hadvertising : Advertising host past backend)
    (hstep : host.system.step backend event = some next) :
    Advertising host (past ++ [event]) next := by
  have hsound := step_sound host hstep
  cases hsound with
  | called | refused | notAccepted | delivered | notDelivered | ended | elapsed =>
      exact advertising_of_no_window fun _ hopen => nomatch hopen
  | initiated hidle =>
      refine advertising_of_no_window fun window hopen => ?_
      rw [scan_initiateLesc, hidle] at hopen
      cases hopen
  | @opened answers now hstarting hready =>
      have hmem : Event.setup answers now ∈ past ++ [.setup answers now] :=
        List.mem_append_right _ List.mem_cons_self
      exact advertising_resume
        ⟨rfl, ⟨_, hmem, now, rfl, rfl⟩, now, [], lastReading_of_reading rfl, .inl rfl⟩
  | @sameMinute window now hopen hselect hsame =>
      refine advertising_resume ((hadvertising window hopen).awaits window.await ?_)
      refine ⟨now, [], lastReading_of_reading rfl, ?_⟩
      rw [Window.Follows, hselect]
      exact .inl hsame.symm
  | @newMinute window now hopen hselect hnew =>
      exact advertising_resume ((hadvertising window hopen).awaits _
        ⟨now, [], lastReading_of_reading rfl, rfl⟩)
  | @rotated window minute hopen hrotates =>
      obtain ⟨now, after, hlast, hfollows⟩ := (hadvertising window hopen).latest
      have hminute : minute = unixMinuteFloor now := by
        rw [Window.Follows, hrotates] at hfollows
        exact hfollows
      obtain ⟨before, reading, hpast, hreading, -⟩ := id hlast
      have hmem : reading ∈ past ++ [.advertised (.ok ())] := by
        rw [hpast]
        exact List.mem_append_left _ (List.mem_append_right _ List.mem_cons_self)
      exact advertising_resume
        ⟨rfl, ⟨reading, hmem, now, hreading, hminute⟩, now, _, hlast.snoc rfl, .inl hminute⟩
  | @notRotated window minute err hopen hrotates =>
      obtain ⟨now, after, hlast, -⟩ := (hadvertising window hopen).latest
      have hmem : Event.advertised (.error err) ∈ after ++ [.advertised (.error err)] :=
        List.mem_append_right _ List.mem_cons_self
      exact advertising_resume ((hadvertising window hopen).awaits _
        ⟨now, _, hlast.snoc rfl, .inr ⟨err, hmem⟩⟩)
  | @accepted window hopen hselect =>
      obtain ⟨now, after, hlast, hfollows⟩ := (hadvertising window hopen).latest
      have hkept := hfollows.snoc (.write (.ok ()))
      rw [Window.Follows, hselect] at hkept
      exact advertising_resume ((hadvertising window hopen).awaits _
        ⟨now, _, hlast.snoc rfl, hkept⟩)
  | ignored hopen hselect => exact advertising_resume ((hadvertising _ hopen).snoc rfl)
  | asked hcalled => exact fun window hopen => (hadvertising window hopen).snoc rfl

/-- The filter computed at `phone` names the identifiers of the minute before, of its own
minute and of the four that follow. -/
theorem pairFilter_names (hexpands : host.prim.Expands) {phone : Int64} {now : Int}
    (hphone : 0 ≤ phone.toInt) (hclock : phone.toInt ≤ Android.lastEpochSecond)
    (hearly : (phone.toInt - 60) * 1000000000 ≤ now)
    (hlate : now < (phone.toInt / 60 * 60 + 300) * 1000000000) :
    ∃ uuids, Android.pairModeUuidsFor phone (Android.sessionUuidLookup host.prim) = .ok uuids ∧
      Android.uuidValue (pairDiscoveryUuid host.prim (unixMinuteFloor now)) ∈
        uuids.map Android.JavaUuid.value := by
  obtain ⟨offset, hminute, hslot⟩ :=
    Android.minute_in_window hphone hclock hearly (by omega)
  have hmem : offset ∈ Android.pairSlots := by
    refine hslot.resolve_right ?_
    rintro ⟨rfl, -⟩
    -- the sixth minute begins where the bound ends
    unfold Android.lastEpochSecond at hclock
    by_cases hepoch : now < 0
    · rw [Android.unixMinuteFloor, if_pos hepoch, Int.zero_tdiv] at hminute
      omega
    · rw [Android.unixMinuteFloor_eq (by omega) (by omega)] at hminute
      omega
  refine ⟨_, Android.pairModeUuidsFor_eq hexpands hphone, ?_⟩
  rw [hminute, ← Android.value_pairUuidFromBytes]
  exact List.mem_map_of_mem (List.mem_map_of_mem hmem)

/-- While the window waits the phone finds the desktop: the one advertisement of the loop is
always that of a reading of the clock, and that of the last reading unless its registration
has failed; a phone whose filter is a minute to four minutes old then names it. -/
theorem phone_finds_window {final : Backend} {window : Window} {events : List Event}
    (hexpands : host.prim.Expands) (hrun : host.system.run .new events = some final)
    (hopen : final.scan = some (.open window)) :
    (∃ event ∈ events, ∃ shown, clockReading event = some shown ∧
      window.currentAdv = host.buildAdvertisement (unixMinuteFloor shown)) ∧
    ∃ (now : Int) (after : List Event), LastReading events now after ∧
      ((∃ err, .advertised (.error err) ∈ after) ∨
        window.await = .advertise (unixMinuteFloor now) ∨
        window.currentAdv = host.buildAdvertisement (unixMinuteFloor now) ∧
        ∀ phone : Int64, 0 ≤ phone.toInt → phone.toInt ≤ Android.lastEpochSecond →
          (phone.toInt - 60) * 1000000000 ≤ now →
          now < (phone.toInt / 60 * 60 + 300) * 1000000000 →
          ∃ uuids, Android.pairModeUuidsFor phone (Android.sessionUuidLookup host.prim) =
              .ok uuids ∧
            ∀ uuid ∈ window.currentAdv.serviceUuids,
              Android.uuidValue uuid ∈ uuids.map Android.JavaUuid.value) := by
  have hstart : Advertising host [] .new := advertising_of_no_window fun _ hopen => nomatch hopen
  have hinv := host.system.run_events_invariant (Advertising host)
    (fun _ _ _ _ hadvertising => hadvertising.step) hstart hrun
  obtain ⟨hadv, ⟨event, hmem, shown, hreading, hshown⟩, now, after, hlast, hfollows⟩ :=
    hinv window hopen
  refine ⟨⟨event, hmem, shown, hreading, hshown ▸ hadv⟩, now, after, hlast, ?_⟩
  unfold Window.Follows at hfollows
  cases hawait : window.await with
  | advertise minute =>
      rw [hawait] at hfollows
      exact .inr (.inl (congrArg Await.advertise hfollows))
  | select | read =>
      rw [hawait] at hfollows
      refine hfollows.symm.imp_right fun hminute => .inr ?_
      rw [hminute] at hadv
      refine ⟨hadv, fun phone hphone hclock hearly hlate => ?_⟩
      obtain ⟨uuids, hfilter, hnamed⟩ := pairFilter_names hexpands hphone hclock hearly hlate
      refine ⟨uuids, hfilter, fun uuid hmem => ?_⟩
      rw [hadv] at hmem
      rwa [List.mem_singleton.mp hmem]

/-- A host that knows the identifiers of the first minutes. -/
def KnownAnswer.pairHost : Host := ⟨KnownAnswer.sessionPrimitives, KnownAnswer.pubkey, "hci0"⟩

def Setup.ready : Setup where
  session := .ok ()
  registerAgent := .ok ()
  adapter := .ok ()
  setPowered := .ok ()
  setDiscoverable := .ok ()
  setPairable := .ok ()
  serveGattApplication := .ok ()
  advertise := .ok ()

/-- The window opens in the last second of a minute and rotates with the first tick. -/
def rotatingWindow : List Event :=
  [.scanPeers, .setup .ready 59999999999, .tick 60000000000, .advertised (.ok ())]

theorem phone_finds_window_rotating :
    ∃ final window, KnownAnswer.pairHost.system.run .new rotatingWindow = some final ∧
      final.scan = some (.open window) ∧
      ∃ event ∈ rotatingWindow, ∃ shown, clockReading event = some shown ∧
        window.currentAdv = KnownAnswer.pairHost.buildAdvertisement (unixMinuteFloor shown) :=
  ⟨_, _, rfl, rfl, (phone_finds_window Android.sessionPrimitives_expands rfl rfl).1⟩

end Syauth.Cli.PairWindow
