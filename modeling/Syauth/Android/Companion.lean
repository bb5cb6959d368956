import Syauth.Android.Unlock
import Syauth.Transition.Mailbox

/-! # The companion service in the life of the app

`resurrectIfDead` of `bg/Resurrection.kt`, which the boot receiver, the watchdog and the
proximity hook call, and the starts of `SyauthCompanionService` by `MainActivity`, around the
phone of `Syauth.Android.Unlock`.  The service is sticky: a start that was asked for is still
open after the process has died.
-/

namespace Syauth.Android

open Transition

structure Device where
  phone : Phone
  /-- `SyauthCompanionService.isRunning`, which is set while there is an instance. -/
  isRunning : Bool
  startRequested : Bool

inductive DeviceEvent where
  | phone (event : PhoneEvent)
  /-- The boot receiver, the watchdog or the proximity hook. -/
  | resurrect
  deriving DecidableEq

namespace Device

variable (device : Device)

def resurrectIfDead : Device :=
  if device.isRunning then device
  else
    match device.phone.disk with
    | none => device
    | some _ => { device with startRequested := true }

/-- What becomes of the service in an event of the phone. -/
def withPhone (phone : Phone) : PhoneEvent → Device
  | .createService _ => ⟨phone, true, device.startRequested⟩
  | .destroyService => ⟨phone, false, false⟩
  | .processDeath => ⟨phone, false, device.startRequested⟩
  -- the activity starts the service where there is a bond
  | .openApp _ | .pairingCompleted _ =>
      ⟨phone, device.isRunning, device.startRequested || device.phone.disk.isSome⟩
  | _ => { device with phone }

/-- The system creates one instance of a service that was started, and destroys that one. -/
def allows : PhoneEvent → Bool
  | .createService _ => device.startRequested && !device.isRunning
  | .destroyService => device.isRunning
  | _ => true

def step : DeviceEvent → Option Device
  | .phone event =>
      if device.allows event then
        (device.phone.step event).map fun phone => device.withPhone phone event
      else none
  | .resurrect => some device.resurrectIfDead

/-- A phone that was just switched on. -/
def Idle : Prop :=
  device.phone.Idle ∧ device.isRunning = false ∧ device.startRequested = false

end Device

def companion : System Device DeviceEvent where
  start := Device.Idle
  step := Device.step

variable {device next final : Device}

inductive Device.Step (device : Device) : DeviceEvent → Device → Prop where
  | phone {event phone} (hallows : device.allows event = true)
      (hphone : device.phone.step event = some phone) :
      Step device (.phone event) (device.withPhone phone event)
  | resurrect : Step device .resurrect device.resurrectIfDead

theorem Device.step_sound {event : DeviceEvent} (hstep : companion.step device event = some next) :
    device.Step event next := by
  cases event with
  | phone event =>
      change (if device.allows event then _ else _) = some next at hstep
      split at hstep
      next hallows =>
        obtain ⟨phone, hphone, rfl⟩ := Option.map_eq_some_iff.mp hstep
        exact .phone hallows hphone
      next => cases hstep
  | resurrect => exact Option.some.inj hstep ▸ .resurrect

theorem Device.phone_withPhone (device : Device) (phone : Phone) (event : PhoneEvent) :
    (device.withPhone phone event).phone = phone := by
  cases event <;> rfl

theorem Device.phone_resurrectIfDead (device : Device) :
    device.resurrectIfDead.phone = device.phone := by
  unfold Device.resurrectIfDead
  split
  · rfl
  · split <;> rfl

theorem Device.isRunning_resurrectIfDead (device : Device) :
    device.resurrectIfDead.isRunning = device.isRunning := by
  unfold Device.resurrectIfDead
  split
  · rfl
  · split <;> rfl

/-! ## The client of the service -/

/-- The client that a creation of the service makes, if it makes one. -/
def Phone.clientAtCreation (phone : Phone) (adapter : Bool) : Option GattClient :=
  ((phone.ensureDefaults adapter).seams.gattClientFactory).bind fun path =>
    (phone.seams.bondListProvider.or phone.disk).map fun bond => ⟨path, bond.peerId⟩

theorem Phone.client_createService (phone : Phone) (adapter : Bool) :
    (phone.ensureDefaults adapter).injectClientsForBonds.client =
      (phone.clientAtCreation adapter).or phone.client := by
  unfold Phone.clientAtCreation Phone.injectClientsForBonds
  cases hfactory : (phone.ensureDefaults adapter).seams.gattClientFactory with
  | none => rfl
  | some path =>
      change (match phone.seams.bondListProvider.or phone.disk with
        | none => phone.ensureDefaults adapter
        | some bond => { phone.ensureDefaults adapter with client := some ⟨path, bond.peerId⟩ }
        ).client = _
      cases phone.seams.bondListProvider.or phone.disk with
      | none => rfl
      | some bond => rfl

theorem Phone.clientAtCreation_eq_some_iff {phone : Phone} {adapter : Bool} {peerId : String} :
    (∃ path, phone.clientAtCreation adapter = some ⟨path, peerId⟩) ↔
      (phone.seams.gattClientFactory.isSome = true ∨ adapter = true) ∧
        ∃ bond, phone.seams.bondListProvider.or phone.disk = some bond ∧ bond.peerId = peerId := by
  have hfactory : ((phone.ensureDefaults adapter).seams.gattClientFactory).isSome = true ↔
      phone.seams.gattClientFactory.isSome = true ∨ adapter = true := by
    cases hown : phone.seams.gattClientFactory with
    | none => cases adapter <;> simp [Phone.ensureDefaults, hown]
    | some path => simp [Phone.ensureDefaults, hown]
  rw [← hfactory, Option.isSome_iff_exists]
  unfold Phone.clientAtCreation
  simp only [Option.bind_eq_some_iff, Option.map_eq_some_iff, GattClient.mk.injEq]
  constructor
  · rintro ⟨_, path, hpath, bond, hbond, rfl, hpeer⟩
    exact ⟨⟨path, hpath⟩, bond, hbond, hpeer⟩
  · rintro ⟨⟨path, hpath⟩, bond, hbond, hpeer⟩
    exact ⟨path, path, hpath, bond, hbond, rfl, hpeer⟩

theorem Phone.seams_injectClientsForBonds (phone : Phone) :
    phone.injectClientsForBonds.seams = phone.seams := by
  unfold Phone.injectClientsForBonds
  split
  · rfl
  · split <;> rfl

theorem Phone.disk_injectClientsForBonds (phone : Phone) :
    phone.injectClientsForBonds.disk = phone.disk := by
  unfold Phone.injectClientsForBonds
  split
  · rfl
  · split <;> rfl

/-- What a phone knows of its bond, apart from the approvals. -/
def Phone.bondSide (phone : Phone) :
    Option BondRecord × Option BondRecord × Seams × Option GattClient :=
  (phone.disk, phone.shown, phone.seams, phone.client)

theorem Phone.bondSide_onCreate (phone : Phone) (intent : ApprovalIntent) :
    (phone.onCreate intent).bondSide = phone.bondSide := by
  unfold Phone.onCreate
  split
  · rfl
  · split
    · rfl
    · rfl

theorem Phone.bondSide_authenticate (phone : Phone) (activity : ApprovalActivity)
    (initSign : InitSign) : (phone.authenticate activity initSign).bondSide = phone.bondSide := by
  unfold Phone.authenticate
  dsimp only
  split
  · rfl
  · cases initSign with
    | ready | invalidated | failed => rfl

/-- The events of a challenge on its way to a signature. -/
def PhoneEvent.approves : PhoneEvent → Bool
  | .notified _ | .startActivity _ | .approveTapped _ | .cancelTapped | .leave | .biometric _ _ =>
      true
  | _ => false

theorem Phone.bondSide_of_approves {phone phone' : Phone} {event : PhoneEvent}
    (happroves : event.approves = true) (hstep : phone.step event = some phone') :
    phone'.bondSide = phone.bondSide := by
  have hcases := Phone.step_sound hstep
  cases hcases with
  | notified | cancelTapped | leave | biometric => rfl
  | startActivity => exact Phone.bondSide_onCreate ..
  | approveTapped => exact Phone.bondSide_authenticate ..
  | _ => cases happroves

/-- Neither the bond nor the service is touched. -/
def DeviceEvent.spares : DeviceEvent → Bool
  | .phone event => event.approves
  | .resurrect => true

theorem Device.bondSide_step {event : DeviceEvent}
    (hstep : companion.step device event = some next) :
    event.spares = true ∧ next.phone.bondSide = device.phone.bondSide ∨
      ∃ event' phone, event = .phone event' ∧ event'.approves = false ∧
        device.phone.step event' = some phone ∧ next.phone = phone := by
  have hcases := Device.step_sound hstep
  cases hcases with
  | resurrect => exact .inl ⟨rfl, congrArg Phone.bondSide device.phone_resurrectIfDead⟩
  | @phone event phone hallows hphone =>
      rw [device.phone_withPhone]
      cases happroves : event.approves with
      | true => exact .inl ⟨happroves, Phone.bondSide_of_approves happroves hphone⟩
      | false => exact .inr ⟨event, phone, rfl, happroves, hphone, rfl⟩

/-- The client goes with the service or with the process. -/
def DeviceEvent.ends : DeviceEvent → Bool
  | .phone .destroyService | .phone .processDeath => true
  | _ => false

def DeviceEvent.creates : DeviceEvent → Bool
  | .phone (.createService _) => true
  | _ => false

def DeviceEvent.clientCreated (device : Device) : DeviceEvent → Option GattClient
  | .phone (.createService adapter) => device.phone.clientAtCreation adapter
  | _ => none

/-- The record that the activity hands to the service, while the process lives. -/
def DeviceEvent.captured (device : Device) : DeviceEvent → Option BondRecord
  | .phone (.openApp true) | .phone (.pairingCompleted true) => device.phone.disk
  | _ => none

/-- What spares the bond and the service does none of these. -/
theorem DeviceEvent.idle_of_spares {event : DeviceEvent} (device : Device)
    (hspares : event.spares = true) :
    (event.creates = false ∧ event.ends = false) ∧ event.clientCreated device = none ∧
      event ≠ .phone .processDeath ∧ event.captured device = none := by
  unfold DeviceEvent.spares at hspares
  split at hspares
  next event =>
    cases event with
    | notified | startActivity | approveTapped | cancelTapped | leave | biometric =>
        exact ⟨⟨rfl, rfl⟩, rfl, (fun hevent => (nomatch hevent)), rfl⟩
    | _ => cases hspares
  next => exact ⟨⟨rfl, rfl⟩, rfl, (fun hevent => (nomatch hevent)), rfl⟩

theorem Device.isRunning_step {event : DeviceEvent}
    (hstep : companion.step device event = some next) :
    next.isRunning = (event.creates || !event.ends && device.isRunning) := by
  have hcases := Device.step_sound hstep
  cases hcases with
  | resurrect => exact device.isRunning_resurrectIfDead
  | @phone event phone hallows hphone => cases event <;> rfl

theorem Device.not_isRunning_of_creates {event : DeviceEvent}
    (hstep : companion.step device event = some next) (hcreates : event.creates = true) :
    device.isRunning = false := by
  have hcases := Device.step_sound hstep
  cases hcases with
  | resurrect => cases hcreates
  | @phone event phone hallows hphone =>
      cases event with
      | createService adapter =>
          exact (Bool.not_eq_true' _).mp (Bool.and_eq_true_iff.mp hallows).2
      | _ => cases hcreates

theorem DeviceEvent.creates_of_clientCreated {event : DeviceEvent} {client : GattClient}
    (hcreated : event.clientCreated device = some client) :
    ∃ adapter, event = .phone (.createService adapter) ∧
      device.phone.clientAtCreation adapter = some client := by
  unfold DeviceEvent.clientCreated at hcreated
  split at hcreated
  next adapter => exact ⟨adapter, rfl, hcreated⟩
  next => cases hcreated

theorem Device.client_step {event : DeviceEvent} (hstep : companion.step device event = some next) :
    next.phone.client =
      if event.ends then none else (event.clientCreated device).or device.phone.client := by
  rcases Device.bondSide_step hstep with ⟨hspares, hkept⟩ |
    ⟨event, phone, rfl, happroves, hphone, hnext⟩
  · obtain ⟨⟨-, hends⟩, hcreated, -⟩ := DeviceEvent.idle_of_spares device hspares
    rw [hends, hcreated]
    exact congrArg (fun side => side.2.2.2) hkept
  · rw [hnext]
    have hcases := Phone.step_sound hphone
    cases hcases with
    | createService => exact Phone.client_createService ..
    | openUnbonded | openBonded | pairingMissing | pairingCompleted | savePairing | revokeNothing
    | revoke | destroyService | processDeath => rfl
    | _ => cases happroves

/-- The client of the service as a slot that a creation fills. -/
def clientSlot : companion.Mailbox GattClient where
  slot device := device.phone.client
  puts device event := if event.ends then none else event.clientCreated device
  takes _ event := event.ends = true
  slot_of_puts {device event next client} hstep hput := by
    rw [Device.client_step hstep]
    split at hput
    next => cases hput
    next hends => rw [if_neg hends, hput]; rfl
  slot_of_takes hstep hends := by rw [Device.client_step hstep, if_pos hends]
  slot_of_keeps {device event next} hstep hput hends := by
    rw [if_neg hends] at hput
    rw [Device.client_step hstep, if_neg hends, hput]
    rfl

/-! ## The record of the activity -/

theorem Device.bondListProvider_step {event : DeviceEvent}
    (hstep : companion.step device event = some next) :
    next.phone.seams.bondListProvider =
      if event = .phone .processDeath then none
      else (event.captured device).or device.phone.seams.bondListProvider := by
  rcases Device.bondSide_step hstep with ⟨hspares, hkept⟩ |
    ⟨event, phone, rfl, happroves, hphone, hnext⟩
  · obtain ⟨-, -, hlives, hcaptured⟩ := DeviceEvent.idle_of_spares device hspares
    rw [if_neg hlives, hcaptured]
    exact congrArg (fun side => side.2.2.1.bondListProvider) hkept
  · rw [hnext]
    have hcases := Phone.step_sound hphone
    cases hcases with
    | createService =>
        rw [Phone.seams_injectClientsForBonds]
        rfl
    | @openUnbonded adapter hdisk | @pairingMissing adapter hdisk =>
        cases adapter with
        | true => simp [DeviceEvent.captured, hdisk]
        | false => rfl
    | @openBonded adapter record hdisk | @pairingCompleted adapter record hdisk =>
        cases adapter with
        | true => simp [DeviceEvent.captured, hdisk, Phone.installFromActivity]
        | false => rfl
    | savePairing | revokeNothing | revoke | destroyService | processDeath => rfl
    | _ => cases happroves

/-- The record that the activity handed over last, as a slot. -/
def recordSlot : companion.Mailbox BondRecord where
  slot device := device.phone.seams.bondListProvider
  puts device event := event.captured device
  takes _ event := event = .phone .processDeath
  slot_of_puts {device event next bond} hstep hput := by
    have hlives : event ≠ .phone .processDeath := by
      rintro rfl
      cases hput
    rw [Device.bondListProvider_step hstep, if_neg hlives, hput]
    rfl
  slot_of_takes hstep hdeath := by rw [Device.bondListProvider_step hstep, if_pos hdeath]
  slot_of_keeps hstep hput hlives := by
    rw [Device.bondListProvider_step hstep, if_neg hlives, hput]
    rfl

/-- The record for which a service that is created after these events makes its client. -/
def Device.ServesAfter (device : Device) (events : List DeviceEvent) (created : Device)
    (bond : BondRecord) : Prop :=
  recordSlot.LastPut device events bond ∨
    (∀ other, ¬ recordSlot.LastPut device events other) ∧ created.phone.disk = some bond

theorem Device.servesAfter_iff {created : Device} {events : List DeviceEvent} {bond : BondRecord}
    (hstart : companion.start device) (hrun : companion.run device events = some created) :
    device.ServesAfter events created bond ↔
      created.phone.seams.bondListProvider.or created.phone.disk = some bond := by
  have hempty : recordSlot.slot device = none := congrArg Seams.bondListProvider hstart.1.2.1
  have hlast (other : BondRecord) : created.phone.seams.bondListProvider = some other ↔
      recordSlot.LastPut device events other := recordSlot.slot_eq_some_iff hempty hrun
  have hnone : created.phone.seams.bondListProvider = none ↔
      ∀ other, ¬ recordSlot.LastPut device events other := by
    rw [Option.eq_none_iff_forall_ne_some]
    exact forall_congr' fun other => not_congr (hlast other)
  rw [Option.or_eq_some_iff, Device.ServesAfter, hnone]
  exact or_congr_left (hlast bond).symm

/-! ## Who the service is linked to -/

theorem clientSlot_keeps_of_isRunning {events : List DeviceEvent} (hup : device.isRunning = true)
    (hkept : ∀ event ∈ events, event.ends = false)
    (hrun : companion.run device events = some final) :
    companion.AllSteps clientSlot.Keeps device events := by
  induction events generalizing device with
  | nil => trivial
  | cons event events ih =>
      obtain ⟨next, hstep, hrest⟩ := companion.run_cons_eq_some.mp hrun
      have hnext := hkept event List.mem_cons_self
      refine (companion.allSteps_cons_of_step hstep events).mpr ⟨⟨?_, ?_⟩, ?_⟩
      · -- a running service is not created again
        change (if event.ends then none else event.clientCreated device) = none
        cases hcreated : event.clientCreated device with
        | none => exact ite_self none
        | some client =>
            obtain ⟨adapter, rfl, -⟩ := DeviceEvent.creates_of_clientCreated hcreated
            rw [Device.not_isRunning_of_creates hstep rfl] at hup
            cases hup
      · exact Bool.eq_false_iff.mp hnext
      · refine ih ?_ (fun other hmem => hkept other (List.mem_cons_of_mem event hmem)) hrest
        rw [Device.isRunning_step hstep, hnext, hup]
        exact Bool.or_true _

theorem linked_iff_served_at_creation {events : List DeviceEvent} (peerId : String)
    (hstart : companion.start device) (hrun : companion.run device events = some final) :
    (∃ path, final.phone.client = some ⟨path, peerId⟩) ↔
      ∃ before adapter after created bond,
        events = before ++ .phone (.createService adapter) :: after ∧
          companion.run device before = some created ∧ (∀ event ∈ after, event.ends = false) ∧
          (created.phone.seams.gattClientFactory.isSome = true ∨ adapter = true) ∧
          device.ServesAfter before created bond ∧ bond.peerId = peerId := by
  have hempty : clientSlot.slot device = none := hstart.1.2.2.1
  constructor
  · rintro ⟨path, hclient⟩
    obtain ⟨before, event, after, created, next, rfl, hreached, hstep, hput, hkept⟩ :=
      (clientSlot.slot_eq_some_iff hempty hrun).mp hclient
    have hcreated : event.clientCreated created = some ⟨path, peerId⟩ := by
      change (if event.ends then none else _) = _ at hput
      split at hput
      next => cases hput
      next => exact hput
    obtain ⟨adapter, rfl, hmade⟩ := DeviceEvent.creates_of_clientCreated hcreated
    obtain ⟨hfactory, bond, hbond, hpeer⟩ := Phone.clientAtCreation_eq_some_iff.mp ⟨path, hmade⟩
    refine ⟨before, adapter, after, created, bond, rfl, hreached, ?_, hfactory,
      (Device.servesAfter_iff hstart hreached).mpr hbond, hpeer⟩
    rw [companion.run_append, hreached, Option.bind_some, companion.run_cons, hstep,
      Option.bind_some] at hrun
    refine companion.forall_mem_of_allSteps (companion.allSteps_imp ?_ hkept) hrun
    exact fun _ event hkeeps => Bool.eq_false_iff.mpr hkeeps.2
  · rintro ⟨before, adapter, after, created, bond, rfl, hreached, hkept, hfactory, hserves, hpeer⟩
    have hbond := (Device.servesAfter_iff hstart hreached).mp hserves
    obtain ⟨path, hmade⟩ := Phone.clientAtCreation_eq_some_iff.mpr ⟨hfactory, bond, hbond, hpeer⟩
    refine ⟨path, (clientSlot.slot_eq_some_iff hempty hrun).mpr ?_⟩
    rw [companion.run_append, hreached, Option.bind_some] at hrun
    obtain ⟨next, hstep, hafter⟩ := companion.run_cons_eq_some.mp hrun
    have hup : next.isRunning = true := by
      rw [Device.isRunning_step hstep]
      rfl
    exact ⟨before, _, after, created, next, rfl, hreached, hstep, hmade,
      clientSlot_keeps_of_isRunning hup hkept hafter⟩

def laptopBond : BondRecord := ⟨"AA:BB:CC:DD:EE:FF", "laptop", [], "syauth", []⟩

def desktopBond : BondRecord :=
  { laptopBond with peerId := "11:22:33:44:55:66", hostName := "desktop" }

def emptyDevice : Device where
  phone := ⟨none, fun _ => false, none, .reset, none, [], none, [], 0⟩
  isRunning := false
  startRequested := false

/-- A second pairing while the service runs. -/
def pairedTwice : List DeviceEvent :=
  [.phone (.openApp true), .phone (.savePairing laptopBond), .phone (.pairingCompleted true),
    .phone (.createService true), .phone (.savePairing desktopBond),
    .phone (.pairingCompleted true), .resurrect]

/-- The service is still linked to the desktop of the first pairing. -/
theorem linked_iff_served_at_creation_twice :
    ∃ final, companion.run emptyDevice pairedTwice = some final ∧
      final.phone.disk = some desktopBond ∧
      ∃ before adapter after created bond,
        pairedTwice = before ++ .phone (.createService adapter) :: after ∧
          companion.run emptyDevice before = some created ∧
          (∀ event ∈ after, event.ends = false) ∧
          (created.phone.seams.gattClientFactory.isSome = true ∨ adapter = true) ∧
          emptyDevice.ServesAfter before created bond ∧ bond.peerId = laptopBond.peerId := by
  refine ⟨_, rfl, rfl, ?_⟩
  have hstart : companion.start emptyDevice := ⟨⟨rfl, rfl, rfl, rfl, rfl, rfl⟩, rfl, rfl⟩
  exact (@linked_iff_served_at_creation _ _ pairedTwice laptopBond.peerId hstart rfl).mp
    ⟨.foreground, rfl⟩

/-! ## The service after the death of the process -/

/-- The bond stays as it is, and the service is created with Bluetooth there. -/
def DeviceEvent.Undisturbed : DeviceEvent → Prop
  | .phone (.savePairing _) | .phone .revokeTapped | .phone (.createService false) => False
  | _ => True

/-- Everything that the service consults is of this bond. -/
structure Device.Restored (bond : BondRecord) (device : Device) : Prop where
  disk : device.phone.disk = some bond
  resolvers : ∀ source ∈ device.phone.seams.resolvers, source = .disk ∨ source = .captured bond
  provider : ∀ other ∈ device.phone.seams.bondListProvider, other = bond
  client : device.isRunning = true → ∃ path, device.phone.client = some ⟨path, bond.peerId⟩
  resolves : device.isRunning = true → device.phone.seams.resolvers.isSome = true

variable {bond : BondRecord}

theorem Device.Restored.resolved (hrestored : device.Restored bond)
    (hup : device.isRunning = true) : device.phone.resolved bond.peerId = some bond := by
  obtain ⟨source, hsource⟩ := Option.isSome_iff_exists.mp (hrestored.resolves hup)
  rw [Phone.resolved, hsource]
  rcases hrestored.resolvers source hsource with rfl | rfl
  · simp [hrestored.disk]
  · simp

theorem Device.Restored.of_bondSide (hrestored : device.Restored bond)
    (hside : next.phone.bondSide = device.phone.bondSide)
    (hup : next.isRunning = device.isRunning) : next.Restored bond := by
  obtain ⟨hdisk, -, hseams, hclient⟩ :
      next.phone.disk = device.phone.disk ∧ next.phone.shown = device.phone.shown ∧
        next.phone.seams = device.phone.seams ∧ next.phone.client = device.phone.client := by
    simpa only [Phone.bondSide, Prod.mk.injEq] using hside
  exact {
    disk := hdisk.trans hrestored.disk
    resolvers := hseams ▸ hrestored.resolvers
    provider := hseams ▸ hrestored.provider
    client := by rw [hup, hclient]; exact hrestored.client
    resolves := by rw [hup, hseams]; exact hrestored.resolves }

theorem Device.Restored.of_death (hdisk : device.phone.disk = some bond)
    (hstep : companion.step device (.phone .processDeath) = some next) : next.Restored bond := by
  cases hstep
  exact {
    disk := hdisk
    resolvers := fun _ hsource => (nomatch hsource)
    provider := fun _ hother => (nomatch hother)
    client := fun hup => (nomatch hup)
    resolves := fun hup => (nomatch hup) }

/-- Whether the activity has handed over its record or not, the service finds the bond. -/
theorem Device.Restored.clientAtCreation (hrestored : device.Restored bond) :
    ∃ path, device.phone.clientAtCreation true = some ⟨path, bond.peerId⟩ := by
  refine Phone.clientAtCreation_eq_some_iff.mpr ⟨.inr rfl, bond, ?_, rfl⟩
  cases hprovider : device.phone.seams.bondListProvider with
  | none => exact hrestored.disk
  | some other => exact congrArg some (hrestored.provider other hprovider)

theorem Device.Restored.createService (hrestored : device.Restored bond)
    (hstep : companion.step device (.phone (.createService true)) = some next) :
    next.Restored bond := by
  obtain ⟨path, hmade⟩ := hrestored.clientAtCreation
  have hclient := Device.client_step hstep
  change (if device.allows (.createService true) then _ else _) = _ at hstep
  split at hstep
  next =>
    cases hstep
    have hseams := Phone.seams_injectClientsForBonds (device.phone.ensureDefaults true)
    exact {
      disk := (Phone.disk_injectClientsForBonds _).trans hrestored.disk
      resolvers := by
        intro source hsource
        change source ∈ (Phone.injectClientsForBonds _).seams.resolvers at hsource
        rw [hseams] at hsource
        cases hown : device.phone.seams.resolvers with
        | none =>
            simp only [Phone.ensureDefaults, hown, Option.getD_none, Option.mem_some] at hsource
            exact .inl hsource.symm
        | some own =>
            simp only [Phone.ensureDefaults, hown, Option.getD_some, Option.mem_some] at hsource
            exact hrestored.resolvers source (hown.trans (congrArg some hsource))
      provider := by
        intro other hother
        change other ∈ (Phone.injectClientsForBonds _).seams.bondListProvider at hother
        rw [hseams] at hother
        exact hrestored.provider other hother
      client := fun _ => ⟨path, hclient.trans (congrArg (·.or device.phone.client) hmade)⟩
      resolves := fun _ => (congrArg (·.resolvers.isSome) hseams).trans rfl }
  next => cases hstep

/-- The activity installs what is on the disk. -/
theorem Device.Restored.installFromActivity {adapter requested : Bool}
    (hrestored : device.Restored bond) :
    Device.Restored bond
      ⟨device.phone.installFromActivity bond adapter, device.isRunning, requested⟩ where
  disk := hrestored.disk
  resolvers := by
    intro source hsource
    cases adapter <;> exact .inr (Option.some.inj hsource).symm
  provider := by
    intro other hother
    cases adapter with
    | true => exact (Option.some.inj hother).symm
    | false => exact hrestored.provider other hother
  client := hrestored.client
  resolves := by
    intro _
    cases adapter <;> rfl

theorem Device.Restored.ofActivity {adapter : Bool} {event : PhoneEvent}
    (hrestored : device.Restored bond)
    (hevent : event = .openApp adapter ∨ event = .pairingCompleted adapter)
    (hstep : companion.step device (.phone event) = some next) : next.Restored bond := by
  have hphone : device.phone.step event = some (device.phone.installFromActivity bond adapter) := by
    rcases hevent with rfl | rfl <;> simp only [Phone.step, hrestored.disk]
  have hnext : next = device.withPhone (device.phone.installFromActivity bond adapter) event := by
    have hcases := Device.step_sound hstep
    cases hcases with
    | phone _ hother => rw [Option.some.inj (hphone.symm.trans hother)]
  rw [hnext]
  rcases hevent with rfl | rfl <;> exact hrestored.installFromActivity

theorem Device.Restored.step {event : DeviceEvent} (hrestored : device.Restored bond)
    (hundisturbed : event.Undisturbed) (hstep : companion.step device event = some next) :
    next.Restored bond := by
  rcases Device.bondSide_step hstep with ⟨hspares, hside⟩ | ⟨event, phone, rfl, happroves, -, -⟩
  · obtain ⟨⟨hcreates, hends⟩, -⟩ := DeviceEvent.idle_of_spares device hspares
    refine hrestored.of_bondSide hside ?_
    rw [Device.isRunning_step hstep, hcreates, hends]
    rfl
  · cases event with
    | createService adapter =>
        cases adapter with
        | true => exact hrestored.createService hstep
        | false => exact hundisturbed.elim
    | openApp adapter => exact hrestored.ofActivity (.inl rfl) hstep
    | pairingCompleted adapter => exact hrestored.ofActivity (.inr rfl) hstep
    | processDeath => exact .of_death hrestored.disk hstep
    | destroyService =>
        change (if device.isRunning then _ else _) = _ at hstep
        split at hstep
        next =>
          cases hstep
          exact {
            disk := hrestored.disk
            resolvers := hrestored.resolvers
            provider := hrestored.provider
            client := fun hup => (nomatch hup)
            resolves := fun hup => (nomatch hup) }
        next => cases hstep
    | savePairing | revokeTapped => exact hundisturbed.elim
    | _ => cases happroves

theorem Device.Restored.run {events : List DeviceEvent} (hrestored : device.Restored bond)
    (hundisturbed : ∀ event ∈ events, event.Undisturbed)
    (hrun : companion.run device events = some final) : final.Restored bond := by
  refine companion.run_invariant_of_allSteps (fun _ event => event.Undisturbed)
    (Device.Restored bond) (fun _ _ _ hbefore hevent hstep => hbefore.step hevent hstep) hrestored
    ?_ hrun
  exact companion.allSteps_of_forall (fun event hmem _ => hundisturbed event hmem) device

theorem Device.Restored.notified (hrestored : device.Restored bond)
    (hup : device.isRunning = true) (frameBytes : Bytes) :
    ∃ next, companion.step device (.phone (.notified frameBytes)) = some next ∧
      next.phone.intents = device.phone.intents ++
        [⟨bond.peerId, bond.hostName, challengeBody frameBytes, bond.keystoreAlias⟩] := by
  obtain ⟨path, hclient⟩ := hrestored.client hup
  have hresolved := hrestored.resolved hup
  have hphone : device.phone.step (.notified frameBytes) =
      some (device.phone.launchApprovalActivity bond.peerId (challengeBody frameBytes)) := by
    simp only [Phone.step, hclient]
  refine ⟨_, congrArg (Option.map _) hphone, ?_⟩
  rw [device.phone_withPhone]
  simp only [Phone.launchApprovalActivity, Phone.hostnameFor, Phone.keystoreAliasFor, hresolved,
    Option.map_some, Option.getD_some]

theorem Device.Restored.resurrect (hrestored : device.Restored bond)
    (hdead : device.isRunning = false) :
    ∃ back, companion.run device [.resurrect, .phone (.createService true)] = some back ∧
      back.isRunning = true := by
  have hallows : device.resurrectIfDead.allows (.createService true) = true := by
    simp [Device.resurrectIfDead, Device.allows, hdead, hrestored.disk]
  let phone := (device.resurrectIfDead.phone.ensureDefaults true).injectClientsForBonds
  refine ⟨device.resurrectIfDead.withPhone phone (.createService true), ?_, rfl⟩
  change (if device.resurrectIfDead.allows (.createService true) then _ else none).bind some = _
  rw [if_pos hallows]
  rfl

/-- Once the process has died, the next challenge carries the names of the bond on the disk,
though nobody opens the app. -/
theorem challenge_names_bond_after_death {events : List DeviceEvent}
    (hdisk : device.phone.disk = some bond) (hundisturbed : ∀ event ∈ events, event.Undisturbed)
    (hrun : companion.run device (.phone .processDeath :: events) = some final)
    (frameBytes : Bytes) :
    ∃ back next,
      companion.run final
          (if final.isRunning then [] else [.resurrect, .phone (.createService true)]) =
        some back ∧
      companion.step back (.phone (.notified frameBytes)) = some next ∧
      next.phone.intents = back.phone.intents ++
        [⟨bond.peerId, bond.hostName, challengeBody frameBytes, bond.keystoreAlias⟩] := by
  obtain ⟨dead, hdeath, hevents⟩ := companion.run_cons_eq_some.mp hrun
  have hrestored := (Device.Restored.of_death hdisk hdeath).run hundisturbed hevents
  cases hup : final.isRunning with
  | true =>
      obtain ⟨next, hstep, hintents⟩ := hrestored.notified hup frameBytes
      exact ⟨final, next, rfl, hstep, hintents⟩
  | false =>
      obtain ⟨back, hback, hbackup⟩ := hrestored.resurrect hup
      have hboth : ∀ event ∈ [DeviceEvent.resurrect, .phone (.createService true)],
          event.Undisturbed := by
        intro event hmem
        rcases List.mem_pair.mp hmem with rfl | rfl <;> trivial
      obtain ⟨next, hstep, hintents⟩ := (hrestored.run hboth hback).notified hbackup frameBytes
      exact ⟨back, next, hback, hstep, hintents⟩

def pairedDevice : Device := (companion.run emptyDevice pairedTwice).getD emptyDevice

/-- The system destroys the service that it brought back. -/
def destroyedAgain : List DeviceEvent :=
  [.resurrect, .phone (.createService true), .phone .destroyService]

/-- The service comes back, and for the desktop of the second pairing. -/
theorem challenge_names_bond_after_death_destroyed :
    ∃ final back next,
      companion.run pairedDevice (.phone .processDeath :: destroyedAgain) = some final ∧
      final.isRunning = false ∧
      companion.run final [.resurrect, .phone (.createService true)] = some back ∧
      companion.step back (.phone (.notified [])) = some next ∧
      next.phone.intents = back.phone.intents ++
        [⟨desktopBond.peerId, "desktop", [], desktopBond.keystoreAlias⟩] := by
  have hundisturbed : ∀ event ∈ destroyedAgain, event.Undisturbed := by
    simp [destroyedAgain, DeviceEvent.Undisturbed]
  obtain ⟨back, next, hback, hstep, hintents⟩ :=
    @challenge_names_bond_after_death pairedDevice _ desktopBond destroyedAgain rfl hundisturbed
      rfl []
  exact ⟨_, back, next, rfl, rfl, hback, hstep, hintents⟩

end Syauth.Android
