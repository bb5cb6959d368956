import Syauth.Android.BondStore
import Syauth.Mobile.Verify
import Syauth.Transition.System

/-! # From a notification to a signature on the phone

The path of a challenge through `MainActivity`, `SyauthCompanionService`,
`PersistentGattClient` and `ChallengeApprovalActivity`.  The labels carry what the
user and the operating system do: taps, biometric results, the delivery of
intents, and the death of the process that holds the static seams.
-/

namespace Syauth.Android

open Mobile Transition

/-- Who installed the client factory: `MainActivity` or the service itself. -/
inductive DeliveryPath where
  | foreground
  | background
  deriving DecidableEq

/-- Where the resolver seams look: the record the activity captured, or the disk. -/
inductive RecordSource where
  | captured (record : BondRecord)
  | disk
  deriving DecidableEq

/-- The statics of the app's process.  The `challengeVerifier` and `bondKeyProvider` seams are
installed beside these and read by nothing. -/
structure Seams where
  resolvers : Option RecordSource
  gattClientFactory : Option DeliveryPath
  bondListProvider : Option BondRecord
  deriving DecidableEq

def Seams.reset : Seams := ⟨none, none, none⟩

/-- A client of the service.  There is at most one, as there is at most one record. -/
structure GattClient where
  path : DeliveryPath
  peerId : String
  deriving DecidableEq

/-- The extras of the intent that starts the approval activity. -/
structure ApprovalIntent where
  peerId : String
  hostname : String
  challengeBytes : Bytes
  keystoreAlias : String
  deriving DecidableEq

structure ApprovalActivity where
  instanceId : Nat
  resolved : ApprovalIntent
  deriving DecidableEq

structure Phone where
  disk : Option BondRecord
  /-- The aliases of the keystore that hold a private key. -/
  keystore : String → Bool
  /-- `MainActivity.bondRecord`. -/
  shown : Option BondRecord
  seams : Seams
  client : Option GattClient
  /-- Sent by the service and not yet delivered by the system. -/
  intents : List ApprovalIntent
  activity : Option ApprovalActivity
  /-- Open biometric prompts with the activity that opened each. -/
  prompts : List ApprovalActivity
  nextInstance : Nat

/-- How opening the private key for a signature ends. -/
inductive InitSign where
  | ready
  | invalidated
  | failed
  deriving DecidableEq

inductive PhoneEvent where
  /-- `MainActivity.onCreate`. -/
  | openApp (adapter : Bool)
  /-- `MainActivity.onPairingCompleted`, after the pairing screen has saved its record. -/
  | pairingCompleted (adapter : Bool)
  | savePairing (record : BondRecord)
  | revokeTapped
  | createService (adapter : Bool)
  | destroyService
  | processDeath
  /-- A notification of the running client's own connection on the challenge
  characteristic. -/
  | notified (frameBytes : Bytes)
  | startActivity (i : Nat)
  | approveTapped (initSign : InitSign)
  | cancelTapped
  | leave
  | biometric (i : Nat) (succeeded : Bool)
  deriving DecidableEq

/-! ## The seams -/

def Phone.resolved (phone : Phone) (peerId : String) : Option BondRecord :=
  match phone.seams.resolvers with
  | none => none
  | some source =>
      (match source with
        | .captured record => some record
        | .disk => phone.disk).filter fun record => record.peerId = peerId

def Phone.hostnameFor (phone : Phone) (peerId : String) : String :=
  ((phone.resolved peerId).map (·.hostName)).getD peerId

def Phone.keystoreAliasFor (phone : Phone) (peerId : String) : String :=
  ((phone.resolved peerId).map (·.keystoreAlias)).getD ""

/-- The lambda both installers pass as `onChallenge`, up to the launch. -/
def challengeBody (frameBytes : Bytes) : Bytes :=
  if frameBytes.length > 16 then frameBytes.take (frameBytes.length - 16) else frameBytes

def Phone.launchApprovalActivity (phone : Phone) (peerId : String)
    (challengeBytes : Bytes) : Phone :=
  { phone with intents := phone.intents ++
      [⟨peerId, phone.hostnameFor peerId, challengeBytes, phone.keystoreAliasFor peerId⟩] }

/-- `installCompanionSeams` and `installPersistentClientFactory` of the activity. -/
def Phone.installFromActivity (phone : Phone) (record : BondRecord) (adapter : Bool) : Phone :=
  { phone with
    shown := some record
    seams :=
      if adapter then ⟨some (.captured record), some .foreground, some record⟩
      else { phone.seams with resolvers := some (.captured record) } }

/-- `ensureDefaultGattClientFactory` and `ensureDefaultCompanionSeams` of the service. -/
def Phone.ensureDefaults (phone : Phone) (adapter : Bool) : Phone :=
  { phone with
    seams :=
      { phone.seams with
        gattClientFactory :=
          match phone.seams.gattClientFactory with
          | some path => some path
          | none => if adapter then some .background else none
        resolvers := some (phone.seams.resolvers.getD .disk) } }

def Phone.injectClientsForBonds (phone : Phone) : Phone :=
  match phone.seams.gattClientFactory with
  | none => phone
  | some path =>
      match phone.seams.bondListProvider.or phone.disk with
      | none => phone
      | some bond => { phone with client := some ⟨path, bond.peerId⟩ }

/-! ## The approval activity -/

/-- A single-instance activity that is already there ignores the new intent. -/
def Phone.onCreate (phone : Phone) (intent : ApprovalIntent) : Phone :=
  match phone.activity with
  | some _ => phone
  | none =>
      if intent.peerId = "" ∨ intent.hostname = "" then phone
      else { phone with activity := some ⟨phone.nextInstance, intent⟩,
                        nextInstance := phone.nextInstance + 1 }

def Phone.finish (phone : Phone) (instanceId : Nat) : Phone :=
  { phone with activity := phone.activity.filter fun activity => activity.instanceId ≠ instanceId }

/-- `AndroidBiometricGate.authenticate` up to the prompt. -/
def Phone.authenticate (phone : Phone) (activity : ApprovalActivity)
    (initSign : InitSign) : Phone :=
  let keystoreAlias := activity.resolved.keystoreAlias
  if keystoreAlias = "" ∨ phone.keystore keystoreAlias = false then
    phone.finish activity.instanceId
  else
    match initSign with
    | .ready => { phone with prompts := phone.prompts ++ [activity] }
    | .invalidated =>
        { phone with keystore := Function.update phone.keystore keystoreAlias false }.finish
          activity.instanceId
    | .failed => phone.finish activity.instanceId

def Phone.step (phone : Phone) : PhoneEvent → Option Phone
  | .openApp adapter =>
      match phone.disk with
      | none => some { phone with shown := none }
      | some record => some (phone.installFromActivity record adapter)
  | .pairingCompleted adapter =>
      match phone.disk with
      | none => some phone
      | some record => some (phone.installFromActivity record adapter)
  | .savePairing record =>
      some { phone with
        disk := some record
        keystore := Function.update phone.keystore record.keystoreAlias true }
  | .revokeTapped =>
      match phone.shown with
      | none => some phone
      | some record =>
          some { phone with
            disk := none
            keystore := Function.update phone.keystore record.keystoreAlias false
            shown := none }
  | .createService adapter => some (phone.ensureDefaults adapter).injectClientsForBonds
  | .destroyService => some { phone with client := none }
  | .processDeath =>
      some { phone with
        shown := none, seams := .reset, client := none, activity := none, prompts := [] }
  | .notified frameBytes =>
      match phone.client with
      | none => none
      | some client => some (phone.launchApprovalActivity client.peerId (challengeBody frameBytes))
  | .startActivity i =>
      match phone.intents[i]? with
      | none => none
      | some intent => some ({ phone with intents := phone.intents.eraseIdx i }.onCreate intent)
  | .approveTapped initSign =>
      match phone.activity with
      | none => none
      | some activity => some (phone.authenticate activity initSign)
  | .cancelTapped =>
      match phone.activity with
      | none => none
      | some activity => some (phone.finish activity.instanceId)
  | .leave =>
      match phone.activity with
      | none => none
      | some activity => some (phone.finish activity.instanceId)
  | .biometric i _ =>
      match phone.prompts[i]? with
      | none => none
      | some prompt =>
          some ({ phone with prompts := phone.prompts.eraseIdx i }.finish prompt.instanceId)

/-- A phone whose app is not running. -/
def Phone.Idle (phone : Phone) : Prop :=
  phone.shown = none ∧ phone.seams = .reset ∧ phone.client = none ∧ phone.intents = [] ∧
    phone.activity = none ∧ phone.prompts = []

def unlocking : System Phone PhoneEvent where
  start := Phone.Idle
  step := Phone.step

/-! ## What one step can do -/

inductive Phone.Step (phone : Phone) : PhoneEvent → Phone → Prop where
  | openUnbonded {adapter} (hdisk : phone.disk = none) :
      Step phone (.openApp adapter) { phone with shown := none }
  | openBonded {adapter record} (hdisk : phone.disk = some record) :
      Step phone (.openApp adapter) (phone.installFromActivity record adapter)
  | pairingMissing {adapter} (hdisk : phone.disk = none) :
      Step phone (.pairingCompleted adapter) phone
  | pairingCompleted {adapter record} (hdisk : phone.disk = some record) :
      Step phone (.pairingCompleted adapter) (phone.installFromActivity record adapter)
  | savePairing {record} :
      Step phone (.savePairing record)
        { phone with
          disk := some record
          keystore := Function.update phone.keystore record.keystoreAlias true }
  | revokeNothing (hshown : phone.shown = none) : Step phone .revokeTapped phone
  | revoke {record} (hshown : phone.shown = some record) :
      Step phone .revokeTapped
        { phone with
          disk := none
          keystore := Function.update phone.keystore record.keystoreAlias false
          shown := none }
  | createService {adapter} :
      Step phone (.createService adapter) (phone.ensureDefaults adapter).injectClientsForBonds
  | destroyService : Step phone .destroyService { phone with client := none }
  | processDeath :
      Step phone .processDeath
        { phone with
          shown := none, seams := .reset, client := none, activity := none, prompts := [] }
  | notified {frameBytes client} (hclient : phone.client = some client) :
      Step phone (.notified frameBytes)
        (phone.launchApprovalActivity client.peerId (challengeBody frameBytes))
  | startActivity {i intent} (hintent : phone.intents[i]? = some intent) :
      Step phone (.startActivity i)
        ({ phone with intents := phone.intents.eraseIdx i }.onCreate intent)
  | approveTapped {initSign activity} (hactivity : phone.activity = some activity) :
      Step phone (.approveTapped initSign) (phone.authenticate activity initSign)
  | cancelTapped {activity} (hactivity : phone.activity = some activity) :
      Step phone .cancelTapped (phone.finish activity.instanceId)
  | leave {activity} (hactivity : phone.activity = some activity) :
      Step phone .leave (phone.finish activity.instanceId)
  | biometric {i succeeded prompt} (hprompt : phone.prompts[i]? = some prompt) :
      Step phone (.biometric i succeeded)
        ({ phone with prompts := phone.prompts.eraseIdx i }.finish prompt.instanceId)

theorem Phone.step_sound {phone next : Phone} {event : PhoneEvent}
    (hstep : phone.step event = some next) : phone.Step event next := by
  unfold Phone.step at hstep
  split at hstep
  next adapter =>
    split at hstep
    next hdisk => exact Option.some.inj hstep ▸ .openUnbonded hdisk
    next record hdisk => exact Option.some.inj hstep ▸ .openBonded hdisk
  next adapter =>
    split at hstep
    next hdisk => exact Option.some.inj hstep ▸ .pairingMissing hdisk
    next record hdisk => exact Option.some.inj hstep ▸ .pairingCompleted hdisk
  next record => exact Option.some.inj hstep ▸ .savePairing
  next =>
    split at hstep
    next hshown => exact Option.some.inj hstep ▸ .revokeNothing hshown
    next record hshown => exact Option.some.inj hstep ▸ .revoke hshown
  next adapter => exact Option.some.inj hstep ▸ .createService
  next => exact Option.some.inj hstep ▸ .destroyService
  next => exact Option.some.inj hstep ▸ .processDeath
  next frameBytes =>
    split at hstep
    next => cases hstep
    next client hclient => exact Option.some.inj hstep ▸ .notified hclient
  next i =>
    split at hstep
    next => cases hstep
    next intent hintent => exact Option.some.inj hstep ▸ .startActivity hintent
  next initSign =>
    split at hstep
    next => cases hstep
    next activity hactivity => exact Option.some.inj hstep ▸ .approveTapped hactivity
  next =>
    split at hstep
    next => cases hstep
    next activity hactivity => exact Option.some.inj hstep ▸ .cancelTapped hactivity
  next =>
    split at hstep
    next => cases hstep
    next activity hactivity => exact Option.some.inj hstep ▸ .leave hactivity
  next i succeeded =>
    split at hstep
    next => cases hstep
    next prompt hprompt => exact Option.some.inj hstep ▸ .biometric hprompt

end Syauth.Android
