import Syauth.Android.Unlock

/-! # The phone and the authenticity of what it signs

`verify_challenge_frame` is the phone's check that a challenge comes from its
peer.  No step of the path calls it, so that what is signed is authentic only as
far as what is notified is.  The bond key of a peer is that of its record on the
disk, whatever record the seams were installed with.
-/

namespace Syauth.Android

open Mobile Transition

/-! ## What an observer of the phone sees -/

/-- The bond key of the peer, where it is bonded. -/
def Phone.bondKeyOf (phone : Phone) (peerId : String) : Option Bytes :=
  (phone.disk.filter fun record => record.peerId = peerId).map (·.bondKey)

inductive PhoneObservation where
  /-- A notification, with the bond key of its peer at that moment. -/
  | delivered (path : DeliveryPath) (peerId : String) (bondKey : Option Bytes) (frameBytes : Bytes)
  /-- An Ed25519 signature by the key of the alias. -/
  | signed (keystoreAlias : String) (challengeBytes : Bytes)
  /-- `DENIED_FRAME_BYTES` written as the response. -/
  | denied (peerId : String)
  deriving DecidableEq

def Phone.observe (phone : Phone) : PhoneEvent → List PhoneObservation
  | .notified frameBytes =>
      phone.client.toList.map fun client =>
        .delivered client.path client.peerId (phone.bondKeyOf client.peerId) frameBytes
  | .approveTapped initSign =>
      phone.activity.toList.flatMap fun activity =>
        if activity.resolved.keystoreAlias = "" ∨
            phone.keystore activity.resolved.keystoreAlias = false ∨ initSign ≠ .ready then
          [.denied activity.resolved.peerId]
        else []
  | .cancelTapped => phone.activity.toList.map fun activity => .denied activity.resolved.peerId
  | .biometric i succeeded =>
      phone.prompts[i]?.toList.map fun prompt =>
        if succeeded then .signed prompt.resolved.keystoreAlias prompt.resolved.challengeBytes
        else .denied prompt.resolved.peerId
  | _ => []

/-- The bytes are on their way to a signature. -/
def Phone.Carries (phone : Phone) (bytes : Bytes) : Prop :=
  (∃ intent ∈ phone.intents, intent.challengeBytes = bytes) ∨
    (∃ activity ∈ phone.activity, activity.resolved.challengeBytes = bytes) ∨
    ∃ prompt ∈ phone.prompts, prompt.resolved.challengeBytes = bytes

/-- Everything that is on its way to a signature. -/
def Phone.underWay (phone : Phone) : List ApprovalIntent :=
  phone.intents ++ phone.activity.toList.map (·.resolved) ++ phone.prompts.map (·.resolved)

/-! ## One step -/

variable {phone next : Phone} {event : PhoneEvent} {bytes : Bytes} {intent : ApprovalIntent}

theorem Phone.mem_underWay : intent ∈ phone.underWay ↔
    intent ∈ phone.intents ∨ (∃ activity, phone.activity = some activity ∧
      activity.resolved = intent) ∨ ∃ prompt ∈ phone.prompts, prompt.resolved = intent := by
  simp [Phone.underWay]

theorem Phone.carries_iff :
    phone.Carries bytes ↔ ∃ intent ∈ phone.underWay, intent.challengeBytes = bytes := by
  simp only [Phone.Carries, Phone.mem_underWay]
  constructor
  · rintro (⟨intent, hintent, hbytes⟩ | ⟨activity, hactivity, hbytes⟩ | ⟨prompt, hprompt, hbytes⟩)
    · exact ⟨intent, .inl hintent, hbytes⟩
    · exact ⟨activity.resolved, .inr (.inl ⟨activity, hactivity, rfl⟩), hbytes⟩
    · exact ⟨prompt.resolved, .inr (.inr ⟨prompt, hprompt, rfl⟩), hbytes⟩
  · rintro ⟨intent, hintent | ⟨activity, hactivity, rfl⟩ | ⟨prompt, hprompt, rfl⟩, hbytes⟩
    · exact .inl ⟨intent, hintent, hbytes⟩
    · exact .inr (.inl ⟨activity, hactivity, hbytes⟩)
    · exact .inr (.inr ⟨prompt, hprompt, hbytes⟩)

theorem Phone.underWay_of_finish {instanceId : Nat}
    (hintent : intent ∈ (phone.finish instanceId).underWay) : intent ∈ phone.underWay := by
  rcases Phone.mem_underWay.mp hintent with hpending | ⟨activity, hactivity, hresolved⟩ | hprompt
  · exact Phone.mem_underWay.mpr (.inl hpending)
  · refine Phone.mem_underWay.mpr (.inr (.inl ⟨activity, ?_, hresolved⟩))
    exact (Option.mem_filter_iff.mp hactivity).1
  · exact Phone.mem_underWay.mpr (.inr (.inr hprompt))

theorem Phone.underWay_of_onCreate {started : ApprovalIntent}
    (hintent : intent ∈ (phone.onCreate started).underWay) :
    intent ∈ phone.underWay ∨ intent = started := by
  unfold Phone.onCreate at hintent
  split at hintent
  · exact .inl hintent
  · split at hintent
    · exact .inl hintent
    · rcases Phone.mem_underWay.mp hintent with hpending | ⟨activity, hactivity, hresolved⟩ |
        hprompt
      · exact .inl (Phone.mem_underWay.mpr (.inl hpending))
      · cases hactivity
        exact .inr hresolved.symm
      · exact .inl (Phone.mem_underWay.mpr (.inr (.inr hprompt)))

theorem Phone.underWay_of_authenticate {activity : ApprovalActivity} {initSign : InitSign}
    (hactivity : phone.activity = some activity)
    (hintent : intent ∈ (phone.authenticate activity initSign).underWay) :
    intent ∈ phone.underWay := by
  unfold Phone.authenticate at hintent
  simp only at hintent
  split at hintent
  · exact Phone.underWay_of_finish hintent
  · cases initSign with
    | ready =>
        refine Phone.mem_underWay.mpr ?_
        rcases Phone.mem_underWay.mp hintent with hpending | hother | ⟨prompt, hprompt, hresolved⟩
        · exact .inl hpending
        · exact .inr (.inl hother)
        · rcases List.mem_append.mp hprompt with hold | hnew
          · exact .inr (.inr ⟨prompt, hold, hresolved⟩)
          · -- the prompt signs what its activity showed
            obtain rfl := List.mem_singleton.mp hnew
            exact .inr (.inl ⟨prompt, hactivity, hresolved⟩)
    | invalidated => exact Phone.underWay_of_finish hintent
    | failed => exact Phone.underWay_of_finish hintent

theorem Phone.underWay_injectClientsForBonds (phone : Phone) :
    phone.injectClientsForBonds.underWay = phone.underWay := by
  unfold Phone.injectClientsForBonds
  split
  · rfl
  · split
    · rfl
    · rfl

/-- Only a notification sets something new on its way: its peer's, with what its frame
strips to. -/
theorem Phone.underWay_step (hstep : phone.step event = some next)
    (hintent : intent ∈ next.underWay) :
    intent ∈ phone.underWay ∨
      ∃ frameBytes client, event = .notified frameBytes ∧ phone.client = some client ∧
        intent.peerId = client.peerId ∧ intent.challengeBytes = challengeBody frameBytes := by
  have hcases := Phone.step_sound hstep
  cases hcases with
  | createService =>
      rw [Phone.underWay_injectClientsForBonds] at hintent
      exact .inl hintent
  | processDeath =>
      -- the intents are with the system and outlive the process
      rcases Phone.mem_underWay.mp hintent with hpending | ⟨activity, hactivity, -⟩ |
        ⟨prompt, hprompt, -⟩
      · exact .inl (Phone.mem_underWay.mpr (.inl hpending))
      · cases hactivity
      · cases hprompt
  | @notified frameBytes client hclient =>
      rcases Phone.mem_underWay.mp hintent with hpending | hother
      · rcases List.mem_append.mp hpending with hold | hnew
        · exact .inl (Phone.mem_underWay.mpr (.inl hold))
        · obtain rfl := List.mem_singleton.mp hnew
          exact .inr ⟨frameBytes, client, rfl, hclient, rfl, rfl⟩
      · exact .inl (Phone.mem_underWay.mpr (.inr hother))
  | startActivity hstarted =>
      refine .inl (Phone.mem_underWay.mpr ?_)
      rcases Phone.underWay_of_onCreate hintent with hold | rfl
      · rcases Phone.mem_underWay.mp hold with hpending | hother
        · exact .inl (List.mem_of_mem_eraseIdx hpending)
        · exact .inr hother
      · exact .inl (List.mem_of_getElem? hstarted)
  | approveTapped hactivity =>
      exact .inl (Phone.underWay_of_authenticate hactivity hintent)
  | cancelTapped | leave => exact .inl (Phone.underWay_of_finish hintent)
  | biometric hprompt =>
      -- the prompt is closed either way
      refine .inl (Phone.mem_underWay.mpr ?_)
      rcases Phone.mem_underWay.mp (Phone.underWay_of_finish hintent) with hpending | hactivity |
        ⟨prompt, hprompt, hresolved⟩
      · exact .inl hpending
      · exact .inr (.inl hactivity)
      · exact .inr (.inr ⟨prompt, List.mem_of_mem_eraseIdx hprompt, hresolved⟩)
  | _ => exact .inl hintent

theorem Phone.carries_step (hstep : phone.step event = some next) (hcarries : next.Carries bytes) :
    phone.Carries bytes ∨
      ∃ frameBytes client, event = .notified frameBytes ∧ phone.client = some client ∧
        bytes = challengeBody frameBytes := by
  obtain ⟨intent, hintent, rfl⟩ := Phone.carries_iff.mp hcarries
  obtain hold | ⟨frameBytes, client, hevent, hclient, -, hbytes⟩ :=
    Phone.underWay_step hstep hintent
  · exact .inl (Phone.carries_iff.mpr ⟨intent, hold, rfl⟩)
  · exact .inr ⟨frameBytes, client, hevent, hclient, hbytes⟩

theorem Phone.underWay_eq_nil (hidle : phone.Idle) : phone.underWay = [] := by
  obtain ⟨-, -, -, hintents, hactivity, hprompts⟩ := hidle
  simp [Phone.underWay, hintents, hactivity, hprompts]

theorem Phone.carries_of_signed {keystoreAlias : String}
    (hsigned : .signed keystoreAlias bytes ∈ phone.observe event) : phone.Carries bytes := by
  cases event with
  | biometric i succeeded =>
      simp only [Phone.observe, List.mem_map, Option.mem_toList] at hsigned
      obtain ⟨prompt, hprompt, hobserved⟩ := hsigned
      split at hobserved
      · cases hobserved
        exact .inr (.inr ⟨prompt, List.mem_of_getElem? hprompt, rfl⟩)
      · cases hobserved
  | approveTapped initSign =>
      simp only [Phone.observe, List.mem_flatMap, Option.mem_toList] at hsigned
      obtain ⟨activity, -, hobserved⟩ := hsigned
      split at hobserved
      · simp at hobserved
      · cases hobserved
  | notified frameBytes => simp [Phone.observe] at hsigned
  | cancelTapped => simp [Phone.observe] at hsigned
  | openApp adapter => cases hsigned
  | pairingCompleted adapter => cases hsigned
  | savePairing record => cases hsigned
  | revokeTapped => cases hsigned
  | createService adapter => cases hsigned
  | destroyService => cases hsigned
  | processDeath => cases hsigned
  | startActivity i => cases hsigned
  | leave => cases hsigned

/-! ## Whole runs -/

variable (prim : Primitives)

/-- The frame verifies under the bond key. -/
def Verifies (bondKey : Option Bytes) (frameBytes : Bytes) : Prop :=
  ∃ key payload, bondKey = some key ∧ verifyChallengeFrame prim key frameBytes = .ok payload

instance (bondKey : Option Bytes) (frameBytes : Bytes) :
    Decidable (Verifies prim bondKey frameBytes) :=
  match bondKey with
  | none => .isFalse (by simp [Verifies])
  | some key =>
      match hverify : verifyChallengeFrame prim key frameBytes with
      | .ok payload => .isTrue ⟨key, payload, rfl, hverify⟩
      | .error err => .isFalse (by simp [Verifies, hverify])

/-- The bytes are the body of a delivered frame that verifies under its peer's bond key. -/
def Authentic (seen : List PhoneObservation) (bytes : Bytes) : Prop :=
  ∃ path peerId bondKey frameBytes, .delivered path peerId bondKey frameBytes ∈ seen ∧
    Verifies prim bondKey frameBytes ∧ bytes = frameBytes.take (frameBytes.length - 16)

/-- Every notified frame verifies under the bond key its peer has at that moment. -/
def NotifiesVerified (phone : Phone) : PhoneEvent → Prop
  | .notified frameBytes => ∀ client, phone.client = some client →
      Verifies prim (phone.bondKeyOf client.peerId) frameBytes
  | _ => True

instance (phone : Phone) (event : PhoneEvent) : Decidable (NotifiesVerified prim phone event) :=
  match event with
  | .notified frameBytes =>
      match hclient : phone.client with
      | none => .isTrue (by simp [NotifiesVerified, hclient])
      | some client =>
          decidable_of_iff (Verifies prim (phone.bondKeyOf client.peerId) frameBytes)
            (by simp [NotifiesVerified, hclient])
  | .openApp _ | .pairingCompleted _ | .savePairing _ | .revokeTapped | .createService _
  | .destroyService | .processDeath | .startActivity _ | .approveTapped _ | .cancelTapped | .leave
  | .biometric _ _ => .isTrue trivial

/-- Everything signed, and everything on its way to a signature, is authentic. -/
structure SignsAuthentic (seen : List PhoneObservation) (phone : Phone) : Prop where
  signed : ∀ keystoreAlias bytes, .signed keystoreAlias bytes ∈ seen → Authentic prim seen bytes
  carried : ∀ bytes, phone.Carries bytes → Authentic prim seen bytes

variable {prim} {seen : List PhoneObservation}

theorem Authentic.mono (hauthentic : Authentic prim seen bytes) (more : List PhoneObservation) :
    Authentic prim (seen ++ more) bytes := by
  obtain ⟨path, peerId, bondKey, frameBytes, hseen, hrest⟩ := hauthentic
  exact ⟨path, peerId, bondKey, frameBytes, List.mem_append_left more hseen, hrest⟩

theorem challengeBody_of_verifies {bondKey : Option Bytes} {frameBytes : Bytes}
    (hverifies : Verifies prim bondKey frameBytes) :
    challengeBody frameBytes = frameBytes.take (frameBytes.length - 16) := by
  obtain ⟨key, payload, -, hverify⟩ := hverifies
  have hlen : minFrameLen ≤ frameBytes.length := length_of_verifyChallengeFrame hverify
  have hmin : minFrameLen = 33 := rfl
  unfold challengeBody
  rw [if_pos]
  omega

theorem SignsAuthentic.step (hsigns : SignsAuthentic prim seen phone)
    (hguard : NotifiesVerified prim phone event) (hstep : phone.step event = some next) :
    SignsAuthentic prim (seen ++ phone.observe event) next := by
  refine ⟨fun keystoreAlias bytes hsigned => ?_, fun bytes hcarries => ?_⟩
  · rcases List.mem_append.mp hsigned with hold | hnew
    · exact (hsigns.signed keystoreAlias bytes hold).mono _
    · exact (hsigns.carried bytes (Phone.carries_of_signed hnew)).mono _
  · obtain hold | ⟨frameBytes, client, rfl, hclient, rfl⟩ := Phone.carries_step hstep hcarries
    · exact (hsigns.carried bytes hold).mono _
    · have hverifies := hguard client hclient
      refine ⟨client.path, client.peerId, phone.bondKeyOf client.peerId, frameBytes, ?_, hverifies,
        challengeBody_of_verifies hverifies⟩
      apply List.mem_append_right
      simp [Phone.observe, hclient]

theorem signsAuthentic_start (hidle : phone.Idle) : SignsAuthentic prim [] phone := by
  refine ⟨fun keystoreAlias bytes hsigned => (by cases hsigned), fun bytes hcarries => ?_⟩
  simp [Phone.carries_iff, Phone.underWay_eq_nil hidle] at hcarries

variable (prim) in
/-- Every signature of the run is over the body of an authentic frame notified in it. -/
def SignsOnlyAuthentic (initial : Phone) (events : List PhoneEvent) : Prop :=
  ∀ keystoreAlias bytes,
    .signed keystoreAlias bytes ∈ unlocking.trace Phone.observe initial events →
    Authentic prim (unlocking.trace Phone.observe initial events) bytes

/-- Over a run in which only verifying frames are notified, on either path and with
any taps, the phone signs nothing but bodies of such frames. -/
theorem signs_only_authentic {initial final : Phone} {events : List PhoneEvent}
    (hstart : unlocking.start initial)
    (hguard : unlocking.AllSteps (NotifiesVerified prim) initial events)
    (hrun : unlocking.run initial events = some final) :
    SignsOnlyAuthentic prim initial events := by
  have hinv := unlocking.run_trace_invariant_of_allSteps (NotifiesVerified prim) Phone.observe
    (SignsAuthentic prim) (fun seen state event next hsigns hverified hstep =>
      hsigns.step hverified hstep) (signsAuthentic_start hstart) hguard hrun
  exact hinv.signed

/-! ## One approved challenge -/

/-- A frame is notified on the path, and the user approves the prompt it raises. -/
def approvalRun (path : DeliveryPath) (frameBytes : Bytes) : List PhoneEvent :=
  (match path with
    | .foreground => [.openApp true]
    | .background => []) ++
  [.createService true, .notified frameBytes, .startActivity 0, .approveTapped .ready,
    .biometric 0 true]

/-- A phone at rest that is bonded and able to sign. -/
structure Ready (phone : Phone) (record : BondRecord) : Prop where
  idle : phone.Idle
  disk : phone.disk = some record
  key : phone.keystore record.keystoreAlias = true
  peerId : record.peerId ≠ ""
  hostName : record.hostName ≠ ""
  keystoreAlias : record.keystoreAlias ≠ ""

/-- The client of the bond runs and resolves to it, and no challenge is on its way. -/
structure Serving (phone : Phone) (path : DeliveryPath) (record : BondRecord) : Prop where
  client : phone.client = some ⟨path, record.peerId⟩
  disk : phone.disk = some record
  resolved : phone.resolved record.peerId = some record
  intents : phone.intents = []
  activity : phone.activity = none
  prompts : phone.prompts = []

theorem trace_approve {path : DeliveryPath} {record : BondRecord}
    (hserving : Serving phone path record)
    (hkey : phone.keystore record.keystoreAlias = true) (hpeer : record.peerId ≠ "")
    (hhost : record.hostName ≠ "") (halias : record.keystoreAlias ≠ "") (frameBytes : Bytes) :
    unlocking.trace Phone.observe phone
      [.notified frameBytes, .startActivity 0, .approveTapped .ready,
        .biometric 0 true] =
      [.delivered path record.peerId (some record.bondKey) frameBytes,
        .signed record.keystoreAlias (challengeBody frameBytes)] := by
  obtain ⟨hclient, hdisk, hresolved, hintents, hactivity, hprompts⟩ := hserving
  let intent : ApprovalIntent :=
    ⟨record.peerId, record.hostName, challengeBody frameBytes, record.keystoreAlias⟩
  let shown : ApprovalActivity := ⟨phone.nextInstance, intent⟩
  have hnotified : unlocking.step phone (.notified frameBytes) =
      some { phone with intents := [intent] } := by
    simp [unlocking, Phone.step, hclient, Phone.launchApprovalActivity, Phone.hostnameFor,
      Phone.keystoreAliasFor,
      hresolved, hintents, intent]
  let started : Phone :=
    { phone with intents := [], activity := some shown, nextInstance := phone.nextInstance + 1 }
  have hstarted : unlocking.step { phone with intents := [intent] } (.startActivity 0) =
      some started := by
    simp [unlocking, Phone.step, Phone.onCreate, hactivity, hpeer, hhost, intent, shown, started]
  have hprompted : unlocking.step started (.approveTapped .ready) =
      some { started with prompts := [shown] } := by
    simp [unlocking, Phone.step, Phone.authenticate, started, shown, intent, halias, hkey, hprompts]
  rw [unlocking.trace_cons_of_step hnotified, unlocking.trace_cons_of_step hstarted,
    unlocking.trace_cons_of_step hprompted]
  simp [Phone.observe, hclient, Phone.bondKeyOf, hdisk, started, shown, intent, halias, hkey,
    unlocking, System.trace, Phone.step]

theorem trace_approvalRun {record : BondRecord} (hready : Ready phone record) (path : DeliveryPath)
    (frameBytes : Bytes) :
    unlocking.trace Phone.observe phone (approvalRun path frameBytes) =
      [.delivered path record.peerId (some record.bondKey) frameBytes,
        .signed record.keystoreAlias (challengeBody frameBytes)] := by
  obtain ⟨⟨hshown, hseams, hclient, hintents, hactivity, hprompts⟩, hdisk, hkey, hpeer,
    hhost, halias⟩ :=
    hready
  -- each path ends up with a client for the record and resolvers that know it
  cases path with
  | foreground =>
      have hopened : unlocking.step phone (.openApp true) =
          some (phone.installFromActivity record true) := by
        simp [unlocking, Phone.step, hdisk]
      have hserving : Serving
          ((phone.installFromActivity record true).ensureDefaults true).injectClientsForBonds
          .foreground record := by
        refine ⟨rfl, hdisk, ?_, hintents, hactivity, hprompts⟩
        simp [Phone.resolved, Phone.injectClientsForBonds, Phone.ensureDefaults,
          Phone.installFromActivity]
      have htrace := trace_approve hserving hkey hpeer hhost halias frameBytes
      change unlocking.trace Phone.observe phone (.openApp true :: .createService true :: _) = _
      rw [unlocking.trace_cons_of_step hopened, unlocking.trace_cons_of_step rfl]
      exact htrace
  | background =>
      have hserving : Serving (phone.ensureDefaults true).injectClientsForBonds
          .background record := by
        refine ⟨?_, ?_, ?_, ?_, ?_, ?_⟩ <;>
          simp [Phone.resolved, Phone.injectClientsForBonds, Phone.ensureDefaults, hseams,
            Seams.reset,
            hdisk, hintents, hactivity, hprompts]
      have hkept : (phone.ensureDefaults true).injectClientsForBonds.keystore record.keystoreAlias =
          true := by
        simpa [Phone.injectClientsForBonds, Phone.ensureDefaults, hseams, Seams.reset, hdisk]
          using hkey
      have htrace := trace_approve hserving hkept hpeer hhost halias frameBytes
      change unlocking.trace Phone.observe phone (.createService true :: _) = _
      rw [unlocking.trace_cons_of_step rfl]
      exact htrace

/-- The verification of the frame decides alone whether its approval is authentic. -/
theorem approvalRun_signsOnlyAuthentic_iff {record : BondRecord} (hready : Ready phone record)
    (path : DeliveryPath) (frameBytes : Bytes) :
    SignsOnlyAuthentic prim phone (approvalRun path frameBytes) ↔
      Verifies prim (some record.bondKey) frameBytes := by
  rw [SignsOnlyAuthentic, trace_approvalRun hready]
  constructor
  · intro hsigns
    obtain ⟨_, _, _, _, hseen, hverifies, -⟩ :=
      hsigns record.keystoreAlias (challengeBody frameBytes)
      (by simp)
    simp only [List.mem_cons, PhoneObservation.delivered.injEq, reduceCtorEq, List.not_mem_nil,
      or_false] at hseen
    obtain ⟨rfl, rfl, rfl, rfl⟩ := hseen
    exact hverifies
  · intro hverifies keystoreAlias bytes hsigned
    have hbytes : bytes = challengeBody frameBytes := by simpa using (by
      simpa using hsigned : _ ∧ _).2
    exact ⟨path, record.peerId, some record.bondKey, frameBytes, List.mem_cons_self, hverifies,
      hbytes.trans (challengeBody_of_verifies hverifies)⟩

def knownRecord : BondRecord :=
  ⟨"AA:BB:CC:DD:EE:FF", "laptop", KnownAnswer.bondKey.val, "syauth.ed25519.AABBCCDDEEFF",
    KnownAnswer.pubkey.val⟩

def knownPhone : Phone where
  disk := some knownRecord
  keystore keystoreAlias := keystoreAlias == knownRecord.keystoreAlias
  shown := none
  seams := .reset
  client := none
  intents := []
  activity := none
  prompts := []
  nextInstance := 0

theorem knownPhone_ready : Ready knownPhone knownRecord where
  idle := ⟨rfl, rfl, rfl, rfl, rfl, rfl⟩
  disk := rfl
  key := by decide
  peerId := by decide
  hostName := by decide
  keystoreAlias := by decide

/-- The frame of the vector, with its tag and with a tag of zeros. -/
def taggedFrame : Bytes :=
  wireVersionV1 :: (KnownAnswer.nonce.val ++ KnownAnswer.keyedHash.val.take 16)

def forgedFrame : Bytes := wireVersionV1 :: (KnownAnswer.nonce.val ++ List.replicate 16 0)

/-- A revocation and a new pairing, and a challenge before the pairing screen is left: the
resolvers still have the record that the activity was opened with. -/
def repairedRun (record : BondRecord) : List PhoneEvent :=
  [.openApp true, .createService true, .revokeTapped, .savePairing record, .notified taggedFrame,
    .startActivity 0, .approveTapped .ready, .biometric 0 true]

def otherRecord : BondRecord := { knownRecord with bondKey := KnownAnswer.derivedKey.val }

def otherPhone : Phone := { knownPhone with disk := some otherRecord }

theorem signs_only_authentic_tagged_frame :
    SignsOnlyAuthentic KnownAnswer.primitives knownPhone (approvalRun .foreground taggedFrame) ∧
      SignsOnlyAuthentic KnownAnswer.primitives knownPhone
        (approvalRun .background taggedFrame) ∧
      SignsOnlyAuthentic KnownAnswer.primitives otherPhone (repairedRun knownRecord) := by
  have hforeground : (unlocking.run knownPhone (approvalRun .foreground taggedFrame)).isSome := by
    decide
  have hbackground : (unlocking.run knownPhone (approvalRun .background taggedFrame)).isSome := by
    decide
  have hrepaired : (unlocking.run otherPhone (repairedRun knownRecord)).isSome := by decide
  obtain ⟨opened, hopened⟩ := Option.isSome_iff_exists.mp hforeground
  obtain ⟨resumed, hresumed⟩ := Option.isSome_iff_exists.mp hbackground
  obtain ⟨repaired, hrun⟩ := Option.isSome_iff_exists.mp hrepaired
  exact ⟨signs_only_authentic knownPhone_ready.idle (by decide) hopened,
    signs_only_authentic knownPhone_ready.idle (by decide) hresumed,
    signs_only_authentic ⟨rfl, rfl, rfl, rfl, rfl, rfl⟩ (by decide) hrun⟩

/-- A frame under the key of the old bond is signed after the new pairing. -/
theorem outdated_frame_signed :
    ¬ SignsOnlyAuthentic KnownAnswer.primitives knownPhone (repairedRun otherRecord) := by
  intro hsigns
  have htrace : unlocking.trace Phone.observe knownPhone (repairedRun otherRecord) =
      [.delivered .foreground knownRecord.peerId (some otherRecord.bondKey) taggedFrame,
        .signed knownRecord.keystoreAlias (challengeBody taggedFrame)] := by decide
  have hforged : ¬ Verifies KnownAnswer.primitives (some otherRecord.bondKey) taggedFrame := by
    decide
  rw [SignsOnlyAuthentic, htrace] at hsigns
  obtain ⟨_, _, _, _, hseen, hverifies, -⟩ := hsigns _ _ (List.mem_cons_of_mem _ List.mem_cons_self)
  simp only [List.mem_cons, PhoneObservation.delivered.injEq, reduceCtorEq, List.not_mem_nil,
    or_false] at hseen
  obtain ⟨rfl, rfl, rfl, rfl⟩ := hseen
  exact hforged hverifies

/-- Whoever notifies the phone gets its signature over bytes of their choice, and so does the
desktop of a bond that was replaced. -/
theorem forged_frame_signed :
    ¬ SignsOnlyAuthentic KnownAnswer.primitives knownPhone (approvalRun .foreground forgedFrame) ∧
      ¬ SignsOnlyAuthentic KnownAnswer.primitives knownPhone
        (approvalRun .background forgedFrame) ∧
      ¬ SignsOnlyAuthentic KnownAnswer.primitives knownPhone (repairedRun otherRecord) := by
  have hforged : ¬ Verifies KnownAnswer.primitives (some knownRecord.bondKey) forgedFrame := by
    decide
  exact ⟨mt (approvalRun_signsOnlyAuthentic_iff knownPhone_ready _ _).mp hforged,
    mt (approvalRun_signsOnlyAuthentic_iff knownPhone_ready _ _).mp hforged,
    outdated_frame_signed⟩

end Syauth.Android
