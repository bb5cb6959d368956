import Syauth.Cli.PairCommit
import Syauth.Program.Fallible
import Syauth.Text.Lines

/-! # The pair command

`run_pair_with_io` of `crates/syauth-cli/src/pair.rs`, with the helpers it calls.  The
radio is a backend whose answers are arbitrary, and the terminal may refuse any write.
What the command does to the disk goes through two calls, which the world records.
-/

namespace Syauth.Cli

open Presenced Text

structure PairOpts where
  adapter : String
  peer : Option String
  timeoutSecs : Nat
  yes : Bool
  waybar : Bool
  force : Bool
  scriptedOob : Option String

structure PairCandidate where
  name : String
  address : String
  deriving DecidableEq

structure LescOutcome where
  peerPubkey : Pubkey
  bondKey : BondKey
  numericCode : UInt32

structure AdapterInfo where
  name : String
  supportsLesc : Bool

inductive ConfirmSource where
  | stdio
  | autoAccept
  | waybar
  deriving DecidableEq

def ConfirmSource.fromOpts (opts : PairOpts) : ConfirmSource :=
  if opts.yes || opts.scriptedOob.isSome then .autoAccept
  else if opts.waybar then .waybar
  else .stdio

inductive RevokeReason where
  | timeout
  | operatorReject
  deriving DecidableEq

inductive PairingVariant where
  | passkeyConfirmation
  | justWorks
  | legacyPin
  | passkeyEntry
  | oobOnly
  deriving DecidableEq

/-- The whole of `PairError`; `commit` has the variants of the last phase. -/
inductive PairFlowError where
  | adapterMissing (name : String)
  | lescUnsupported (adapter hint : String)
  | noPeers
  | ambiguousPeer (names : List String)
  | peerNotFound
  | revoked (reason : RevokeReason)
  | backend (reason : String)
  | downgradeBlocked (actual : PairingVariant)
  | unsupportedPairingVariant (actual : PairingVariant)
  | commit (err : PairError)
  deriving DecidableEq

/-- When the backend answers, and with what. -/
structure LescAnswer where
  afterMillis : Nat
  result : Except PairFlowError LescOutcome

/-- Each call is made once at most, so that a run sees one answer of each.  What
`install_os_confirm` has installed is there when the comparison starts. -/
structure PairBackend where
  adapterInfo : String → Except PairFlowError AdapterInfo
  scanPeers : Except PairFlowError (List PairCandidate)
  initiateLescWithPeer : ConfirmSource → PairCandidate → Option LescAnswer

/-- The clock, the line that `read_line` gives, and how the file operations end. -/
structure PairEnv where
  now : Int
  line : Except Unit String
  readFault : Bool
  saveOutcome : Except BondError Unit
  keyWrite : PamKeyOutcome

inductive PairFile where
  | bondsToml
  | keyFile (name : String)
  deriving DecidableEq

/-- The files of `--bond-dir`, those that a call has started to write, and the terminal. -/
structure PairWorld where
  disk : PairDisk
  touched : List PairFile
  accepts : Nat → Bool
  output : List String

abbrev PairM := EStateM PairFlowError PairWorld

def lescUnsupportedHint : String :=
  "adapter does not advertise LE Secure Connections (kernel < 5.4 or older controller)"

def scriptedOobWarning : String :=
  "scripted-oob in effect; interactive OOB confirmation bypassed (S-019 e2e harness)"

def numericCodeNotObserved : UInt32 := 0

/-! ## The terminal -/

def write (text : String) : PairM Unit := fun w =>
  if w.accepts w.output.length then .ok () { w with output := w.output ++ [text] }
  else .error (.commit .io) w

def writeln (text : String) : PairM Unit := write (text ++ "\n")

def flush : PairM Unit := write ""

inductive OobConfirmation where
  | accept
  | reject
  deriving DecidableEq

def parseYesNo (line : String) : OobConfirmation :=
  let trimmed := ((line.toList.dropWhile isWhitespace).rdropWhile isWhitespace).map Char.toLower
  if trimmed = "y".toList ∨ trimmed = "yes".toList then .accept else .reject

def readOobConfirmation (line : Except Unit String) (code : List String) (autoAccept : Bool) :
    PairM OobConfirmation := do
  writeln "app-level OOB code (must match the phone):"
  forM code fun word => writeln s!"  {word}"
  write "OOB matches your phone? [y/N]: "
  flush
  if autoAccept then
    writeln "y (--yes)"
    pure .accept
  else
    let buf ← Program.ofExcept (line.mapError fun _ => .commit .io)
    pure (parseYesNo buf)

/-! ## Candidates -/

def filterCandidates (candidates : List PairCandidate) (peerFilter : Option String) :
    List PairCandidate :=
  match peerFilter with
  | none => candidates
  | some needle => candidates.filter fun c => contains needle.toList c.name.toList

def pickUnambiguous (filtered : List PairCandidate) (autoPick : Bool) :
    Except PairFlowError PairCandidate :=
  match filtered with
  | [] => .error .peerNotFound
  | [chosen] => .ok chosen
  | _ =>
      if autoPick then .error (.ambiguousPeer (filtered.map (·.name)))
      else .error (.backend
        "ambiguous peer without --yes; interactive picker is selected in run_pair_with_io")

/-! ## The flow -/

/-- `timeout` polls the call before its own timer, so that an answer at the deadline counts. -/
def timeout (deadlineMillis : Nat) (answer : Option LescAnswer) :
    Option (Except PairFlowError LescOutcome) :=
  match answer with
  | some answer => if answer.afterMillis ≤ deadlineMillis then some answer.result else none
  | none => none

def lescStep (opts : PairOpts) (backend : PairBackend) (chosen : PairCandidate) :
    Except PairFlowError LescOutcome :=
  match timeout (opts.timeoutSecs * 1000)
    (backend.initiateLescWithPeer (.fromOpts opts) chosen) with
  | some (.ok outcome) => .ok outcome
  | some (.error err) => .error err
  | none => .error (.revoked .timeout)

/-- `{:06}`. -/
def sixDigits (code : UInt32) : String :=
  String.ofList ((Nat.toDigits 10 code.toNat).leftpad 6 '0')

def numericCodeLine (code : UInt32) : String :=
  if code = numericCodeNotObserved then
    "BT numeric comparison confirmed (code not reported by the agent)"
  else
    let digits := sixDigits code
    s!"BT numeric code: {digits}   confirm on both devices"

section Flow

variable (prim : Primitives) (oobCode : BondKey → List String) (opts : PairOpts)
  (backend : PairBackend) (env : PairEnv)

/-- The adapter, the scan and the choice of a candidate. -/
def choosePeer : PairM PairCandidate := do
  let info ← Program.ofExcept (backend.adapterInfo opts.adapter)
  let lesc := if info.supportsLesc then "yes" else "no"
  writeln s!"adapter {info.name} ready (LE Secure Connections: {lesc})"
  -- No flag gets past this.
  if !info.supportsLesc then
    throw (.lescUnsupported info.name lescUnsupportedHint)
  else
    let candidates ← Program.ofExcept backend.scanPeers
    if candidates.isEmpty then
      throw .noPeers
    else
      let filtered := filterCandidates candidates opts.peer
      let chosen ← Program.ofExcept (pickUnambiguous filtered opts.yes)
      writeln s!"selected {chosen.name} ({chosen.address})"
      pure chosen

def warnScripted : PairM Unit :=
  if opts.scriptedOob.isSome then writeln ("warning: " ++ scriptedOobWarning) else pure ()

def confirmOob (outcome : LescOutcome) : PairM Unit := do
  warnScripted opts
  -- The value of `--scripted-oob` is compared with nothing.
  let autoAccept := opts.yes || opts.scriptedOob.isSome
  let answer ← readOobConfirmation env.line (oobCode outcome.bondKey) autoAccept
  match answer with
  | .accept => pure ()
  | .reject => throw (.revoked .operatorReject)

/-- The phases in which nothing is stored. -/
def confirmPeer : PairM (PairCandidate × LescOutcome) := do
  let chosen ← choosePeer opts backend
  writeln "initiating LE Secure Connections..."
  let outcome ← Program.ofExcept (lescStep opts backend chosen)
  writeln (numericCodeLine outcome.numericCode)
  confirmOob oobCode opts env outcome
  pure (chosen, outcome)

def buildBond (outcome : LescOutcome) (peer : PairCandidate) : Bond where
  peerId := peerIdFromPubkey prim outcome.peerPubkey
  pubkey := outcome.peerPubkey
  name := peer.name
  createdAt := env.now
  status := .bonded

/-- A call of the bond store, with its error wrapped. -/
def bondCall {α : Type} (result : Except BondError α) : PairM α :=
  Program.ofExcept (result.mapError fun err => .commit (.bond err))

def loadBonds : PairM BondStore := fun w =>
  (bondCall (BondStore.load prim (if env.readFault then .ioError else w.disk.bonds))).run w

def addBond (store : BondStore) (bond : Bond) : PairM BondStore :=
  match store.add bond with
  | .ok added => pure added
  | .error (.alreadyBonded existing) =>
      if opts.force then do
        -- Takes one record away; a second one of the phone makes the next call fail.
        let removed ← bondCall (store.remove existing)
        let added ← bondCall (removed.add bond)
        writeln s!"replaced existing bond peer_id={existing}"
        pure added
      else throw (.commit (.peerAlreadyBonded existing))
  | .error other => throw (.commit (.bond other))

def saveBonds (store : BondStore) : PairM Unit := fun w =>
  let (result, bonds) := store.save env.saveOutcome w.disk.bonds
  (bondCall result).run { w with
    disk := { w.disk with bonds := bonds }, touched := w.touched ++ [.bondsToml] }

def storeKey (peerId : String) (bondKey : BondKey) : PairM Unit := fun w =>
  let (result, keys) := writePamBondKey w.disk.keys peerId bondKey env.keyWrite
  (Program.ofExcept (result.mapError .commit)).run { w with
    disk := { w.disk with keys := keys }
    touched := w.touched ++ [.keyFile (peerId ++ bondKeyFileExt)] }

def updateBonds (bond : Bond) : PairM BondStore := do
  let store ← loadBonds prim env
  addBond opts store bond

def persistBond (chosen : PairCandidate) (peerId : String) (bondKey : BondKey)
    (added : BondStore) : PairM Unit := do
  saveBonds env added
  storeKey env peerId bondKey
  writeln (s!"bonded {chosen.name} id={peerId}; " ++ "run `syauth list` to verify")

/-- The last phase. -/
def commitBond (chosen : PairCandidate) (outcome : LescOutcome) : PairM Unit := do
  let bond := buildBond prim env outcome chosen
  let added ← updateBonds prim opts env bond
  persistBond env chosen bond.peerId outcome.bondKey added

/-- Its one value is the phase `Bonded`. -/
def runPairWithIo : PairM Unit := do
  let (chosen, outcome) ← confirmPeer oobCode opts backend env
  commitBond prim opts env chosen outcome

end Flow

/-! ## Up to the confirmation -/

/-- What a run has done to the disk. -/
def held (w : PairWorld) : PairDisk × List PairFile := (w.disk, w.touched)

open Program (Ensures final)

theorem run_write_of_accepts {w : PairWorld} (haccepts : w.accepts w.output.length = true)
    (text : String) : (write text).run w = .ok () { w with output := w.output ++ [text] } := by
  change write text w = _
  rw [write, if_pos haccepts]

theorem run_write_of_refuses {w : PairWorld} (hrefuses : w.accepts w.output.length = false)
    (text : String) : (write text).run w = .error (.commit .io) w := by
  change write text w = _
  rw [write, hrefuses]
  rfl

theorem ensures_write (text : String) : Ensures held (write text) fun _ => True where
  keeps w := by
    cases haccepts : w.accepts w.output.length with
    | true =>
        rw [run_write_of_accepts haccepts]
        rfl
    | false =>
        rw [run_write_of_refuses haccepts]
        rfl
  returns _ := trivial

/-- The operator said yes, or one of the two flags did. -/
def Accepted (opts : PairOpts) (env : PairEnv) : Prop :=
  opts.yes = true ∨ opts.scriptedOob.isSome = true ∨
    ∃ line, env.line = .ok line ∧ parseYesNo line = .accept

/-- Everything that stands before the disk. -/
structure Confirmed (opts : PairOpts) (backend : PairBackend) (env : PairEnv)
    (chosen : PairCandidate) (outcome : LescOutcome) : Prop where
  adapter : ∃ info, backend.adapterInfo opts.adapter = .ok info ∧ info.supportsLesc = true
  single : ∃ candidates, backend.scanPeers = .ok candidates ∧
    filterCandidates candidates opts.peer = [chosen]
  inTime : ∃ millis, backend.initiateLescWithPeer (.fromOpts opts) chosen =
    some ⟨millis, .ok outcome⟩ ∧ millis ≤ opts.timeoutSecs * 1000
  accepted : Accepted opts env

theorem eq_singleton_of_pickUnambiguous {filtered : List PairCandidate} {autoPick : Bool}
    {chosen : PairCandidate} (hpick : pickUnambiguous filtered autoPick = .ok chosen) :
    filtered = [chosen] := by
  unfold pickUnambiguous at hpick
  split at hpick
  · cases hpick
  · cases hpick
    rfl
  · split at hpick <;> cases hpick

theorem eq_some_of_lescStep {opts : PairOpts} {backend : PairBackend} {chosen : PairCandidate}
    {outcome : LescOutcome} (hstep : lescStep opts backend chosen = .ok outcome) :
    ∃ millis, backend.initiateLescWithPeer (.fromOpts opts) chosen =
      some ⟨millis, .ok outcome⟩ ∧ millis ≤ opts.timeoutSecs * 1000 := by
  unfold lescStep timeout at hstep
  cases hanswer : backend.initiateLescWithPeer (.fromOpts opts) chosen with
  | none =>
      rw [hanswer] at hstep
      cases hstep
  | some answer =>
      obtain ⟨millis, result⟩ := answer
      rw [hanswer] at hstep
      by_cases hlate : millis ≤ opts.timeoutSecs * 1000
      · simp only [if_pos hlate] at hstep
        cases result with
        | error err => cases hstep
        | ok outcome =>
            cases hstep
            exact ⟨millis, rfl, hlate⟩
      · simp only [if_neg hlate] at hstep
        cases hstep

section Confirmation

variable {opts : PairOpts} {backend : PairBackend} {env : PairEnv}

theorem ensures_choosePeer : Ensures held (choosePeer opts backend) fun chosen =>
    (∃ info, backend.adapterInfo opts.adapter = .ok info ∧ info.supportsLesc = true) ∧
      ∃ candidates, backend.scanPeers = .ok candidates ∧
        filterCandidates candidates opts.peer = [chosen] := by
  refine (Ensures.ofExcept _).bind fun info hinfo => (ensures_write _).bind fun _ _ => ?_
  split
  · exact .throw _
  · next hlesc =>
      refine (Ensures.ofExcept _).bind fun candidates hscan => ?_
      split
      · exact .throw _
      · refine (Ensures.ofExcept _).bind fun chosen hpick => (ensures_write _).bind fun _ _ => ?_
        refine .pure ⟨⟨info, hinfo, ?_⟩, candidates, hscan, eq_singleton_of_pickUnambiguous hpick⟩
        simpa using hlesc

theorem ensures_readOobConfirmation (line : Except Unit String) (code : List String)
    (autoAccept : Bool) : Ensures held (readOobConfirmation line code autoAccept) fun answer =>
      answer = .accept → autoAccept = true ∨ ∃ buf, line = .ok buf ∧ parseYesNo buf = .accept := by
  refine (ensures_write _).bind fun _ _ => ?_
  refine (Ensures.forM (fun _ => ensures_write _) code).bind fun _ _ => ?_
  refine (ensures_write _).bind fun _ _ => (ensures_write _).bind fun _ _ => ?_
  split
  · next hauto => exact (ensures_write _).bind fun _ _ => .pure fun _ => .inl hauto
  · refine (Ensures.ofExcept _).bind fun buf hread => .pure fun haccept => .inr ⟨buf, ?_, haccept⟩
    cases line with
    | ok line =>
        cases hread
        rfl
    | error err => cases hread

theorem ensures_warnScripted : Ensures held (warnScripted opts) fun _ => True := by
  unfold warnScripted
  split
  · exact ensures_write _
  · exact .pure trivial

theorem ensures_confirmOob (oobCode : BondKey → List String) (outcome : LescOutcome) :
    Ensures held (confirmOob oobCode opts env outcome) fun _ => Accepted opts env := by
  refine ensures_warnScripted.bind fun _ _ => ?_
  refine (ensures_readOobConfirmation _ _ _).bind fun answer hanswer => ?_
  cases answer with
  | reject => exact .throw _
  | accept =>
      refine .pure ?_
      rcases hanswer rfl with hauto | hline
      · rw [Bool.or_eq_true] at hauto
        exact hauto.imp_right .inl
      · exact .inr (.inr hline)

theorem ensures_confirmPeer (oobCode : BondKey → List String) :
    Ensures held (confirmPeer oobCode opts backend env) fun passed =>
      Confirmed opts backend env passed.1 passed.2 := by
  refine ensures_choosePeer.bind fun chosen hchosen => (ensures_write _).bind fun _ _ => ?_
  refine (Ensures.ofExcept _).bind fun outcome hstep => (ensures_write _).bind fun _ _ => ?_
  refine (ensures_confirmOob oobCode outcome).bind fun _ haccepted => .pure ?_
  exact ⟨hchosen.1, hchosen.2, eq_some_of_lescStep hstep, haccepted⟩

end Confirmation

/-! ## The record and the key -/

section Commit

variable {prim : Primitives} {opts : PairOpts} {env : PairEnv}

theorem run_addBond (store : BondStore) (bond : Bond) (w : PairWorld) :
    (addBond opts store bond).run w =
      match addPaired store bond opts.force with
      | .error err => .error (.commit err) w
      | .ok added =>
          if (store.findIndex bond.peerId).isSome then
            (writeln s!"replaced existing bond peer_id={bond.peerId}" >>= fun _ => pure added).run w
          else .ok added w := by
  by_cases hfound : (store.findIndex bond.peerId).isSome = true
  · have hadd : store.add bond = .error (.alreadyBonded bond.peerId) := if_pos hfound
    simp only [addBond, addPaired, hadd, if_pos hfound]
    cases opts.force with
    | false => rfl
    | true =>
        simp only [if_true]
        cases hremove : store.remove bond.peerId with
        | error err => rfl
        | ok removed =>
            have hremoved : (bondCall (.ok removed)).run w = .ok removed w := rfl
            rw [Program.run_bind_of_ok _ hremoved]
            dsimp only
            cases removed.add bond with
            | error err => rfl
            | ok added => rfl
  · have hadd : store.add bond = .ok ⟨store.bonds ++ [bond]⟩ := if_neg hfound
    simp only [addBond, addPaired, hadd, if_neg hfound]
    rfl

/-- The record goes into the loaded store as in the commit; on the way only the terminal
changes. -/
inductive Updated (prim : Primitives) (opts : PairOpts) (env : PairEnv) (bond : Bond)
    (w : PairWorld) : EStateM.Result PairFlowError PairWorld BondStore → Prop where
  | unreadable {err : BondError}
      (hload : BondStore.load prim (if env.readFault then .ioError else w.disk.bonds) =
        .error err) : Updated prim opts env bond w (.error (.commit (.bond err)) w)
  | refused {store : BondStore} {err : PairError}
      (hload : BondStore.load prim (if env.readFault then .ioError else w.disk.bonds) = .ok store)
      (hadded : addPaired store bond opts.force = .error err) :
      Updated prim opts env bond w (.error (.commit err) w)
  | unwritten {store added : BondStore}
      (hload : BondStore.load prim (if env.readFault then .ioError else w.disk.bonds) = .ok store)
      (hadded : addPaired store bond opts.force = .ok added)
      (hfound : (store.findIndex bond.peerId).isSome = true)
      (hrefuses : w.accepts w.output.length = false) :
      Updated prim opts env bond w (.error (.commit .io) w)
  | added {store added : BondStore} {t : PairWorld}
      (hload : BondStore.load prim (if env.readFault then .ioError else w.disk.bonds) = .ok store)
      (hadded : addPaired store bond opts.force = .ok added)
      (hline : (store.findIndex bond.peerId).isSome = true → w.accepts w.output.length = true)
      (hheld : held t = held w) : Updated prim opts env bond w (.ok added t)

theorem updateBonds_cases (bond : Bond) (w : PairWorld) :
    Updated prim opts env bond w ((updateBonds prim opts env bond).run w) := by
  have hbind : (updateBonds prim opts env bond).run w =
      ((bondCall (BondStore.load prim (if env.readFault then .ioError else w.disk.bonds))) >>=
        fun store => addBond opts store bond).run w := rfl
  rw [hbind]
  cases hload : BondStore.load prim (if env.readFault then .ioError else w.disk.bonds) with
  | error err => exact .unreadable hload
  | ok store =>
      have hloaded : (bondCall (.ok store)).run w = .ok store w := rfl
      rw [Program.run_bind_of_ok _ hloaded, run_addBond]
      cases hadded : addPaired store bond opts.force with
      | error err => exact .refused hload hadded
      | ok added =>
          dsimp only
          split
          · next hfound =>
              cases hline : w.accepts w.output.length with
              | true =>
                  have hprinted := run_write_of_accepts hline
                  rw [writeln, Program.run_bind_of_ok _ (hprinted _)]
                  exact .added hload hadded (fun _ => hline) rfl
              | false =>
                  have hfailed := run_write_of_refuses hline
                  rw [writeln, Program.run_bind_of_error _ (hfailed _)]
                  exact .unwritten hload hadded hfound hline
          · next hfound =>
              exact .added hload hadded (fun hsome => absurd hsome hfound) rfl

/-- The run ends as the commit does. -/
def EndsAs (result : EStateM.Result PairFlowError PairWorld Unit)
    (commit : Except PairError Unit × PairDisk) : Prop :=
  match result with
  | .ok _ t => commit = (.ok (), t.disk)
  | .error err t => ∃ cause, err = .commit cause ∧ commit = (.error cause, t.disk)

/-- The commit that a run arrives at; the last line is printed or not. -/
def flowCommit (opts : PairOpts) (env : PairEnv) (chosen : PairCandidate) (outcome : LescOutcome)
    (w : PairWorld) (bondedLine : Bool) : PairCommit where
  peerPubkey := outcome.peerPubkey
  bondKey := outcome.bondKey
  name := chosen.name
  now := env.now
  force := opts.force
  readFault := env.readFault
  replacedLine := w.accepts w.output.length
  saveOutcome := env.saveOutcome
  keyWrite := env.keyWrite
  bondedLine := bondedLine

/-- The world after the calls for `bonds.toml` and the key file. -/
def PairWorld.stored (w : PairWorld) (disk : PairDisk) (peerId : String) : PairWorld :=
  { w with
    disk := disk
    touched := w.touched ++ [.bondsToml] ++ [.keyFile (peerId ++ bondKeyFileExt)] }

/-- How far the two writes and the last line get. -/
inductive Persisted (env : PairEnv) (peerId : String) (bondKey : BondKey) (added : BondStore)
    (w : PairWorld) : EStateM.Result PairFlowError PairWorld Unit → Prop where
  | unsaved {err : BondError} (hsave : env.saveOutcome = .error err) :
      Persisted env peerId bondKey added w
        (.error (.commit (.bond err)) { w with touched := w.touched ++ [.bondsToml] })
  | keyFailed {err : PairError} {keys : KeysDir} (hsave : env.saveOutcome = .ok ())
      (hkey : writePamBondKey w.disk.keys peerId bondKey env.keyWrite = (.error err, keys)) :
      Persisted env peerId bondKey added w
        (.error (.commit err) (w.stored ⟨added.saved, keys⟩ peerId))
  | unwritten {keys : KeysDir} (hsave : env.saveOutcome = .ok ())
      (hkey : writePamBondKey w.disk.keys peerId bondKey env.keyWrite = (.ok (), keys)) :
      Persisted env peerId bondKey added w
        (.error (.commit .io) (w.stored ⟨added.saved, keys⟩ peerId))
  | written {keys : KeysDir} {text : String} (hsave : env.saveOutcome = .ok ())
      (hkey : writePamBondKey w.disk.keys peerId bondKey env.keyWrite = (.ok (), keys)) :
      Persisted env peerId bondKey added w
        (.ok () { w.stored ⟨added.saved, keys⟩ peerId with output := w.output ++ [text] })

theorem run_saveBonds (store : BondStore) (w : PairWorld) :
    (saveBonds env store).run w =
      (bondCall (store.save env.saveOutcome w.disk.bonds).1).run { w with
        disk := { w.disk with bonds := (store.save env.saveOutcome w.disk.bonds).2 }
        touched := w.touched ++ [.bondsToml] } := rfl

theorem run_storeKey (peerId : String) (bondKey : BondKey) (w : PairWorld) :
    (storeKey env peerId bondKey).run w =
      (Program.ofExcept ((writePamBondKey w.disk.keys peerId bondKey env.keyWrite).1.mapError
        .commit)).run { w with
          disk := { w.disk with
            keys := (writePamBondKey w.disk.keys peerId bondKey env.keyWrite).2 }
          touched := w.touched ++ [.keyFile (peerId ++ bondKeyFileExt)] } := rfl

theorem persistBond_cases (chosen : PairCandidate) (peerId : String) (bondKey : BondKey)
    (added : BondStore) (w : PairWorld) :
    Persisted env peerId bondKey added w
      ((persistBond env chosen peerId bondKey added).run w) := by
  unfold persistBond
  cases hsave : env.saveOutcome with
  | error err =>
      have hfirst : (saveBonds env added).run w = .error (.commit (.bond err))
          { w with touched := w.touched ++ [.bondsToml] } := by
        rw [run_saveBonds, hsave]
        rfl
      rw [Program.run_bind_of_error _ hfirst]
      exact .unsaved hsave
  | ok done =>
      let saved : PairWorld := { w with
        disk := { w.disk with bonds := added.saved }, touched := w.touched ++ [.bondsToml] }
      have hfirst : (saveBonds env added).run w = .ok () saved := by
        rw [run_saveBonds, hsave]
        rfl
      rw [Program.run_bind_of_ok _ hfirst]
      cases hkey : writePamBondKey w.disk.keys peerId bondKey env.keyWrite with
      | mk result keys =>
          let after := w.stored ⟨added.saved, keys⟩ peerId
          have hkeys : writePamBondKey saved.disk.keys peerId bondKey env.keyWrite =
            (result, keys) := hkey
          cases result with
          | error err =>
              have hsecond : (storeKey env peerId bondKey).run saved =
                  .error (.commit err) after := by
                rw [run_storeKey, hkeys]
                rfl
              rw [Program.run_bind_of_error _ hsecond]
              exact .keyFailed hsave hkey
          | ok done =>
              have hsecond : (storeKey env peerId bondKey).run saved = .ok () after := by
                rw [run_storeKey, hkeys]
                rfl
              rw [Program.run_bind_of_ok _ hsecond, writeln]
              cases hline : after.accepts after.output.length with
              | true =>
                  rw [run_write_of_accepts hline]
                  exact .written hsave hkey
              | false =>
                  rw [run_write_of_refuses hline]
                  exact .unwritten hsave hkey

/-- The writes of the commit. -/
def storePaired (disk : PairDisk) (run : PairCommit) (peerId : String) (added : BondStore) :
    Except PairError Unit × PairDisk :=
  match added.save run.saveOutcome disk.bonds with
  | (.error err, bonds) => (.error (.bond err), { disk with bonds := bonds })
  | (.ok (), bonds) =>
      match writePamBondKey disk.keys peerId run.bondKey run.keyWrite with
      | (.error err, keys) => (.error err, ⟨bonds, keys⟩)
      | (.ok (), keys) =>
          if run.bondedLine then (.ok (), ⟨bonds, keys⟩) else (.error .io, ⟨bonds, keys⟩)

theorem Persisted.endsAs {chosen : PairCandidate} {outcome : LescOutcome} {peerId : String}
    {added : BondStore} {w t : PairWorld}
    {result : EStateM.Result PairFlowError PairWorld Unit}
    (hpersisted : Persisted env peerId outcome.bondKey added t result) :
    ∃ bondedLine, EndsAs result
      (storePaired t.disk (flowCommit opts env chosen outcome w bondedLine) peerId added) := by
  cases hpersisted with
  | unsaved hsave =>
      refine ⟨true, _, rfl, ?_⟩
      simp only [storePaired, flowCommit, hsave, BondStore.save]
  | keyFailed hsave hkey =>
      refine ⟨true, _, rfl, ?_⟩
      simp only [storePaired, flowCommit, hsave, hkey, BondStore.save]
      rfl
  | unwritten hsave hkey =>
      refine ⟨false, _, rfl, ?_⟩
      simp only [storePaired, flowCommit, hsave, hkey, BondStore.save]
      rfl
  | written hsave hkey =>
      refine ⟨true, ?_⟩
      simp only [EndsAs, storePaired, flowCommit, hsave, hkey, BondStore.save]
      rfl

/-- Whatever comes of them, the first of the writes is the one of `bonds.toml`. -/
theorem Persisted.bondsToml_mem {peerId : String} {bondKey : BondKey} {added : BondStore}
    {w : PairWorld} {result : EStateM.Result PairFlowError PairWorld Unit}
    (hpersisted : Persisted env peerId bondKey added w result) :
    .bondsToml ∈ (final result).touched := by
  cases hpersisted with
  | unsaved hsave => exact List.mem_concat_self
  | keyFailed hsave hkey | unwritten hsave hkey | written hsave hkey =>
      exact List.mem_append_left _ List.mem_concat_self

theorem run_commitBond (chosen : PairCandidate) (outcome : LescOutcome) (w : PairWorld) :
    (commitBond prim opts env chosen outcome).run w =
      (updateBonds prim opts env (buildBond prim env outcome chosen) >>=
        persistBond env chosen (buildBond prim env outcome chosen).peerId outcome.bondKey).run w :=
  rfl

section Commits

variable {run : PairCommit} {disk : PairDisk} {store added : BondStore}

theorem commitPair_of_unreadable {err : BondError}
    (hload : BondStore.load prim (if run.readFault then .ioError else disk.bonds) = .error err) :
    commitPair prim disk run = (.error (.bond err), disk) := by
  simp only [commitPair, hload]

theorem commitPair_of_refused {err : PairError}
    (hload : BondStore.load prim (if run.readFault then .ioError else disk.bonds) = .ok store)
    (hadded : addPaired store (run.bond prim) run.force = .error err) :
    commitPair prim disk run = (.error err, disk) := by
  simp only [commitPair, hload, hadded]

theorem commitPair_of_unwritten
    (hload : BondStore.load prim (if run.readFault then .ioError else disk.bonds) = .ok store)
    (hadded : addPaired store (run.bond prim) run.force = .ok added)
    (hfound : (store.findIndex (run.bond prim).peerId).isSome = true)
    (hline : run.replacedLine = false) : commitPair prim disk run = (.error .io, disk) := by
  simp only [commitPair, hload, hadded, hfound, hline]
  rfl

theorem commitPair_of_updated
    (hload : BondStore.load prim (if run.readFault then .ioError else disk.bonds) = .ok store)
    (hadded : addPaired store (run.bond prim) run.force = .ok added)
    (hline : (store.findIndex (run.bond prim).peerId).isSome = true → run.replacedLine = true) :
    commitPair prim disk run = storePaired disk run (run.bond prim).peerId added := by
  have hshown : ((store.findIndex (run.bond prim).peerId).isSome && !run.replacedLine) = false := by
    cases hfound : (store.findIndex (run.bond prim).peerId).isSome with
    | false => rfl
    | true =>
        rw [hline hfound]
        rfl
  simp only [commitPair, hload, hadded, hshown, Bool.false_eq_true, if_false]
  rfl

end Commits

/-- The last phase is the commit, whatever has been printed before it. -/
theorem commitBond_endsAs (prim : Primitives) (opts : PairOpts) (env : PairEnv)
    (chosen : PairCandidate) (outcome : LescOutcome) (w : PairWorld) :
    ∃ bondedLine, EndsAs ((commitBond prim opts env chosen outcome).run w)
      (commitPair prim w.disk (flowCommit opts env chosen outcome w bondedLine)) := by
  let bond := buildBond prim env outcome chosen
  let commit := flowCommit opts env chosen outcome w
  have hcases : Updated prim opts env bond w ((updateBonds prim opts env bond).run w) :=
    updateBonds_cases bond w
  rw [run_commitBond]
  generalize hupdate : (updateBonds prim opts env bond).run w = result at hcases
  cases hcases with
  | unreadable hload =>
      have hcommit : commitPair prim w.disk (commit true) = _ := commitPair_of_unreadable hload
      rw [Program.run_bind_of_error _ hupdate]
      exact ⟨true, _, rfl, hcommit⟩
  | refused hload hadded =>
      have hcommit : commitPair prim w.disk (commit true) = _ :=
        commitPair_of_refused hload hadded
      rw [Program.run_bind_of_error _ hupdate]
      exact ⟨true, _, rfl, hcommit⟩
  | unwritten hload hadded hfound hrefuses =>
      have hcommit : commitPair prim w.disk (commit true) = _ :=
        commitPair_of_unwritten hload hadded hfound hrefuses
      rw [Program.run_bind_of_error _ hupdate]
      exact ⟨true, _, rfl, hcommit⟩
  | @added store added t hload hadded hline hheld =>
      have hdisk : t.disk = w.disk := congrArg Prod.fst hheld
      obtain ⟨bondedLine, hpersist⟩ : ∃ bondedLine, EndsAs _
          (storePaired t.disk (commit bondedLine) bond.peerId added) :=
        (persistBond_cases chosen bond.peerId outcome.bondKey added t).endsAs
      have hcommit : commitPair prim w.disk (commit bondedLine) = _ :=
        commitPair_of_updated hload hadded hline
      rw [Program.run_bind_of_ok _ hupdate]
      refine ⟨bondedLine, ?_⟩
      rw [hcommit, ← hdisk]
      exact hpersist

theorem EndsAs.disk_eq {result : EStateM.Result PairFlowError PairWorld Unit}
    {commit : Except PairError Unit × PairDisk} (hends : EndsAs result commit) :
    (final result).disk = commit.2 := by
  cases result with
  | ok done t => rw [show commit = _ from hends]; rfl
  | error err t =>
      obtain ⟨cause, -, hcommit⟩ := hends
      rw [hcommit]
      rfl

/-- Before the save nothing has been done to the disk. -/
theorem held_commitBond {chosen : PairCandidate} {outcome : LescOutcome} {w : PairWorld}
    (hunsaved : .bondsToml ∉ (final ((commitBond prim opts env chosen outcome).run w)).touched) :
    held (final ((commitBond prim opts env chosen outcome).run w)) = held w := by
  let bond := buildBond prim env outcome chosen
  have hcases : Updated prim opts env bond w ((updateBonds prim opts env bond).run w) :=
    updateBonds_cases bond w
  rw [run_commitBond] at hunsaved ⊢
  generalize hupdate : (updateBonds prim opts env bond).run w = result at hcases
  cases hcases with
  | unreadable hload | refused hload hadded | unwritten hload hadded hfound hrefuses =>
      rw [Program.run_bind_of_error _ hupdate]
      rfl
  | added hload hadded hline hheld =>
      rw [Program.run_bind_of_ok _ hupdate] at hunsaved
      exact absurd (persistBond_cases ..).bondsToml_mem hunsaved

end Commit

/-! ## The gate -/

/-- A run before it has done anything. -/
def PairWorld.start (disk : PairDisk) (accepts : Nat → Bool) : PairWorld := ⟨disk, [], accepts, []⟩

/-- What a run that ends with `result` has done to the disk it started from. -/
structure DiskGated (prim : Primitives) (opts : PairOpts) (backend : PairBackend) (env : PairEnv)
    (disk : PairDisk) (result : EStateM.Result PairFlowError PairWorld Unit) : Prop where
  gate : (final result).touched ≠ [] → ∃ chosen outcome, Confirmed opts backend env chosen outcome
  success : ∀ {t}, result = .ok () t → ∃ chosen outcome store added,
    Confirmed opts backend env chosen outcome ∧ BondStore.load prim disk.bonds = .ok store ∧
      Recorded store (buildBond prim env outcome chosen) opts.force added ∧
      t.disk.bonds = added.saved ∧
      t.disk.keys = Function.update disk.keys
        (peerIdFromPubkey prim outcome.peerPubkey ++ bondKeyFileExt) (.ok outcome.bondKey.val)
  /-- The save is the first thing that is done to the disk. -/
  unsaved : .bondsToml ∉ (final result).touched → (final result).disk = disk
  saveFailed : env.saveOutcome ≠ .ok () → (final result).disk = disk

section Gate

variable {prim : Primitives} {opts : PairOpts} {backend : PairBackend} {env : PairEnv}
  {chosen : PairCandidate} {outcome : LescOutcome} {w t : PairWorld}

/-- What a commit that returns leaves. -/
theorem disk_of_commitBond (hrun : (commitBond prim opts env chosen outcome).run w = .ok () t) :
    ∃ store added, BondStore.load prim w.disk.bonds = .ok store ∧
      Recorded store (buildBond prim env outcome chosen) opts.force added ∧
      t.disk.bonds = added.saved ∧
      t.disk.keys = Function.update w.disk.keys
        (peerIdFromPubkey prim outcome.peerPubkey ++ bondKeyFileExt) (.ok outcome.bondKey.val) := by
  obtain ⟨bondedLine, hends⟩ := commitBond_endsAs prim opts env chosen outcome w
  rw [hrun] at hends
  have hcommit : commitPair prim w.disk (flowCommit opts env chosen outcome w bondedLine) =
    (.ok (), t.disk) := hends
  by_cases hsaves : ∃ added,
      Saves prim w.disk (flowCommit opts env chosen outcome w bondedLine) added
  · obtain ⟨added, hsaved⟩ := hsaves
    obtain ⟨hdisk, hends⟩ := commitPair_of_saves hsaved
    rw [hcommit] at hdisk hends
    obtain ⟨hwritten, -⟩ := hends.mp rfl
    obtain ⟨-, -, store, hload, hadded, -⟩ := hsaved
    refine ⟨store, added, hload, recorded_of_addPaired hadded, congrArg PairDisk.bonds hdisk, ?_⟩
    rw [congrArg PairDisk.keys hdisk]
    simp only [flowCommit] at hwritten ⊢
    cases hkey : env.keyWrite with
    | written => rfl
    | _ => rw [hkey] at hwritten; cases hwritten
  · obtain ⟨err, hfailed⟩ := commitPair_of_not_saves (not_exists.mp hsaves)
    rw [hcommit] at hfailed
    cases hfailed

theorem disk_commitBond_of_saveFailed (hfailed : env.saveOutcome ≠ .ok ()) :
    (final ((commitBond prim opts env chosen outcome).run w)).disk = w.disk := by
  obtain ⟨bondedLine, hends⟩ := commitBond_endsAs prim opts env chosen outcome w
  have hsaves : ∀ added, ¬ Saves prim w.disk (flowCommit opts env chosen outcome w bondedLine)
    added := fun _ hsaved => hfailed hsaved.2.1
  obtain ⟨err, hcommit⟩ := commitPair_of_not_saves hsaves
  rw [hends.disk_eq, hcommit]

/-- For every backend, terminal, operator and set of flags: the disk is behind the gate. -/
theorem runPairWithIo_gated (prim : Primitives) (oobCode : BondKey → List String)
    (opts : PairOpts) (backend : PairBackend) (env : PairEnv) (disk : PairDisk)
    (accepts : Nat → Bool) :
    DiskGated prim opts backend env disk
      ((runPairWithIo prim oobCode opts backend env).run (.start disk accepts)) := by
  have hconfirm : Ensures held (confirmPeer oobCode opts backend env) _ :=
    ensures_confirmPeer oobCode
  have hkept := hconfirm.keeps (.start disk accepts)
  have hbind : (runPairWithIo prim oobCode opts backend env).run (.start disk accepts) =
      (confirmPeer oobCode opts backend env >>= fun passed =>
        commitBond prim opts env passed.1 passed.2).run (.start disk accepts) := rfl
  rw [hbind]
  cases hrun : (confirmPeer oobCode opts backend env).run (.start disk accepts) with
  | error err t =>
      rw [hrun] at hkept
      rw [Program.run_bind_of_error _ hrun]
      have hdisk : t.disk = disk := congrArg Prod.fst hkept
      have htouched : t.touched = [] := congrArg Prod.snd hkept
      constructor
      · exact fun hwrites => absurd htouched hwrites
      · intro final hok
        cases hok
      · exact fun _ => hdisk
      · exact fun _ => hdisk
  | ok passed t =>
      rw [hrun] at hkept
      have hpassed := hconfirm.returns hrun
      have hdisk : t.disk = disk := congrArg Prod.fst hkept
      rw [Program.run_bind_of_ok _ hrun, ← hdisk]
      constructor
      · exact fun _ => ⟨passed.1, passed.2, hpassed⟩
      · intro final hok
        obtain ⟨store, added, hstored⟩ := disk_of_commitBond hok
        exact ⟨passed.1, passed.2, store, added, hpassed, hstored⟩
      · intro hunsaved
        exact congrArg Prod.fst (held_commitBond hunsaved)
      · exact disk_commitBond_of_saveFailed

/-- One phone, which answers at once, and an operator who types the answer out. -/
example :
    let backend : PairBackend :=
      ⟨fun name => .ok ⟨name, true⟩, .ok [⟨"Pixel 8", "AA:BB:CC:DD:EE:FF"⟩],
        fun _ _ => some ⟨0, .ok ⟨KnownAnswer.pubkey, KnownAnswer.bondKey, 42⟩⟩⟩
    let opts : PairOpts := ⟨"hci0", some "Pixel", 60, false, false, false, none⟩
    let env : PairEnv := ⟨0, .ok " Yes\r\n", false, .ok (), .written⟩
    ∃ t, (runPairWithIo KnownAnswer.primitives (fun _ => ["cat"]) opts backend env).run
      (.start emptyDisk fun _ => true) = .ok () t := by
  exact ⟨_, rfl⟩

end Gate

end Syauth.Cli
