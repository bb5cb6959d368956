import Syauth.Program.Fallible
import Syauth.Scripts.PamSnapshot
import Syauth.Text.Json

/-! # The baseline of the update check

`read_baseline`, `check` and `record_baseline` of `scripts/check-pam-update.py`.  Each call
of the recording that can raise has an answer of its own; `json` is a parameter.
-/

namespace Syauth.Scripts

open Text Text.Json

/-! ## The recorded document -/

/-- `json.dump` with two spaces of indentation, and `json.loads`.  The members of a
dictionary have distinct names. -/
structure JsonCodec where
  dump : Value → List Char
  loads : List Char → Except CheckError Value

/-- A document with a line end behind it is read as it was. -/
def JsonCodec.RoundTrips (json : JsonCodec) (value : Value) : Prop :=
  json.loads (json.dump value ++ ['\n']) = .ok value

def entryValue : Option String → Value
  | none => .null
  | some text => .string text.toList

def Entries.toValue (entries : Entries) : Value :=
  .object (entries.map fun entry => (entry.1.toList, entryValue entry.2))

def Snapshot.toValue (current : Snapshot) : Value :=
  .object [("files".toList, current.files.toValue), ("packages".toList, current.packages.toValue)]

/-! ## Reading -/

/-- A text that is accepted, or `None`. -/
def textOrNone (accepts : List Char → Bool) : Value → Option (Option String)
  | .null => some none
  | .string text => if accepts text then some (some (String.ofList text)) else none
  | _ => none

def entriesOf (accepts : List Char → Bool) : List (List Char × Value) → Option Entries
  | [] => some []
  | (name, value) :: rest =>
      match textOrNone accepts value, entriesOf accepts rest with
      | some text, some entries => some ((String.ofList name, text) :: entries)
      | _, _ => none

/-- A dictionary in a dictionary. -/
def dictAt (members : List (List Char × Value)) (name : String) :
    Option (List (List Char × Value)) :=
  match members.lookup name.toList with
  | some (.object inner) => some inner
  | _ => none

/-- The names of a dictionary are these. -/
def SameNames (members : List (List Char × Value)) (names : List String) : Prop :=
  (∀ member ∈ members, String.ofList member.1 ∈ names) ∧
    ∀ name ∈ names, ∃ member ∈ members, String.ofList member.1 = name

instance (members : List (List Char × Value)) (names : List String) :
    Decidable (SameNames members names) :=
  inferInstanceAs (Decidable (_ ∧ _))

def isDigest (text : List Char) : Bool :=
  text.length == 64 && text.all fun c => "0123456789abcdef".toList.contains c

/-- What `read_baseline` returns. -/
structure Baseline where
  files : Entries
  packages : Entries
  tracksFiles : ∀ name, name ∈ files.map Prod.fst ↔ name ∈ trackedFiles
  tracksPackages : ∀ name, name ∈ packages.map Prod.fst ↔ name ∈ trackedPackages
  hasModule : files.get modulePath ≠ none

theorem names_of_entriesOf {accepts : List Char → Bool} {members : List (List Char × Value)}
    {entries : Entries} (hentries : entriesOf accepts members = some entries) :
    entries.map Prod.fst = members.map fun member => String.ofList member.1 := by
  induction members generalizing entries with
  | nil =>
      cases hentries
      rfl
  | cons member members ih =>
      obtain ⟨name, value⟩ := member
      unfold entriesOf at hentries
      split at hentries
      next text rest htext hrest =>
        cases hentries
        rw [List.map_cons, List.map_cons, ih hrest]
      next => cases hentries

theorem SameNames.mem_iff {accepts : List Char → Bool} {members : List (List Char × Value)}
    {names : List String} {entries : Entries} (hnames : SameNames members names)
    (hentries : entriesOf accepts members = some entries) (name : String) :
    name ∈ entries.map Prod.fst ↔ name ∈ names := by
  rw [names_of_entriesOf hentries, List.mem_map]
  constructor
  · rintro ⟨member, hmem, rfl⟩
    exact hnames.1 member hmem
  · exact hnames.2 name

def baselineMismatch : CheckError :=
  .value ("Baseline does not match this checker. " ++
    "Review and test the setup, then record a new baseline.")

def readBaseline (json : JsonCodec) (text : List Char) : Except CheckError Baseline :=
  match json.loads text with
  | .error err => .error err
  | .ok (.object members) =>
      match dictAt members "files", dictAt members "packages" with
      | some files, some packages =>
          if hnames : SameNames files trackedFiles ∧ SameNames packages trackedPackages then
            match hfiles : entriesOf isDigest files with
            | none =>
                .error (.value ("Baseline contains an invalid file hash. " ++
                  "Review and record a new baseline."))
            | some digests =>
                match hpackages : entriesOf (fun _ => true) packages with
                | none =>
                    .error (.value ("Baseline contains an invalid package version. " ++
                      "Review and record a new baseline."))
                | some versions =>
                    if hmodule : digests.get modulePath = none ∨
                        digests.get modulePath = some "" then
                      .error (.value ("Baseline contains no PAM module. " ++
                        "Restore the module and record a tested baseline."))
                    else
                      .ok
                        { files := digests
                          packages := versions
                          tracksFiles := hnames.1.mem_iff hfiles
                          tracksPackages := hnames.2.mem_iff hpackages
                          hasModule := fun hnone => hmodule (.inl hnone) }
          else .error baselineMismatch
      | _, _ => .error baselineMismatch
  | .ok _ => .error baselineMismatch

/-- Every tracked name is a key of an accepted baseline, so that no lookup of a check raises. -/
theorem Baseline.lookup_of_tracked (baseline : Baseline) :
    (∀ name ∈ trackedFiles, baseline.files.lookup name = some (baseline.files.get name)) ∧
      ∀ name ∈ trackedPackages,
        baseline.packages.lookup name = some (baseline.packages.get name) := by
  constructor
  · intro name hmem
    exact Entries.lookup_of_mem ((baseline.tracksFiles name).mpr hmem)
  · intro name hmem
    exact Entries.lookup_of_mem ((baseline.tracksPackages name).mpr hmem)

/-! ## Checking -/

def fileFinding (current baseline : Entries) (name : String) : Option String :=
  if current.get name = baseline.get name then none
  else
    let action :=
      if name = modulePath then
        "Inspect the installed build and retest authentication before accepting it."
      else if name.startsWith "/usr/lib/pam.d/" then
        "Review the packaged PAM changes and merge them into local overrides if needed."
      else
        "Review the local PAM change and restore or adjust the configuration if needed."
    let state := if current.get name = none then "missing" else "changed"
    some (name ++ " is " ++ state ++ ". " ++ action)

/-- `version or 'absent'` -/
def orAbsent : Option String → String
  | none => "absent"
  | some version => if version = "" then "absent" else version

def packageFinding (current baseline : Entries) (name : String) : Option String :=
  let old := baseline.get name
  let new := current.get name
  if old = new then none
  else
    some (name ++ ": " ++ orAbsent old ++ " -> " ++ orAbsent new ++
      ". Retest sudo, empty-Enter phone unlock, password unlock, and timeout fallback.")

def pacnewFinding (name : String) : String :=
  "Review and merge or remove " ++ name ++ " before accepting a new baseline."

section Model

variable (sha256 : Bytes → Octets 32) (system : SystemState) (root : String)

def check (baseline : Baseline) : Except CheckError (List String) := do
  let current ← snapshot sha256 system root
  let files := trackedFiles.filterMap (fileFinding current.files baseline.files)
  let packages := trackedPackages.filterMap (packageFinding current.packages baseline.packages)
  let pending ← pacnewFiles system root
  let findings := files ++ packages ++ pending.map pacnewFinding
  if current.files.get modulePath = baseline.files.get modulePath then
    let problems ← checkDependencies system (underRoot root modulePath)
    return findings ++ problems
  return findings

/-! ## Recording -/

/-- What `record_baseline` asks before it touches the disk. -/
def reviewed : Except CheckError Snapshot := do
  let current ← snapshot sha256 system root
  if current.files.get modulePath = none then
    throw (.value "Cannot record a baseline without the PAM module.")
  if current.packages.any fun entry => entry.2 = none then
    throw (.value "Cannot record a baseline while a watched package is missing.")
  let pending ← pacnewFiles system root
  if pending ≠ [] then
    throw (.value ("Review and resolve these files first: " ++ ", ".intercalate pending))
  let problems ← checkDependencies system (underRoot root modulePath)
  if problems ≠ [] then
    throw (.value ("\n".intercalate problems))
  return current

/-- The calls behind the checks. -/
inductive WriteCall where
  | mkdir
  | createTemporary
  | dump
  | write
  | flush
  | fsync
  | fchmod
  | replace
  | unlink
  | close
  deriving DecidableEq

/-- The baseline and the temporary file next to it. -/
structure Disk where
  baseline : Option (List Char)
  temporary : Option (List Char)
  deriving DecidableEq

def Disk.append (text : List Char) (disk : Disk) : Disk :=
  { disk with temporary := disk.temporary.map (· ++ text) }

/-- A call that raises leaves the disk as it is. -/
def perform (answers : WriteCall → Option CheckError) (step : WriteCall) (effect : Disk → Disk) :
    EStateM CheckError Disk Unit :=
  match answers step with
  | none => modify effect
  | some err => throw err

variable (json : JsonCodec) (answers : WriteCall → Option CheckError)

/-- The complete write, up to the replacement. -/
def fillTemporary (current : Snapshot) : EStateM CheckError Disk Unit := do
  perform answers .dump (Disk.append (json.dump current.toValue))
  perform answers .write (Disk.append ['\n'])
  perform answers .flush id
  perform answers .fsync id
  perform answers .fchmod id

def recordBaseline : EStateM CheckError Disk Unit := do
  let current ← Program.ofExcept (reviewed sha256 system root)
  perform answers .mkdir id
  perform answers .createTemporary fun disk => { disk with temporary := some [] }
  try
    try
      fillTemporary json answers current
      perform answers .replace fun disk => ⟨disk.temporary, none⟩
    finally
      perform answers .unlink fun disk => { disk with temporary := none }
  finally
    perform answers .close id

end Model

end Syauth.Scripts
