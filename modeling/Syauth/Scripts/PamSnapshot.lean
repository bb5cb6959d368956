import Syauth.Core.Frame
import Syauth.Program.Fallible
import Syauth.Text.Lines

/-! # The state that the update check watches

`snapshot`, `pacnew_files` and `check_dependencies` of `scripts/check-pam-update.py`.  What the
file system, `pacman` and `ldd` answer is an input.
-/

namespace Syauth.Scripts

open Text

/-! ## What is watched -/

def modulePath : String := "/usr/lib/security/pam_syauth.so"

def trackedPackages : List String :=
  ["kscreenlocker", "plasma-desktop", "pam", "pambase", "glibc", "sudo"]

def trackedServices : List String :=
  ["kde", "kde-fingerprint", "sudo", "system-auth", "system-login", "system-local-login"]

def pamFiles : List String :=
  ["/etc/pam.d", "/usr/lib/pam.d"].flatMap fun directory =>
    trackedServices.map fun service => directory ++ "/" ++ service

def trackedFiles : List String := pamFiles ++ [modulePath]

/-! ## Strings -/

/-- The characters that `str.split` and `str.strip` take for white space. -/
def isSpace (c : Char) : Bool :=
  let n := c.toNat
  (0x9 ≤ n && n ≤ 0xD) || (0x1C ≤ n && n ≤ 0x20) || n == 0x85 || n == 0xA0 || n == 0x1680 ||
    (0x2000 ≤ n && n ≤ 0x200A) || n == 0x2028 || n == 0x2029 || n == 0x202F || n == 0x205F ||
    n == 0x3000

/-- The characters at which `str.splitlines` ends a line. -/
def isLineBoundary (c : Char) : Bool :=
  let n := c.toNat
  (0xA ≤ n && n ≤ 0xD) || (0x1C ≤ n && n ≤ 0x1E) || n == 0x85 || n == 0x2028 || n == 0x2029

/-- `splitlines` behind a part of the current line. -/
def splitLinesFrom (line : List Char) : List Char → List (List Char)
  | [] => if line = [] then [] else [line]
  | '\r' :: '\n' :: rest => line :: splitLinesFrom [] rest
  | c :: rest =>
      if isLineBoundary c then line :: splitLinesFrom [] rest
      else splitLinesFrom (line ++ [c]) rest

def splitLines (text : String) : List (List Char) := splitLinesFrom [] text.toList

def strip (text : List Char) : List Char := (text.dropWhile isSpace).rdropWhile isSpace

/-- `split(maxsplit=1)`: the first word and what is behind it. -/
def splitFirst (line : List Char) : List (List Char) :=
  let start := line.dropWhile isSpace
  let word := start.takeWhile fun c => !isSpace c
  let rest := (start.dropWhile fun c => !isSpace c).dropWhile isSpace
  if word = [] then [] else if rest = [] then [word] else [word, rest]

/-- `root / name.lstrip("/")` -/
def underRoot (root name : String) : String :=
  (if root.endsWith "/" then root else root ++ "/") ++
    String.ofList (name.toList.dropWhile (· == '/'))

/-! ## The system -/

/-- The exceptions that `main` tells the operator about. -/
inductive CheckError where
  | fileNotFound (message : String)
  | os (message : String)
  | value (message : String)
  | runtime (message : String)
  | subprocess (message : String)
  deriving DecidableEq

structure CompletedProcess where
  returncode : Int
  stdout : String
  stderr : String
  deriving DecidableEq

structure FileMetadata where
  uid : Nat
  mode : Nat
  deriving DecidableEq

/-- What the system answers at one time, by path. -/
structure SystemState where
  readBytes : String → Except CheckError Bytes
  pathExists : String → Except CheckError Bool
  stat : String → Except CheckError FileMetadata
  /-- The first four bytes of a file. -/
  readStart : String → Except CheckError Bytes
  pacman : Except CheckError CompletedProcess
  ldd : String → Except CheckError CompletedProcess

/-- A dictionary of texts or `None`. -/
abbrev Entries := List (String × Option String)

/-- The value of a key that is there. -/
def Entries.get (entries : Entries) (key : String) : Option String :=
  (entries.lookup key).getD none

structure Snapshot where
  files : Entries
  packages : Entries
  deriving DecidableEq

section Model

variable (sha256 : Bytes → Octets 32) (system : SystemState) (root : String)

def fileHash (path : String) : Except CheckError (Option String) :=
  match system.readBytes path with
  | .ok bytes => .ok (some (hexLowercase (sha256 bytes).val))
  | .error (.fileNotFound _) => .ok none
  | .error err => .error err

def fileHashes : List String → Except CheckError Entries
  | [] => .ok []
  | name :: rest => do
      let digest ← fileHash sha256 system (underRoot root name)
      let hashes ← fileHashes rest
      return (name, digest) :: hashes

/-- `dict` of the words of each line, the last one first; each line has two. -/
def dictOfLines (entries : List (String × String)) :
    List (List Char) → Except CheckError (List (String × String))
  | [] => .ok entries
  | line :: rest =>
      match splitFirst line with
      | [name, version] => dictOfLines ((String.ofList name, String.ofList version) :: entries) rest
      | words =>
          .error (.value ("dictionary update sequence element #" ++ toString entries.length ++
            " has length " ++ toString words.length ++ "; 2 is required"))

def packageVersions : Except CheckError Entries := do
  let result ← system.pacman
  if result.returncode ≠ 0 ∧ result.returncode ≠ 1 then
    throw (.runtime ("pacman package query failed: " ++
      String.ofList (strip result.stderr.toList)))
  let installed ← dictOfLines [] (splitLines result.stdout)
  return trackedPackages.map fun name => (name, installed.lookup name)

def snapshot : Except CheckError Snapshot := do
  let files ← fileHashes sha256 system root trackedFiles
  let packages ← packageVersions system
  return ⟨files, packages⟩

def pacnewAmong : List String → Except CheckError (List String)
  | [] => .ok []
  | name :: rest => do
      let present ← system.pathExists (underRoot root (name ++ ".pacnew"))
      let pending ← pacnewAmong rest
      return if present then (name ++ ".pacnew") :: pending else pending

def pacnewFiles : Except CheckError (List String) := pacnewAmong system root pamFiles

/-- `b"\x7fELF"` -/
def elfMagic : Bytes := [0x7F, 0x45, 0x4C, 0x46]

def checkDependencies (path : String) : Except CheckError (List String) := do
  let metadata ← system.stat path
  if metadata.uid ≠ 0 ∨ metadata.mode &&& 0o022 ≠ 0 then
    return ["The PAM module must be owned by root and not writable by group or others. " ++
      "Check its ownership and permissions."]
  let start ← system.readStart path
  if start ≠ elfMagic then
    return ["The PAM module is not an ELF library. Reinstall a trusted build."]
  let result ← system.ldd path
  let output := result.stdout ++ result.stderr
  let errors := ((splitLines output).filter fun line =>
    contains "not found".toList line || contains "undefined symbol:".toList line).map strip
  if result.returncode ≠ 0 ∨ errors ≠ [] then
    let joined := "\n".intercalate (errors.map String.ofList)
    let stripped := String.ofList (strip output.toList)
    let detail :=
      if joined ≠ "" then joined
      else if stripped ≠ "" then stripped
      else "ldd exited with " ++ toString result.returncode
    return ["The PAM module has a loader or dependency problem. " ++
      "Restore its libraries or rebuild/reinstall it:\n" ++ detail]
  return []

end Model

/-! ## What a state shows -/

/-- One entry for each name. -/
def Entries.tabulate (names : List String) (value : String → Option String) : Entries :=
  names.map fun name => (name, value name)

theorem Entries.get_tabulate {names : List String} {name : String} (hmem : name ∈ names)
    (value : String → Option String) : (tabulate names value).get name = value name := by
  unfold tabulate get
  induction names with
  | nil => exact absurd hmem List.not_mem_nil
  | cons first names ih =>
      rw [List.map_cons, List.lookup_cons]
      by_cases heq : name = first
      · rw [heq, beq_self_eq_true, Option.getD_some]
      · rw [beq_false_of_ne heq]
        exact ih ((List.mem_cons.mp hmem).resolve_left heq)

theorem Entries.lookup_of_mem {entries : Entries} {name : String}
    (hmem : name ∈ entries.map Prod.fst) : entries.lookup name = some (entries.get name) := by
  unfold get
  induction entries with
  | nil => exact absurd hmem List.not_mem_nil
  | cons entry entries ih =>
      obtain ⟨first, value⟩ := entry
      rw [List.lookup_cons]
      by_cases heq : name = first
      · rw [heq, beq_self_eq_true, Option.getD_some]
      · rw [beq_false_of_ne heq]
        exact ih ((List.mem_cons.mp hmem).resolve_left heq)

/-- A table agrees with others where its values do. -/
theorem Entries.forall_get_tabulate {names : List String} {value : String → Option String}
    {entries : Entries} :
    (∀ name ∈ names, (tabulate names value).get name = entries.get name) ↔
      ∀ name ∈ names, value name = entries.get name := by
  apply forall₂_congr
  intro name hmem
  rw [get_tabulate hmem]

def Snapshot.tabulate (digest version : String → Option String) : Snapshot where
  files := Entries.tabulate trackedFiles digest
  packages := Entries.tabulate trackedPackages version

section Lemmas

variable {sha256 : Bytes → Octets 32} {system : SystemState} {root : String}

/-- A digest has 64 digits of base 16. -/
theorem digest_of_fileHash {path digest : String}
    (hhash : fileHash sha256 system path = .ok (some digest)) :
    digest.toList.length = 64 ∧ ∀ c ∈ digest.toList, c ∈ hexChars := by
  unfold fileHash at hhash
  split at hhash
  next bytes hread =>
    cases hhash
    refine ⟨?_, fun c hmem => mem_hexChars_of_mem_hexLowercase hmem⟩
    rw [length_hexLowercase, (sha256 bytes).property]
  next => cases hhash
  next => cases hhash

theorem fileHashes_eq_ok_iff {names : List String} {hashes : Entries} :
    fileHashes sha256 system root names = .ok hashes ↔
      ∃ digest : String → Option String,
        (∀ name ∈ names, fileHash sha256 system (underRoot root name) = .ok (digest name)) ∧
          hashes = Entries.tabulate names digest := by
  induction names generalizing hashes with
  | nil =>
      constructor
      · intro hnone
        cases hnone
        exact ⟨fun _ => none, fun _ hmem => absurd hmem List.not_mem_nil, rfl⟩
      · rintro ⟨digest, -, rfl⟩
        rfl
  | cons name names ih =>
      unfold fileHashes
      simp only [Program.bind_eq_ok_iff, ih]
      constructor
      · rintro ⟨first, hfirst, rest, ⟨digest, hdigest, rfl⟩, hhashes⟩
        cases hhashes
        -- a name that comes twice has the same digest twice
        refine ⟨Function.update digest name first, ?_, ?_⟩
        · intro other hmem
          by_cases heq : other = name
          · rw [heq, Function.update_self, hfirst]
          · rw [Function.update_of_ne heq]
            exact hdigest other ((List.mem_cons.mp hmem).resolve_left heq)
        · have hrest : Entries.tabulate names digest =
              Entries.tabulate names (Function.update digest name first) := by
            apply List.map_congr_left
            intro other hmem
            by_cases heq : other = name
            · subst heq
              rw [Function.update_self, Except.ok.inj ((hdigest other hmem).symm.trans hfirst)]
            · rw [Function.update_of_ne heq]
          rw [hrest, Entries.tabulate, Entries.tabulate, List.map_cons, Function.update_self]
      · rintro ⟨digest, hdigest, rfl⟩
        exact ⟨digest name, hdigest name List.mem_cons_self, _,
          ⟨digest, fun other hmem => hdigest other (List.mem_cons_of_mem _ hmem), rfl⟩, rfl⟩

theorem tabulate_of_packageVersions {packages : Entries}
    (hpackages : packageVersions system = .ok packages) :
    ∃ version, packages = Entries.tabulate trackedPackages version := by
  unfold packageVersions at hpackages
  simp only [Program.bind_eq_ok_iff, Program.guard_eq_ok_iff] at hpackages
  obtain ⟨result, -, -, installed, -, hpackages⟩ := hpackages
  cases hpackages
  exact ⟨fun name => List.lookup name installed, rfl⟩

variable (sha256 system root) in
/-- The digests and the versions that a state has under the tracked names. -/
structure Observes (digest version : String → Option String) : Prop where
  files : ∀ name ∈ trackedFiles, fileHash sha256 system (underRoot root name) = .ok (digest name)
  packages : packageVersions system = .ok (Entries.tabulate trackedPackages version)

theorem snapshot_eq_ok_iff {current : Snapshot} :
    snapshot sha256 system root = .ok current ↔
      ∃ digest version, Observes sha256 system root digest version ∧
        current = Snapshot.tabulate digest version := by
  unfold snapshot
  simp only [Program.bind_eq_ok_iff, fileHashes_eq_ok_iff]
  constructor
  · rintro ⟨files, ⟨digest, hdigest, rfl⟩, packages, hpackages, hcurrent⟩
    cases hcurrent
    obtain ⟨version, rfl⟩ := tabulate_of_packageVersions hpackages
    exact ⟨digest, version, ⟨hdigest, hpackages⟩, rfl⟩
  · rintro ⟨digest, version, hobserves, rfl⟩
    exact ⟨_, ⟨digest, hobserves.files, rfl⟩, _, hobserves.packages, rfl⟩

theorem pacnewFiles_eq_nil_iff :
    pacnewFiles system root = .ok [] ↔
      ∀ name ∈ pamFiles, system.pathExists (underRoot root (name ++ ".pacnew")) = .ok false := by
  unfold pacnewFiles
  induction pamFiles with
  | nil => exact ⟨fun _ _ hmem => absurd hmem List.not_mem_nil, fun _ => rfl⟩
  | cons name names ih =>
      unfold pacnewAmong
      simp only [Program.bind_eq_ok_iff]
      rw [List.forall_mem_cons, ← ih]
      constructor
      · rintro ⟨present, hpresent, pending, hpending, hall⟩
        cases present with
        | true => cases hall
        | false =>
            cases hall
            exact ⟨hpresent, hpending⟩
      · rintro ⟨hpresent, hpending⟩
        exact ⟨false, hpresent, [], hpending, rfl⟩

end Lemmas

end Syauth.Scripts
