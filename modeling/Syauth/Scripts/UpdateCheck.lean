import Syauth.Scripts.PamBaseline

/-! # Recorder, validator and checker together

A recorded baseline is read back as it was, and a check against it passes exactly while
nothing that is watched has changed.  The replacement of the old baseline stands before
two calls that can still raise.
-/

namespace Syauth.Scripts

open Text Text.Json

variable {sha256 : Bytes → Octets 32} {system : SystemState} {root : String} {json : JsonCodec}

/-! ## What is written is accepted -/

theorem isDigest_of_mem {text : List Char} (hlength : text.length = 64)
    (hdigits : ∀ c ∈ text, c ∈ hexChars) : isDigest text = true := by
  have hsame : "0123456789abcdef".toList = hexChars := by decide
  rw [isDigest, hlength, hsame, beq_self_eq_true, Bool.true_and, List.all_eq_true]
  exact fun c hmem => List.contains_iff_mem.mpr (hdigits c hmem)

theorem entriesOf_toValue {accepts : List Char → Bool} {entries : Entries}
    (haccepts : ∀ entry ∈ entries, ∀ text, entry.2 = some text → accepts text.toList = true) :
    entriesOf accepts (entries.map fun entry => (entry.1.toList, entryValue entry.2)) =
      some entries := by
  induction entries with
  | nil => rfl
  | cons entry entries ih =>
      obtain ⟨name, text⟩ := entry
      obtain ⟨hentry, hentries⟩ := List.forall_mem_cons.mp haccepts
      have htext : textOrNone accepts (entryValue text) = some text := by
        cases text with
        | none => rfl
        | some text =>
            rw [entryValue, textOrNone, hentry text rfl, if_pos rfl, String.ofList_toList]
      rw [List.map_cons, entriesOf, htext, ih hentries, String.ofList_toList]

theorem sameNames_tabulate (names : List String) (value : String → Option String) :
    SameNames ((Entries.tabulate names value).map fun entry =>
      (entry.1.toList, entryValue entry.2)) names := by
  unfold SameNames Entries.tabulate
  rw [List.map_map]
  constructor
  · intro member hmem
    obtain ⟨name, hname, rfl⟩ := List.mem_map.mp hmem
    rwa [Function.comp_apply, String.ofList_toList]
  · intro name hname
    exact ⟨_, List.mem_map_of_mem hname, String.ofList_toList⟩

/-- A document that meets every demand is accepted with its own entries. -/
theorem exists_baseline {text : List Char} {members files packages : List (List Char × Value)}
    {digests versions : Entries} (hloads : json.loads text = .ok (.object members))
    (hfiles : dictAt members "files" = some files)
    (hpackages : dictAt members "packages" = some packages)
    (hnames : SameNames files trackedFiles ∧ SameNames packages trackedPackages)
    (hdigests : entriesOf isDigest files = some digests)
    (hversions : entriesOf (fun _ => true) packages = some versions)
    (hmodule : ¬ (digests.get modulePath = none ∨ digests.get modulePath = some "")) :
    ∃ baseline, readBaseline json text = .ok baseline ∧ baseline.files = digests ∧
      baseline.packages = versions := by
  unfold readBaseline
  rw [hloads]
  dsimp only
  rw [hfiles, hpackages]
  dsimp only
  rw [dif_pos hnames]
  split
  next hnone => cases hnone.symm.trans hdigests
  next digests' hdigests' =>
    cases hdigests'.symm.trans hdigests
    split
    next hnone => cases hnone.symm.trans hversions
    next versions' hversions' =>
      cases hversions'.symm.trans hversions
      rw [dif_neg hmodule]
      exact ⟨_, rfl, rfl, rfl⟩

/-- What a state with the module in place leaves behind is accepted. -/
theorem readBaseline_written {digest version : String → Option String}
    (hobserves : Observes sha256 system root digest version)
    (hmodule : digest modulePath ≠ none)
    (hjson : json.RoundTrips (Snapshot.tabulate digest version).toValue) :
    ∃ baseline,
      readBaseline json (json.dump (Snapshot.tabulate digest version).toValue ++ ['\n']) =
        .ok baseline ∧
      baseline.files = Entries.tabulate trackedFiles digest ∧
      baseline.packages = Entries.tabulate trackedPackages version := by
  have hdigits : ∀ name ∈ trackedFiles, ∀ text, digest name = some text →
      text.toList.length = 64 ∧ ∀ c ∈ text.toList, c ∈ hexChars := by
    intro name hmem text htext
    exact digest_of_fileHash (htext ▸ hobserves.files name hmem)
  have htracked : modulePath ∈ trackedFiles :=
    List.mem_append_right _ List.mem_cons_self
  apply exists_baseline hjson rfl rfl ⟨sameNames_tabulate _ _, sameNames_tabulate _ _⟩
  · apply entriesOf_toValue
    intro entry hentry text htext
    obtain ⟨name, hmem, rfl⟩ := List.mem_map.mp hentry
    obtain ⟨hlength, hall⟩ := hdigits name hmem text htext
    exact isDigest_of_mem hlength hall
  · exact entriesOf_toValue fun _ _ _ _ => rfl
  · rw [Entries.get_tabulate htracked]
    rintro (hnone | hempty)
    · exact hmodule hnone
    · exact absurd (hdigits modulePath htracked "" hempty).1 (by decide)

/-! ## When a check passes -/

theorem fileFinding_eq_none_iff {current baseline : Entries} {name : String} :
    fileFinding current baseline name = none ↔ current.get name = baseline.get name := by
  unfold fileFinding
  split
  next heq => exact iff_of_true rfl heq
  next hne => exact iff_of_false (Option.some_ne_none _) hne

theorem packageFinding_eq_none_iff {current baseline : Entries} {name : String} :
    packageFinding current baseline name = none ↔ current.get name = baseline.get name := by
  unfold packageFinding
  dsimp only
  split
  next heq => exact iff_of_true rfl heq.symm
  next hne => exact iff_of_false (Option.some_ne_none _) (Ne.symm hne)

/-- The loader runs only for a module that is as it was, and a module that is not gives a finding
of its own. -/
theorem check_eq_nil_iff {baseline : Baseline} :
    check sha256 system root baseline = .ok [] ↔
      ∃ digest version, Observes sha256 system root digest version ∧
        (∀ name ∈ trackedFiles, digest name = baseline.files.get name) ∧
        (∀ name ∈ trackedPackages, version name = baseline.packages.get name) ∧
        (∀ name ∈ pamFiles, system.pathExists (underRoot root (name ++ ".pacnew")) = .ok false) ∧
        checkDependencies system (underRoot root modulePath) = .ok [] := by
  have hmodule : modulePath ∈ trackedFiles := List.mem_append_right _ List.mem_cons_self
  have hfiles : ∀ digest, trackedFiles.filterMap
      (fileFinding (Entries.tabulate trackedFiles digest) baseline.files) = [] ↔
        ∀ name ∈ trackedFiles, digest name = baseline.files.get name := by
    intro digest
    simp only [List.filterMap_eq_nil_iff, fileFinding_eq_none_iff, Entries.forall_get_tabulate]
  have hpackages : ∀ version, trackedPackages.filterMap
      (packageFinding (Entries.tabulate trackedPackages version) baseline.packages) = [] ↔
        ∀ name ∈ trackedPackages, version name = baseline.packages.get name := by
    intro version
    simp only [List.filterMap_eq_nil_iff, packageFinding_eq_none_iff, Entries.forall_get_tabulate]
  rw [← pacnewFiles_eq_nil_iff]
  unfold check
  simp only [Program.bind_eq_ok_iff, snapshot_eq_ok_iff]
  constructor
  · rintro ⟨_, ⟨digest, version, hobserves, rfl⟩, pending, hpending, hall⟩
    split at hall
    next hsame =>
      obtain ⟨problems, hproblems, hall⟩ := Program.bind_eq_ok_iff.mp hall
      obtain ⟨hfindings, rfl⟩ := List.append_eq_nil_iff.mp (Except.ok.inj hall)
      obtain ⟨hfindings, hnone⟩ := List.append_eq_nil_iff.mp hfindings
      obtain ⟨hfile, hpackage⟩ := List.append_eq_nil_iff.mp hfindings
      rw [List.map_eq_nil_iff.mp hnone] at hpending
      exact ⟨digest, version, hobserves, (hfiles digest).mp hfile,
        (hpackages version).mp hpackage, hpending, hproblems⟩
    next hchanged =>
      obtain ⟨hfindings, -⟩ := List.append_eq_nil_iff.mp (Except.ok.inj hall)
      obtain ⟨hfile, -⟩ := List.append_eq_nil_iff.mp hfindings
      have hsame := (hfiles digest).mp hfile
      exact absurd (Entries.forall_get_tabulate.mpr hsame modulePath hmodule) hchanged
  · rintro ⟨digest, version, hobserves, hfile, hpackage, hpending, hproblems⟩
    refine ⟨_, ⟨digest, version, hobserves, rfl⟩, [], hpending, ?_⟩
    have hsame := Entries.forall_get_tabulate.mpr hfile modulePath hmodule
    rw [Snapshot.tabulate, if_pos hsame, hproblems, (hfiles digest).mpr hfile,
      (hpackages version).mpr hpackage]
    rfl

variable (sha256 root) in
/-- Nothing that is watched differs between two states, and the later one is in order. -/
structure Unchanged (before later : SystemState) : Prop where
  files : ∀ name ∈ trackedFiles, ∃ digest,
    fileHash sha256 before (underRoot root name) = .ok digest ∧
      fileHash sha256 later (underRoot root name) = .ok digest
  packages : ∃ old new, packageVersions before = .ok old ∧ packageVersions later = .ok new ∧
    ∀ name ∈ trackedPackages, new.get name = old.get name
  noPacnew : ∀ name ∈ pamFiles, later.pathExists (underRoot root (name ++ ".pacnew")) = .ok false
  dependencies : checkDependencies later (underRoot root modulePath) = .ok []

/-- A check against what was recorded passes exactly while nothing has changed. -/
theorem check_recorded_iff {later : SystemState} {digest version : String → Option String}
    {baseline : Baseline} (hobserves : Observes sha256 system root digest version)
    (hfiles : baseline.files = Entries.tabulate trackedFiles digest)
    (hpackages : baseline.packages = Entries.tabulate trackedPackages version) :
    check sha256 later root baseline = .ok [] ↔ Unchanged sha256 root system later := by
  rw [check_eq_nil_iff, hfiles, hpackages]
  constructor
  · rintro ⟨digest', version', hlater, hfile, hpackage, hpending, hproblems⟩
    refine ⟨?_, ⟨_, _, hobserves.packages, hlater.packages, ?_⟩, hpending, hproblems⟩
    · intro name hmem
      refine ⟨digest name, hobserves.files name hmem, ?_⟩
      rw [hlater.files name hmem, hfile name hmem, Entries.get_tabulate hmem]
    · intro name hmem
      rw [← hpackage name hmem, Entries.get_tabulate hmem]
  · intro hunchanged
    obtain ⟨old, new, hold, hnew, hversions⟩ := hunchanged.packages
    obtain ⟨version', rfl⟩ := tabulate_of_packageVersions hnew
    cases hobserves.packages.symm.trans hold
    refine ⟨digest, version', ⟨?_, hnew⟩, ?_, ?_, hunchanged.noPacnew, hunchanged.dependencies⟩
    · intro name hmem
      obtain ⟨digest', hbefore, hlater⟩ := hunchanged.files name hmem
      rw [hlater, ← hbefore, hobserves.files name hmem]
    · intro name hmem
      rw [Entries.get_tabulate hmem]
    · intro name hmem
      rw [← hversions name hmem, Entries.get_tabulate hmem]

/-! ## The recording -/

variable (sha256 system root) in
/-- The state passes what is asked before the first write. -/
structure Recordable (current : Snapshot) : Prop where
  observed : snapshot sha256 system root = .ok current
  hasModule : current.files.get modulePath ≠ none
  installed : ∀ entry ∈ current.packages, entry.2 ≠ none
  noPacnew : pacnewFiles system root = .ok []
  dependencies : checkDependencies system (underRoot root modulePath) = .ok []

theorem reviewed_eq_ok_iff {current : Snapshot} :
    reviewed sha256 system root = .ok current ↔ Recordable sha256 system root current := by
  unfold reviewed
  simp only [Program.bind_eq_ok_iff, Program.guard_eq_ok_iff]
  constructor
  · rintro ⟨_, hobserved, hmodule, hmissing, pending, hpending, hnone, problems, hproblems, hclean,
      hreturned⟩
    cases hreturned
    rw [not_not.mp hnone] at hpending
    rw [not_not.mp hclean] at hproblems
    refine ⟨hobserved, hmodule, ?_, hpending, hproblems⟩
    intro entry hmem habsent
    exact hmissing (List.any_eq_true.mpr ⟨entry, hmem, decide_eq_true habsent⟩)
  · intro hrecordable
    refine ⟨current, hrecordable.observed, hrecordable.hasModule, ?_, [], hrecordable.noPacnew,
      not_not.mpr rfl, [], hrecordable.dependencies, not_not.mpr rfl, rfl⟩
    intro hany
    obtain ⟨entry, hmem, habsent⟩ := List.any_eq_true.mp hany
    exact hrecordable.installed entry hmem (of_decide_eq_true habsent)

variable {answers : WriteCall → Option CheckError} {current : Snapshot}

theorem run_perform {step : WriteCall} (effect : Disk → Disk) (disk : Disk) :
    (perform answers step effect).run disk =
      match answers step with
      | none => .ok () (effect disk)
      | some err => .error err disk := by
  unfold perform
  cases answers step <;> rfl

/-- A call that leaves the baseline alone, with what its return says. -/
theorem ensures_perform {step : WriteCall} {effect : Disk → Disk}
    (hkeeps : ∀ disk, (effect disk).baseline = disk.baseline) :
    Program.Ensures Disk.baseline (perform answers step effect) fun _ => answers step = none where
  keeps disk := by
    rw [run_perform]
    cases answers step with
    | none => exact hkeeps disk
    | some err => rfl
  returns {disk _ _} hrun := by
    rw [run_perform] at hrun
    cases hanswer : answers step with
    | none => rfl
    | some err =>
        rw [hanswer] at hrun
        cases hrun

/-- The calls of the complete write. -/
def fillCalls : List WriteCall :=
  [.dump, .write, .flush, .fsync, .fchmod]

/-- The calls up to the replacement. -/
def callsThroughReplace : List WriteCall :=
  [.mkdir, .createTemporary] ++ fillCalls ++ [.replace]

theorem ensures_fillTemporary :
    Program.Ensures Disk.baseline (fillTemporary json answers current)
      fun _ => ∀ step ∈ fillCalls, answers step = none := by
  have happend : ∀ text disk, (Disk.append text disk).baseline = disk.baseline := fun _ _ => rfl
  apply (ensures_perform (happend _)).bind
  intro _ hdump
  apply (ensures_perform (happend _)).bind
  intro _ hwrite
  apply (ensures_perform fun _ => rfl).bind
  intro _ hflush
  apply (ensures_perform fun _ => rfl).bind
  intro _ hfsync
  apply (ensures_perform fun _ => rfl).imp
  intro _ hfchmod
  simp [fillCalls, hdump, hwrite, hflush, hfsync, hfchmod]

/-- What the calls behind the replacement make of it. -/
def closing (answers : WriteCall → Option CheckError) (disk : Disk) :
    EStateM.Result CheckError Disk Unit :=
  match answers .close, answers .unlink with
  | some err, _ => .error err disk
  | none, some err => .error err disk
  | none, none => .ok () disk

theorem final_closing (disk : Disk) : Program.final (closing answers disk) = disk := by
  unfold closing
  split <;> rfl

/-- The new text is in place before the last two calls. -/
theorem run_recordBaseline_of_answers (disk : Disk)
    (hrecordable : Recordable sha256 system root current)
    (hanswers : ∀ step ∈ callsThroughReplace, answers step = none) :
    (recordBaseline sha256 system root json answers).run disk =
      closing answers ⟨some (json.dump current.toValue ++ ['\n']), none⟩ := by
  have hrun : ∀ {step : WriteCall} (effect : Disk → Disk) (disk : Disk),
      step ∈ callsThroughReplace →
        (perform answers step effect).run disk = .ok () (effect disk) := by
    intro step effect disk hmem
    rw [run_perform, hanswers step hmem]
  have hreviewed := reviewed_eq_ok_iff.mpr hrecordable
  unfold recordBaseline
  rw [hreviewed, Program.run_bind_of_ok _ (Program.run_ofExcept_ok _ _),
    Program.run_bind_of_ok _ (hrun id disk (by decide)),
    Program.run_bind_of_ok _ (hrun _ (id disk) (by decide))]
  have hfill : (fillTemporary json answers current).run
      { disk with temporary := some [] } =
        .ok () ⟨disk.baseline, some (json.dump current.toValue ++ ['\n'])⟩ := by
    unfold fillTemporary
    rw [Program.run_bind_of_ok _ (hrun _ _ (by decide)),
      Program.run_bind_of_ok _ (hrun _ _ (by decide)),
      Program.run_bind_of_ok _ (hrun _ _ (by decide)),
      Program.run_bind_of_ok _ (hrun _ _ (by decide)), hrun _ _ (by decide)]
    rfl
  have hreplace := (Program.run_bind_of_ok
    (fun _ => perform answers .replace fun disk => ⟨disk.temporary, none⟩) hfill).trans
      (hrun _ _ (by decide))
  have hunlink := Program.run_tryFinally_of_ok
    (perform answers .unlink fun disk => { disk with temporary := none }) hreplace
  rw [run_perform] at hunlink
  unfold closing
  cases hanswer : answers .unlink with
  | none =>
      rw [hanswer] at hunlink
      refine (Program.run_tryFinally_of_ok (perform answers .close id) hunlink).trans ?_
      rw [run_perform]
      cases answers .close <;> rfl
  | some err =>
      rw [hanswer] at hunlink
      refine (Program.run_tryFinally_of_error (perform answers .close id) hunlink).trans ?_
      rw [run_perform]
      cases answers .close <;> rfl

/-- A recording that does not get to the replacement leaves the baseline alone. -/
theorem stops_recordBaseline
    (hstop : ∀ current, Recordable sha256 system root current →
      ¬ ∀ step ∈ callsThroughReplace, answers step = none) :
    Program.Stops Disk.baseline (recordBaseline sha256 system root json answers) := by
  apply (Program.Ensures.ofExcept _).bind_stops
  intro current hreviewed
  refine Program.Ensures.bind_stops (ensures_perform fun _ => rfl) ?_
  intro _ hmkdir
  refine Program.Ensures.bind_stops (ensures_perform fun _ => rfl) ?_
  intro _ hcreate
  refine Program.Stops.withCleanup ?_ (ensures_perform fun _ => rfl)
  refine Program.Stops.withCleanup ?_ (ensures_perform fun _ => rfl)
  apply ensures_fillTemporary.bind_stops
  intro _ hfill
  unfold perform
  cases hreplace : answers .replace with
  | some err => exact Program.Stops.throw err
  | none =>
      apply absurd _ (hstop current (reviewed_eq_ok_iff.mp hreviewed))
      rw [callsThroughReplace, List.forall_mem_append, List.forall_mem_append]
      exact ⟨⟨by simp [hmkdir, hcreate], hfill⟩, by simp [hreplace]⟩

/-! ## The promises of the recording -/

/-- What a recordable state leaves behind is accepted, and a check against it passes exactly while
nothing has changed. -/
theorem Recordable.exists_baseline (hrecordable : Recordable sha256 system root current)
    (hjson : json.RoundTrips current.toValue) :
    ∃ baseline, readBaseline json (json.dump current.toValue ++ ['\n']) = .ok baseline ∧
      ∀ later, check sha256 later root baseline = .ok [] ↔ Unchanged sha256 root system later := by
  obtain ⟨digest, version, hobserves, rfl⟩ := snapshot_eq_ok_iff.mp hrecordable.observed
  have hmodule : digest modulePath ≠ none := by
    rw [← Entries.get_tabulate (List.mem_append_right _ List.mem_cons_self) digest]
    exact hrecordable.hasModule
  obtain ⟨baseline, hread, hfiles, hpackages⟩ := readBaseline_written hobserves hmodule hjson
  exact ⟨baseline, hread, fun later => check_recorded_iff hobserves hfiles hpackages⟩

variable (sha256 system root json answers) in
/-- A recording that returns has written an accepted baseline, against which a check passes exactly
while nothing has changed; one that raises leaves the previous baseline. -/
structure KeepsPromises (disk : Disk) : Prop where
  accepted : ∀ after, (recordBaseline sha256 system root json answers).run disk = .ok () after →
    ∃ text baseline, after.baseline = some text ∧ readBaseline json text = .ok baseline ∧
      ∀ later, check sha256 later root baseline = .ok [] ↔ Unchanged sha256 root system later
  intact : ∀ err after old,
    (recordBaseline sha256 system root json answers).run disk = .error err after →
      disk.baseline = some old → after.baseline = some old

/-- The clean-up behind the replacement is where a recording can raise too late. -/
theorem recordBaseline_keepsPromises_iff {disk : Disk}
    (hjson : ∀ current, Recordable sha256 system root current →
      json.RoundTrips current.toValue) :
    KeepsPromises sha256 system root json answers disk ↔
      ∀ current, Recordable sha256 system root current →
        (∀ step ∈ callsThroughReplace, answers step = none) →
          (answers .unlink = none ∧ answers .close = none) ∨
            ∀ old, disk.baseline = some old → old = json.dump current.toValue ++ ['\n'] := by
  constructor
  · intro hpromises current hrecordable hanswers
    have hrun : (recordBaseline sha256 system root json answers).run disk =
        closing answers ⟨some (json.dump current.toValue ++ ['\n']), none⟩ :=
      run_recordBaseline_of_answers disk hrecordable hanswers
    apply or_iff_not_imp_left.mpr
    intro hraises old hold
    unfold closing at hrun
    split at hrun
    next err _ =>
      exact (Option.some.inj (hpromises.intact err _ old hrun hold)).symm
    next err _ _ =>
      exact (Option.some.inj (hpromises.intact err _ old hrun hold)).symm
    next hclose hunlink => exact absurd ⟨hunlink, hclose⟩ hraises
  · intro hsafe
    by_cases hreaches : ∃ current, Recordable sha256 system root current ∧
        ∀ step ∈ callsThroughReplace, answers step = none
    · obtain ⟨current, hrecordable, hanswers⟩ := hreaches
      have hrun : (recordBaseline sha256 system root json answers).run disk =
          closing answers ⟨some (json.dump current.toValue ++ ['\n']), none⟩ :=
        run_recordBaseline_of_answers disk hrecordable hanswers
      have hwritten : ((Program.final ((recordBaseline sha256 system root json answers).run
          disk)).baseline = some (json.dump current.toValue ++ ['\n'])) := by
        rw [hrun, final_closing]
      refine ⟨?_, ?_⟩
      · intro after hreturned
        obtain ⟨baseline, hread, hexact⟩ :=
          hrecordable.exists_baseline (hjson current hrecordable)
        rw [hreturned] at hwritten
        exact ⟨_, baseline, hwritten, hread, hexact⟩
      · intro err after old hraised hold
        rcases hsafe current hrecordable hanswers with ⟨hunlink, hclose⟩ | hsame
        · rw [hrun, closing, hunlink, hclose] at hraised
          cases hraised
        · rw [hraised] at hwritten
          rw [hsame old hold]
          exact hwritten
    · have hstops : Program.Stops Disk.baseline
          (recordBaseline sha256 system root json answers) :=
        stops_recordBaseline fun current hrecordable hanswers =>
          hreaches ⟨current, hrecordable, hanswers⟩
      obtain ⟨err, stopped, hrun, hkept⟩ := hstops disk
      refine ⟨?_, ?_⟩
      · intro after hreturned
        cases hrun.symm.trans hreturned
      · intro err' after old hraised hold
        cases hrun.symm.trans hraised
        exact hkept.trans hold

/-! ### A host with one module and six packages -/

/-- The digest of the bytes in `elfMagic`. -/
def elfDigest : Octets 32 :=
  ⟨[0x3B, 0xDB, 0xB4, 0xFE, 0x83, 0x97, 0xCD, 0x2B, 0x84, 0x24, 0x30, 0xB3, 0x9C, 0xCF, 0xF0, 0x1A,
    0x86, 0x63, 0xC7, 0x51, 0x94, 0x5E, 0xF5, 0xE9, 0xA0, 0x9E, 0x26, 0x7F, 0xB8, 0xB1, 0xD3, 0x59],
    rfl⟩

def elfSha256 (bytes : Bytes) : Octets 32 :=
  if bytes = elfMagic then elfDigest else Octets.zero 32

/-- Every file holds the same four bytes. -/
def elfSystem : SystemState where
  readBytes _ := .ok elfMagic
  pathExists _ := .ok false
  stat _ := .ok ⟨0, 0o100644⟩
  readStart _ := .ok elfMagic
  pacman := .ok ⟨0, "kscreenlocker 6.4.5-1\nplasma-desktop 6.4.5-1\npam 1.7.1-1\n" ++
    "pambase 20250719-1\nglibc 2.42-1\nsudo 1.9.17.p2-1\n", ""⟩
  ldd _ := .ok ⟨0, "\tlibpam.so.0 => /usr/lib/libpam.so.0\n", ""⟩

def elfVersion (name : String) : Option String :=
  List.lookup name [("kscreenlocker", "6.4.5-1"), ("plasma-desktop", "6.4.5-1"),
    ("pam", "1.7.1-1"), ("pambase", "20250719-1"), ("glibc", "2.42-1"), ("sudo", "1.9.17.p2-1")]

def elfSnapshot : Snapshot :=
  Snapshot.tabulate (fun _ => some (hexLowercase elfDigest.val)) elfVersion

/-- Members on lines of their own, for texts in which nothing is escaped. -/
def plainMembers (members : List (List Char × Value)) : List Char :=
  ",\n".toList.intercalate <| members.map fun member =>
    "    \"".toList ++ member.1 ++ "\": ".toList ++
      match member.2 with
      | .string text => '"' :: text ++ ['"']
      | _ => "null".toList

def plainDump : Value → List Char
  | .object [(first, .object files), (second, .object packages)] =>
      "\x7b\n  \"".toList ++ first ++ "\": \x7b\n".toList ++ plainMembers files ++
        "\n  \x7d,\n  \"".toList ++ second ++ "\": \x7b\n".toList ++ plainMembers packages ++
          "\n  \x7d\n\x7d".toList
  | _ => []

/-- The one document of this host, behind which the recording puts a line end. -/
def elfJson : JsonCodec where
  dump := plainDump
  loads text :=
    if text = plainDump elfSnapshot.toValue ++ ['\n'] then .ok elfSnapshot.toValue
    else .error (.value "Expecting value: line 1 column 1 (char 0)")

theorem observes_elfSystem :
    Observes elfSha256 elfSystem "/" (fun _ => some (hexLowercase elfDigest.val)) elfVersion where
  files _ _ := rfl
  packages := by decide

theorem recordable_elfSystem : Recordable elfSha256 elfSystem "/" elfSnapshot where
  observed := snapshot_eq_ok_iff.mpr ⟨_, _, observes_elfSystem, rfl⟩
  hasModule := by decide
  installed := by decide
  noPacnew := pacnewFiles_eq_nil_iff.mpr fun _ _ => rfl
  dependencies := by decide

theorem roundTrips_elfJson (hrecordable : Recordable elfSha256 elfSystem "/" current) :
    elfJson.RoundTrips current.toValue := by
  have hsame : current = elfSnapshot :=
    Except.ok.inj (hrecordable.observed.symm.trans recordable_elfSystem.observed)
  rw [hsame, JsonCodec.RoundTrips]
  unfold elfJson
  dsimp only
  rw [if_pos rfl]

theorem recordBaseline_keepsPromises_elf :
    KeepsPromises elfSha256 elfSystem "/" elfJson (fun _ => none) ⟨some "{}".toList, none⟩ :=
  (recordBaseline_keepsPromises_iff fun _ => roundTrips_elfJson).mpr
    fun _ _ _ => .inl ⟨rfl, rfl⟩

/-- The descriptor of the renamed file is closed last. -/
def closeFails : WriteCall → Option CheckError
  | .close => some (.os "[Errno 5] Input/output error")
  | _ => none

/-- The recording raises, and the old baseline is gone. -/
theorem late_close_replaces :
    (∀ current, Recordable elfSha256 elfSystem "/" current →
      elfJson.RoundTrips current.toValue) ∧
      ¬ KeepsPromises elfSha256 elfSystem "/" elfJson closeFails ⟨some "old".toList, none⟩ := by
  refine ⟨fun _ => roundTrips_elfJson, ?_⟩
  intro hpromises
  have hrun : (recordBaseline elfSha256 elfSystem "/" elfJson closeFails).run
      ⟨some "old".toList, none⟩ =
        .error (.os "[Errno 5] Input/output error")
          ⟨some (plainDump elfSnapshot.toValue ++ ['\n']), none⟩ :=
    run_recordBaseline_of_answers _ recordable_elfSystem (by decide)
  have hkept := hpromises.intact _ _ _ hrun rfl
  -- the new document starts with a brace
  have hfirst := congrArg (Option.map List.head?) hkept
  exact absurd hfirst (by decide)

end Syauth.Scripts
