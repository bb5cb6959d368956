import Syauth.Cli.InstallPam

/-! # Taking the module out of a PAM service file again

`uninstall_pam.rs` restores the backup of a service file in which it recognises the
line.  The installation writes the control flag and the module path as they are
given; the recognition takes one word for the flag and wants the name of the module
right behind it.
-/

namespace Syauth.Cli

open Text

inductive UninstallError where
  | serviceNotFound (path : PamPath)
  | backupMissing (path affected : PamPath)
  | notUtf8 (path : PamPath)
  deriving DecidableEq

inductive UninstallOutcome where
  | notInstalled (path : PamPath)
  | restored (servicePath backupPath : PamPath)
  deriving DecidableEq

def uninstall (unicodeWord : Char → Bool) (files : PamFiles) :
    Except UninstallError UninstallOutcome × PamFiles :=
  match files.service with
  | none => (.error (.serviceNotFound .service), files)
  | some service =>
      match String.fromUTF8? service.bytes with
      | none => (.error (.notUtf8 .service), files)
      | some body =>
          if !recognitionRegexMatch unicodeWord body.toList then
            (.ok (.notInstalled .service), files)
          else
            match files.backup with
            | none => (.error (.backupMissing .backup .service), files)
            | some bak =>
                (.ok (.restored .service .backup), ⟨some ⟨bak.bytes, service.mode⟩, none⟩)

/-! ## What the installation leaves -/

variable {unicodeWord : Char → Bool} {opts : InstallOpts} {body : List Char}

/-- A keyword, or a list in brackets. -/
def IsControlFlag (control : List Char) : Prop :=
  (control ≠ [] ∧ ∀ c ∈ control, isWhitespace c = false) ∨ ∃ inner, control = '[' :: inner ++ [']']

/-- The flag, the path and the arguments of a line for the module. -/
structure InstallOpts.Accepted (opts : InstallOpts) : Prop where
  control : IsControlFlag opts.control.toList
  soPath : soName <:+ opts.soPath.toList
  oneLine : '\n' ∉ buildLine opts

theorem IsControlFlag.words_ne_nil {control : List Char} (hcontrol : IsControlFlag control) :
    wordsBy isWhitespace control ≠ [] := by
  rcases hcontrol with ⟨hne, hsolid⟩ | ⟨inner, rfl⟩
  · rw [wordsBy_of_word hsolid hne]
    exact List.cons_ne_nil _ _
  · intro hnone
    exact absurd (wordsBy_eq_nil_iff.mp hnone '[' List.mem_cons_self) (by decide)

theorem InstallOpts.Accepted.mentions (hopts : opts.Accepted) : soName <:+: buildLine opts := by
  have hpath : soName <:+: opts.soPath.toList := hopts.soPath.isInfix
  refine hpath.trans ⟨moduleType ++ fieldSeparator ++ opts.control.toList ++ fieldSeparator,
    [' '] ++ opts.moduleArgs.toList, ?_⟩
  simp [buildLine]

theorem wordsBy_buildLine (opts : InstallOpts) :
    wordsBy isWhitespace (buildLine opts) =
      "auth".toList :: (wordsBy isWhitespace opts.control.toList ++
        wordsBy isWhitespace opts.soPath.toList ++
        wordsBy isWhitespace opts.moduleArgs.toList) := by
  have hgap : ∀ c ∈ fieldSeparator, isWhitespace c = true := forall_mem_of_all (by decide)
  have hspace : isWhitespace ' ' = true := by decide
  have hauth : wordsBy isWhitespace moduleType = ["auth".toList] := by decide
  have hline : buildLine opts = moduleType ++ (fieldSeparator ++ (opts.control.toList ++
      (fieldSeparator ++ (opts.soPath.toList ++ ' ' :: opts.moduleArgs.toList)))) := by
    simp [buildLine]
  rw [hline, wordsBy_append_seps_append _ hgap (by decide),
    wordsBy_append_seps_append _ hgap (by decide), wordsBy_append_cons _ _ hspace, hauth,
    List.singleton_append, List.append_assoc]

/-- A body of the inserted line between texts that do not name the module. -/
structure Inserted (unicodeWord : Char → Bool) (opts : InstallOpts) (body installed : List Char) :
    Prop where
  placed : ∃ rest, installed = (beforeAuth body).flatten ++ (buildLine opts ++ '\n' :: rest) ∧
    ¬ soName <:+: rest
  fallback : opts.withU2fFallback = true → u2fRecognitionRegexMatch unicodeWord installed = true

theorem recognition_of_unnamed {body : List Char} (hbody : ¬ soName <:+: body) :
    recognitionRegexMatch unicodeWord body = false := by
  rw [Bool.eq_false_iff]
  exact fun hmatch => hbody (isInfix_of_isMatch isModuleName_soName hmatch)

theorem withSyauth_of_unnamed (opts : InstallOpts) (hbody : ¬ soName <:+: body) :
    withSyauth unicodeWord opts body = insertLine body (buildLine opts) := by
  rw [withSyauth, recognition_of_unnamed hbody, if_neg (by decide)]

/-- A fallback that is wanted and missing goes right behind the inserted line. -/
theorem installedBody_of_unknown (hopts : opts.Accepted) (hbody : ¬ soName <:+: body)
    (henabled : opts.withU2fFallback = true)
    (hunknown : u2fRecognitionRegexMatch unicodeWord (withSyauth unicodeWord opts body) = false) :
    installedBody unicodeWord opts body = (beforeAuth body).flatten ++
      (buildLine opts ++ '\n' :: (u2fFallbackLine ++ '\n' :: (fromAuth body).flatten)) := by
  have hsplit : splitInclusive '\n' (withSyauth unicodeWord opts body) =
      beforeAuth body ++ (buildLine opts ++ ['\n']) :: fromAuth body := by
    rw [withSyauth_of_unnamed opts hbody, splitInclusive_insertLine,
      splitInclusive_append_cons hopts.oneLine [], splitInclusive_nil, List.singleton_append]
  have hbefore : ∀ piece ∈ beforeAuth body, mentionsSyauth piece = false := by
    intro piece hmem
    rw [mentionsSyauth, Bool.eq_false_iff, Ne, contains_iff]
    intro hinside
    rw [← flatten_beforeAuth_append body] at hbody
    exact hbody ((hinside.trans (List.infix_of_mem_flatten hmem)).trans
      (List.prefix_append _ _).isInfix)
  have hmentions : mentionsSyauth (buildLine opts ++ ['\n']) = true := by
    rw [mentionsSyauth, contains_iff]
    exact hopts.mentions.trans (List.prefix_append _ _).isInfix
  rw [installedBody, henabled, maybeInsertU2fFallback_of_split hunknown hsplit hbefore hmentions]
  simp

theorem soName_not_in_fallback {rest : List Char} (hrest : ¬ soName <:+: rest) :
    ¬ soName <:+: u2fFallbackLine ++ '\n' :: rest := by
  intro hinside
  have hnewline : '\n' ∉ soName := by decide
  rcases isInfix_append_cons hnewline hinside with hline | hbehind
  · -- there is no `y` in the fallback line
    have hletter : 'y' ∈ u2fFallbackLine := hline.subset (by decide)
    exact absurd hletter (by decide)
  · exact hrest hbehind

theorem inserted_installedBody (hopts : opts.Accepted) (hbody : ¬ soName <:+: body) :
    Inserted unicodeWord opts body (installedBody unicodeWord opts body) := by
  have hfrom : ¬ soName <:+: (fromAuth body).flatten := by
    intro hinside
    rw [← flatten_beforeAuth_append body] at hbody
    exact hbody (hinside.trans (List.suffix_append _ _).isInfix)
  by_cases hknown : opts.withU2fFallback = true →
      u2fRecognitionRegexMatch unicodeWord (withSyauth unicodeWord opts body) = true
  · have hsame : installedBody unicodeWord opts body = withSyauth unicodeWord opts body :=
      maybeInsertU2fFallback_of_known hknown
    rw [hsame]
    refine ⟨⟨(fromAuth body).flatten, ?_, hfrom⟩, hknown⟩
    rw [withSyauth_of_unnamed opts hbody, insertLine_eq]
  · obtain ⟨henabled, hunknown⟩ := Classical.not_imp.mp hknown
    have hinstalled := installedBody_of_unknown hopts hbody henabled
      (Bool.eq_false_iff.mpr hunknown)
    refine ⟨⟨_, hinstalled, soName_not_in_fallback hfrom⟩, fun _ => ?_⟩
    have hstart : AtLineStart ((beforeAuth body).flatten ++ (buildLine opts ++ ['\n'])) := by
      rw [← List.append_assoc]
      exact atLineStart_terminated _
    have hfound : u2fRecognitionRegexMatch unicodeWord
        (((beforeAuth body).flatten ++ (buildLine opts ++ ['\n'])) ++
          (u2fFallbackLine ++ '\n' :: (fromAuth body).flatten)) = true :=
      u2fRecognition_of_line hstart ('\n' :: (fromAuth body).flatten)
    rw [List.append_assoc, List.append_assoc, List.singleton_append] at hfound
    rw [hinstalled]
    exact hfound

/-! ## When it is recognised again -/

/-- Of the words of the flag and the path, the second one begins with the name of the
module and does not go on as a word. -/
def RecognisedAgain (unicodeWord : Char → Bool) (opts : InstallOpts) : Prop :=
  ∃ module, (wordsBy isWhitespace opts.control.toList ++
      wordsBy isWhitespace opts.soPath.toList)[1]? = some module ∧
    ∃ suffix, module = soName ++ suffix ∧ suffix.head?.any (isWordChar unicodeWord) = false

theorem wires_buildLine_iff (hopts : opts.Accepted) (rest : List Char) :
    Wires unicodeWord soName (buildLine opts ++ '\n' :: rest) ↔
      RecognisedAgain unicodeWord opts := by
  have hwords : wordsBy isWhitespace (buildLine opts ++ '\n' :: rest) =
      "auth".toList :: (wordsBy isWhitespace opts.control.toList ++
        wordsBy isWhitespace opts.soPath.toList ++
        (wordsBy isWhitespace opts.moduleArgs.toList ++ wordsBy isWhitespace rest)) := by
    rw [wordsBy_append_cons _ rest (by decide), wordsBy_buildLine, List.cons_append,
      List.append_assoc]
  have hpath : wordsBy isWhitespace opts.soPath.toList ≠ [] := by
    intro hnone
    have hletter : 'p' ∈ opts.soPath.toList := hopts.soPath.subset (by decide)
    exact absurd (wordsBy_eq_nil_iff.mp hnone 'p' hletter) (by decide)
  -- a word of the flag and one of the path make two at least
  obtain ⟨first, second, more, htwo⟩ : ∃ first second more,
      wordsBy isWhitespace opts.control.toList ++ wordsBy isWhitespace opts.soPath.toList =
        first :: second :: more := by
    obtain ⟨first, flags, hflags⟩ := List.exists_cons_of_ne_nil hopts.control.words_ne_nil
    obtain ⟨path, paths, hpaths⟩ := List.exists_cons_of_ne_nil hpath
    rw [hflags, hpaths]
    cases flags with
    | nil => exact ⟨first, path, paths, rfl⟩
    | cons second flags => exact ⟨first, second, flags ++ path :: paths, rfl⟩
  rw [Wires, RecognisedAgain, hwords, htwo]
  constructor
  · rintro ⟨control, module, _, hsame, hmodule⟩
    simp only [List.cons_append, List.cons.injEq] at hsame
    obtain ⟨-, -, rfl, -⟩ := hsame
    exact ⟨second, rfl, hmodule⟩
  · rintro ⟨module, hsecond, hmodule⟩
    cases hsecond
    exact ⟨first, second, _, rfl, hmodule⟩

/-- The installed line is found again exactly if its own words make it so. -/
theorem recognition_installed_iff (hopts : opts.Accepted) {installed : List Char}
    (hinserted : Inserted unicodeWord opts body installed) :
    recognitionRegexMatch unicodeWord installed = true ↔ RecognisedAgain unicodeWord opts := by
  obtain ⟨⟨rest, rfl, hrest⟩, -⟩ := hinserted
  rw [← wires_buildLine_iff hopts rest, recognitionRegexMatch,
    isMatch_beforeAuth isModuleName_soName, isMatch_moduleRegex isModuleName_soName]
  constructor
  · rintro ⟨front, back, hsplit, hstart, hwires⟩
    rcases hstart.first_or_later hopts.oneLine hsplit with rfl | ⟨later, rfl, -⟩
    · rw [hsplit]
      exact hwires
    · exact absurd (hwires.isInfix.trans (List.suffix_append later back).isInfix) hrest
  · intro hwires
    exact ⟨[], _, rfl, atLineStart_nil, hwires⟩

/-! ## Installing and uninstalling -/

/-- Over a file that has the line and the wanted fallback nothing is done. -/
theorem install_of_complete (mode : Nat) (bak : File) {installed : List Char}
    (hfound : recognitionRegexMatch unicodeWord installed = true)
    (hfallback : opts.withU2fFallback = true →
      u2fRecognitionRegexMatch unicodeWord installed = true) :
    install unicodeWord opts ⟨some ⟨(String.ofList installed).toUTF8, mode⟩, some bak⟩ =
      (.ok (.alreadyInstalled .service),
        ⟨some ⟨(String.ofList installed).toUTF8, mode⟩, some bak⟩) := by
  have hneeds : (opts.withU2fFallback && !u2fRecognitionRegexMatch unicodeWord installed) =
      false := by
    cases henabled : opts.withU2fFallback with
    | false => rfl
    | true => simp [hfallback henabled]
  simp only [install, fromUTF8?_toUTF8, String.toList_ofList, hfound, hneeds, Bool.not_false,
    Bool.and_self, if_true]

/-- The installation succeeds, a second one finds the line and changes nothing, and the
removal brings back the original file without its backup. -/
def InstallUninstallInverse (unicodeWord : Char → Bool) (opts : InstallOpts) (original : PamFiles) :
    Prop :=
  ∃ installed, install unicodeWord opts original = (.ok (.installed .service .backup), installed) ∧
    install unicodeWord opts installed = (.ok (.alreadyInstalled .service), installed) ∧
    uninstall unicodeWord installed = (.ok (.restored .service .backup), original)

/-- The backup of an installation that is not found again blocks the second one. -/
theorem recognisedAgain_of_inverse {text : String} {mode : Nat} (hopts : opts.Accepted)
    (hbody : ¬ soName <:+: text.toList)
    (hinverse : InstallUninstallInverse unicodeWord opts ⟨some ⟨text.toUTF8, mode⟩, none⟩) :
    RecognisedAgain unicodeWord opts := by
  obtain ⟨installed, hinstalled, hagain, -⟩ := hinverse
  rw [install_of_missing unicodeWord opts mode (recognition_of_unnamed hbody)] at hinstalled
  obtain ⟨-, rfl⟩ := Prod.mk.inj hinstalled
  by_contra hlost
  rw [← recognition_installed_iff hopts (inserted_installedBody hopts hbody),
    Bool.not_eq_true] at hlost
  rw [install_of_backup unicodeWord opts mode _ (String.toList_ofList ▸ hlost)] at hagain
  cases hagain

/-- Over a body that does not name the module, with no backup beside it. -/
theorem installUninstallInverse_iff {text : String} (mode : Nat) (hopts : opts.Accepted)
    (hbody : ¬ soName <:+: text.toList) :
    InstallUninstallInverse unicodeWord opts ⟨some ⟨text.toUTF8, mode⟩, none⟩ ↔
      RecognisedAgain unicodeWord opts := by
  constructor
  · exact recognisedAgain_of_inverse hopts hbody
  · intro hagain
    have hinserted : Inserted unicodeWord opts text.toList _ := inserted_installedBody hopts hbody
    have hfound := (recognition_installed_iff hopts hinserted).mpr hagain
    refine ⟨_, install_of_missing unicodeWord opts mode (recognition_of_unnamed hbody),
      install_of_complete mode _ hfound hinserted.fallback, ?_⟩
    simp only [uninstall, fromUTF8?_toUTF8, String.toList_ofList, hfound, Bool.not_true,
      Bool.false_eq_true, if_false]

def sampleBody : String := "auth    include    system-auth\n"

theorem soName_not_in_sampleBody : ¬ soName <:+: sampleBody.toList := by
  rw [← contains_iff]
  decide

theorem installUninstallInverse_default :
    InstallUninstallInverse (fun _ => false) { withU2fFallback := true }
      ⟨some ⟨sampleBody.toUTF8, 0o644⟩, none⟩ := by
  have hopts : InstallOpts.Accepted { withU2fFallback := true } :=
    ⟨.inl ⟨by decide, forall_mem_of_all (by decide)⟩, List.suffix_refl _, by decide⟩
  exact (installUninstallInverse_iff 0o644 hopts soName_not_in_sampleBody).mpr
    ⟨soName, by decide, [], by decide, rfl⟩

/-- The flag that the help of `--control` names. -/
def documentedOpts : InstallOpts := { control := "[success=done auth_err=die default=ignore]" }

/-- With it the line is installed and not found again: no second installation, no removal. -/
theorem documented_control_not_inverse :
    documentedOpts.Accepted ∧ ¬ soName <:+: sampleBody.toList ∧
      ¬ InstallUninstallInverse (fun _ => false) documentedOpts
        ⟨some ⟨sampleBody.toUTF8, 0o644⟩, none⟩ := by
  have hopts : documentedOpts.Accepted := by
    refine ⟨.inr ⟨"success=done auth_err=die default=ignore".toList, by decide⟩, ?_, by decide⟩
    unfold documentedOpts
    exact List.suffix_refl soName
  refine ⟨hopts, soName_not_in_sampleBody, fun hinverse => ?_⟩
  obtain ⟨module, hsecond, suffix, rfl, -⟩ :=
    recognisedAgain_of_inverse hopts soName_not_in_sampleBody hinverse
  have hword : "auth_err=die".toList = soName ++ suffix := by
    apply Option.some.inj
    rw [← hsecond]
    decide
  have hletter : 'p' ∈ soName ++ suffix := List.mem_append_left suffix (by decide)
  rw [← hword] at hletter
  exact absurd hletter (by decide)

end Syauth.Cli
