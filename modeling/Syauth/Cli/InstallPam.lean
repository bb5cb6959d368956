import Syauth.Text.Pattern

/-! # Wiring the module into a PAM service file

`install_pam.rs`: the text of the inserted line, where it goes, how it is recognised
again, and the workflow over a service file and its backup.  The calls to the file
system are taken to succeed; whether a file is there and is UTF-8 is not.
-/

namespace Syauth.Cli

open Text

def defaultControlFlag : String := "sufficient"
def defaultSoName : String := "pam_syauth.so"
def defaultModuleArgs : String := "timeout=8000"

structure InstallOpts where
  moduleArgs : String := defaultModuleArgs
  soPath : String := defaultSoName
  control : String := defaultControlFlag
  withU2fFallback : Bool := false
  deriving DecidableEq

def moduleType : List Char := "auth".toList
def fieldSeparator : List Char := "    ".toList
def u2fFallbackLine : List Char := "auth    sufficient    pam_u2f.so cue".toList

/-! ## Recognition -/

section Recognition

-- the characters beyond ASCII that `\w` covers
variable (unicodeWord : Char → Bool)

/-- `(?m)^\s*auth\s+\S+\s+NAME\b` for the name of a module. -/
def moduleRegex (name : List Char) : Pattern Char :=
  [.look lineStart, .many isWhitespace] ++ literal "auth".toList ++ some1 isWhitespace ++
    some1 (fun c => !isWhitespace c) ++ some1 isWhitespace ++ literal name ++
    [.look (wordBoundary unicodeWord)]

def soName : List Char := "pam_syauth.so".toList
def u2fName : List Char := "pam_u2f.so".toList

def recognitionRegexMatch (body : List Char) : Bool := isMatch (moduleRegex unicodeWord soName) body

def u2fRecognitionRegexMatch (body : List Char) : Bool :=
  isMatch (moduleRegex unicodeWord u2fName) body

end Recognition

/-- `auth` and a white space character. -/
def startsAuth (trimmed : List Char) : Bool :=
  if "auth".toList.isPrefixOf trimmed then
    match (trimmed.drop 4).head? with
    | some c => isWhitespace c
    | none => false
  else false

def isAuthDirective (line : List Char) : Bool := startsAuth (line.dropWhile isWhitespace)

/-! ## The edited text -/

/-- The inserted line without its newline. -/
def buildLine (opts : InstallOpts) : List Char :=
  moduleType ++ fieldSeparator ++ opts.control.toList ++ fieldSeparator ++ opts.soPath.toList ++
    [' '] ++ opts.moduleArgs.toList

/-- One turn of the loop of `insert_line` over the output so far and whether it `inserted`. -/
def insertStep (newLine : List Char) (scan : List Char × Bool) (line : List Char) :
    List Char × Bool :=
  let scan := if !scan.2 && isAuthDirective line then (scan.1 ++ newLine ++ ['\n'], true) else scan
  (scan.1 ++ line, scan.2)

def insertLine (original newLine : List Char) : List Char :=
  let scan := (splitInclusive '\n' original).foldl (insertStep newLine) ([], false)
  if scan.2 then scan.1 else newLine ++ ['\n'] ++ original

/-- `line.contains("pam_syauth.so")`. -/
def mentionsSyauth (line : List Char) : Bool := contains soName line

def u2fStep (scan : List Char × Bool) (line : List Char) : List Char × Bool :=
  let out := scan.1 ++ line
  if !scan.2 && mentionsSyauth line then (out ++ u2fFallbackLine ++ ['\n'], true)
  else (out, scan.2)

def maybeInsertU2fFallback (unicodeWord : Char → Bool) (body : List Char) (enabled : Bool) :
    List Char :=
  if !enabled then body
  else if u2fRecognitionRegexMatch unicodeWord body then body
  else ((splitInclusive '\n' body).foldl u2fStep ([], false)).1

/-! ## The workflow -/

structure File where
  bytes : ByteArray
  /-- The permission bits. -/
  mode : Nat

/-- A service file and the backup beside it. -/
structure PamFiles where
  service : Option File
  backup : Option File

inductive PamPath where
  | service
  | backup
  deriving DecidableEq

inductive InstallError where
  | serviceNotFound (path : PamPath)
  | backupExists (path : PamPath)
  | notUtf8 (path : PamPath)
  deriving DecidableEq

inductive InstallOutcome where
  | alreadyInstalled (path : PamPath)
  | installed (servicePath backupPath : PamPath)
  deriving DecidableEq

def install (unicodeWord : Char → Bool) (opts : InstallOpts) (files : PamFiles) :
    Except InstallError InstallOutcome × PamFiles :=
  match files.service with
  | none => (.error (.serviceNotFound .service), files)
  | some service =>
      match String.fromUTF8? service.bytes with
      | none => (.error (.notUtf8 .service), files)
      | some original =>
          let original := original.toList
          let syauthPresent := recognitionRegexMatch unicodeWord original
          let u2fPresent := u2fRecognitionRegexMatch unicodeWord original
          let needsU2fInsert := opts.withU2fFallback && !u2fPresent
          if syauthPresent && !needsU2fInsert then (.ok (.alreadyInstalled .service), files)
          else if !syauthPresent && files.backup.isSome then (.error (.backupExists .backup), files)
          else
            let backup := if syauthPresent then files.backup else some service
            let withSyauth :=
              if syauthPresent then original else insertLine original (buildLine opts)
            let newContents :=
              maybeInsertU2fFallback unicodeWord withSyauth opts.withU2fFallback
            (.ok (.installed .service .backup),
              ⟨some ⟨(String.ofList newContents).toUTF8, service.mode⟩, backup⟩)

/-! ## What is recognised -/

section Recognised

variable {unicodeWord : Char → Bool} {name text : List Char}

/-- The first word is `auth`, and the third one the name or the name and more that does not
go on as a word. -/
def Wires (unicodeWord : Char → Bool) (name text : List Char) : Prop :=
  ∃ control module more, wordsBy isWhitespace text = "auth".toList :: control :: module :: more ∧
    ∃ suffix, module = name ++ suffix ∧ suffix.head?.any (isWordChar unicodeWord) = false

/-- A name without white space that ends like a word. -/
structure IsModuleName (unicodeWord : Char → Bool) (name : List Char) : Prop where
  solid : ∀ c ∈ name, isWhitespace c = false
  ending : name.getLast?.any (isWordChar unicodeWord) = true

theorem isModuleName_soName : IsModuleName unicodeWord soName :=
  ⟨forall_mem_of_all (by decide), rfl⟩

theorem isModuleName_u2fName : IsModuleName unicodeWord u2fName :=
  ⟨forall_mem_of_all (by decide), rfl⟩

theorem IsModuleName.ne_nil (hname : IsModuleName unicodeWord name) : name ≠ [] := by
  rintro rfl
  cases hname.ending

/-- The boundary behind the name is where its word ends, at the latest. -/
theorem IsModuleName.wordBoundary_iff (hname : IsModuleName unicodeWord name) (prev : Option Char)
    (rest : List Char) :
    wordBoundary unicodeWord (name.getLast?.or prev) rest.head? = true ↔
      (rest.takeWhile fun c => !isWhitespace c).head?.any (isWordChar unicodeWord) = false := by
  have hending : (name.getLast?.or prev).any (isWordChar unicodeWord) = true := by
    cases hlast : name.getLast? with
    | none =>
        have hany := hname.ending
        rw [hlast] at hany
        cases hany
    | some c =>
        have hany := hname.ending
        rw [hlast] at hany
        exact hany
  rw [wordBoundary, hending]
  cases rest with
  | nil => simp
  | cons c rest =>
      by_cases hspace : isWhitespace c = true
      · simp [hspace, isWordChar_of_isWhitespace hspace]
      · simp [hspace]

theorem matchesAt_moduleRegex (hname : IsModuleName unicodeWord name) {prev : Option Char} :
    matchesAt (moduleRegex unicodeWord name) prev text = true ↔
      lineStart prev none = true ∧ Wires unicodeWord name text := by
  simp only [moduleRegex, List.append_assoc, List.cons_append, List.nil_append, matchesAt_look,
    matchesAt_many, matchesAt_literal, matchesAt_some1]
  refine and_congr Iff.rfl ?_
  constructor
  · rintro ⟨indent, _, rfl, hindent, _, rfl, gap, _, rfl, hgap, hspace, control, _, rfl, hcontrol,
      hsolid, gap', _, rfl, hgap', hspace', rest, rfl, hboundary, -⟩
    have hauth : ∀ c ∈ "auth".toList, isWhitespace c = false := forall_mem_of_all (by decide)
    have hsolid : ∀ c ∈ control, isWhitespace c = false := by simpa using hsolid
    let suffix := rest.takeWhile fun c => !isWhitespace c
    let behind := rest.dropWhile fun c => !isWhitespace c
    have hrest : name ++ rest = (name ++ suffix) ++ behind := by
      rw [List.append_assoc, List.takeWhile_append_dropWhile]
    have hmodule : ∀ c ∈ name ++ suffix, isWhitespace c = false := by
      intro c hmem
      rcases List.mem_append.mp hmem with hin | hin
      · exact hname.solid c hin
      · simpa using List.mem_takeWhile_imp hin
    have hbehind : ∀ c ∈ behind.head?, isWhitespace c = true := by
      intro c hc
      have hhead := List.head?_dropWhile_not (fun c => !isWhitespace c) rest
      rw [Option.mem_def.mp hc] at hhead
      simpa using hhead
    refine ⟨control, name ++ suffix, wordsBy isWhitespace behind, ?_, suffix, rfl, ?_⟩
    · rw [wordsBy_seps_append hindent,
        wordsBy_word_seps_append hauth (by decide) hspace hgap,
        wordsBy_word_seps_append hsolid hcontrol hspace' hgap', hrest,
        wordsBy_word_append hmodule (by simp [hname.ne_nil]) hbehind]
    · exact (hname.wordBoundary_iff _ rest).mp hboundary
  · rintro ⟨control, _, more, hwords, suffix, rfl, hsuffix⟩
    obtain ⟨indent, text₁, rfl, hindent, -, -, hhead₁, hwords₁⟩ := wordsBy_eq_cons_iff.mp hwords
    obtain ⟨gap, text₂, rfl, hspace, hsolid, hcontrol, hhead₂, hwords₂⟩ :=
      wordsBy_eq_cons_iff.mp hwords₁
    obtain ⟨gap', text₃, rfl, hspace', hmodule, hne, hhead₃, -⟩ := wordsBy_eq_cons_iff.mp hwords₂
    have hsuffixSolid : ∀ c ∈ suffix, (!isWhitespace c) = true := by
      intro c hmem
      rw [hmodule c (List.mem_append_right name hmem)]
      rfl
    have hnext : (suffix ++ text₃).takeWhile (fun c => !isWhitespace c) = suffix := by
      rw [List.takeWhile_append_of_pos hsuffixSolid]
      cases text₃ with
      | nil => simp
      | cons c text₃ => simp [hhead₃ c rfl]
    refine ⟨indent, _, rfl, hindent, _, rfl, gap, _, rfl, seps_ne_nil hsolid hcontrol hhead₁,
      hspace, control, _, rfl, hcontrol, ?_, gap', _, rfl, seps_ne_nil hmodule hne hhead₂,
      hspace', suffix ++ text₃, by rw [List.append_assoc], ?_, rfl⟩
    · intro c hmem
      rw [hsolid c hmem]
      rfl
    · rw [hname.wordBoundary_iff, hnext]
      exact hsuffix

/-- The text is nothing or ends with a newline. -/
def AtLineStart (front : List Char) : Prop := lineStart front.getLast? none = true

theorem atLineStart_nil : AtLineStart [] := rfl

theorem atLineStart_terminated (front : List Char) : AtLineStart (front ++ ['\n']) := by
  simp [AtLineStart, lineStart]

theorem atLineStart_flatten {pieces : List (List Char)}
    (hpieces : ∀ piece ∈ pieces, IsTerminated '\n' piece) : AtLineStart pieces.flatten := by
  rcases List.eq_nil_or_concat pieces with rfl | ⟨front, last, rfl⟩
  · exact atLineStart_nil
  · obtain ⟨body, -, rfl⟩ := hpieces last (by simp)
    rw [List.concat_eq_append, List.flatten_append, List.flatten_singleton, ← List.append_assoc]
    exact atLineStart_terminated _

theorem AtLineStart.cases {front : List Char} (hstart : AtLineStart front) :
    front = [] ∨ ∃ body, front = body ++ ['\n'] := by
  rcases List.eq_nil_or_concat front with rfl | ⟨body, c, rfl⟩
  · exact .inl rfl
  · have hc : c = '\n' := by simpa [AtLineStart, lineStart] using hstart
    rw [hc, List.concat_eq_append]
    exact .inr ⟨body, rfl⟩

theorem isMatch_moduleRegex (hname : IsModuleName unicodeWord name) :
    isMatch (moduleRegex unicodeWord name) text = true ↔
      ∃ front back, text = front ++ back ∧ AtLineStart front ∧ Wires unicodeWord name back := by
  rw [isMatch_iff]
  simp only [matchesAt_moduleRegex hname]
  rfl

theorem Wires.isInfix (hwires : Wires unicodeWord name text) : name <:+: text := by
  obtain ⟨control, _, more, hwords, suffix, rfl, -⟩ := hwires
  have hmodule : name ++ suffix ∈ wordsBy isWhitespace text := by
    rw [hwords]
    simp
  exact (List.prefix_append name suffix).isInfix.trans (isInfix_of_mem_wordsBy hmodule)

/-- Text without the name is not recognised. -/
theorem isInfix_of_isMatch (hname : IsModuleName unicodeWord name)
    (hmatch : isMatch (moduleRegex unicodeWord name) text = true) : name <:+: text := by
  obtain ⟨front, back, rfl, -, hwires⟩ := (isMatch_moduleRegex hname).mp hmatch
  exact hwires.isInfix.trans (List.suffix_append front back).isInfix

theorem startsAuth_iff :
    startsAuth text = true ↔
      ∃ c rest, text = "auth".toList ++ c :: rest ∧ isWhitespace c = true := by
  constructor
  · intro hstarts
    unfold startsAuth at hstarts
    split at hstarts
    · next hauth =>
        obtain ⟨rest, rfl⟩ := List.isPrefixOf_iff_prefix.mp hauth
        cases rest with
        | nil => cases hstarts
        | cons c rest => exact ⟨c, rest, rfl, hstarts⟩
    · cases hstarts
  · rintro ⟨c, rest, rfl, hc⟩
    simp [startsAuth, hc]

theorem isAuthDirective_iff :
    isAuthDirective text = true ↔ ∃ indent c rest, text = indent ++ ("auth".toList ++ c :: rest) ∧
      (∀ d ∈ indent, isWhitespace d = true) ∧ isWhitespace c = true := by
  rw [isAuthDirective, startsAuth_iff]
  constructor
  · rintro ⟨c, rest, htrim, hc⟩
    refine ⟨text.takeWhile isWhitespace, c, rest, ?_, fun d hmem => List.mem_takeWhile_imp hmem, hc⟩
    rw [← htrim, List.takeWhile_append_dropWhile]
  · rintro ⟨indent, c, rest, rfl, hindent, hc⟩
    refine ⟨c, rest, ?_, hc⟩
    rw [List.dropWhile_append_of_pos hindent]
    rfl

/-- The fallback line is recognised as one, whatever comes after it. -/
theorem u2fRecognition_of_line {front : List Char} (hstart : AtLineStart front) (back : List Char) :
    u2fRecognitionRegexMatch unicodeWord (front ++ (u2fFallbackLine ++ back)) = true := by
  refine (isMatch_moduleRegex isModuleName_u2fName).mpr ⟨front, _, rfl, hstart, ?_⟩
  refine ⟨"sufficient".toList, u2fName, wordsBy isWhitespace ("cue".toList ++ back), ?_, [],
    by simp, rfl⟩
  have hline : u2fFallbackLine = "auth    sufficient    pam_u2f.so".toList ++ ' ' :: "cue".toList :=
    by decide
  have hwords : wordsBy isWhitespace "auth    sufficient    pam_u2f.so".toList =
      ["auth".toList, "sufficient".toList, u2fName] := by decide
  rw [hline, List.append_assoc, List.cons_append, wordsBy_append_cons _ _ (by decide), hwords]
  rfl

end Recognised

/-! ## What the loops compute -/

section Loops

variable {original newLine body : List Char} {front back : List (List Char)} {line : List Char}

theorem foldl_insertStep_done (pieces : List (List Char)) (out : List Char) :
    pieces.foldl (insertStep newLine) (out, true) = (out ++ pieces.flatten, true) := by
  induction pieces generalizing out with
  | nil => simp
  | cons piece pieces ih =>
      have hstep : insertStep newLine (out, true) piece = (out ++ piece, true) := rfl
      rw [List.foldl_cons, hstep, ih, List.flatten_cons, List.append_assoc]

theorem foldl_insertStep_before {pieces : List (List Char)}
    (hpieces : ∀ piece ∈ pieces, isAuthDirective piece = false) (out : List Char) :
    pieces.foldl (insertStep newLine) (out, false) = (out ++ pieces.flatten, false) := by
  induction pieces generalizing out with
  | nil => simp
  | cons piece pieces ih =>
      obtain ⟨hpiece, hrest⟩ := List.forall_mem_cons.mp hpieces
      have hstep : insertStep newLine (out, false) piece = (out ++ piece, false) := by
        simp [insertStep, hpiece]
      rw [List.foldl_cons, hstep, ih hrest, List.flatten_cons, List.append_assoc]

/-- The lines that come before the inserted one. -/
def beforeAuth (original : List Char) : List (List Char) :=
  if (splitInclusive '\n' original).any isAuthDirective then
    (splitInclusive '\n' original).takeWhile fun line => !isAuthDirective line
  else []

/-- The lines that come after it. -/
def fromAuth (original : List Char) : List (List Char) :=
  if (splitInclusive '\n' original).any isAuthDirective then
    (splitInclusive '\n' original).dropWhile fun line => !isAuthDirective line
  else splitInclusive '\n' original

theorem beforeAuth_append_fromAuth (original : List Char) :
    splitInclusive '\n' original = beforeAuth original ++ fromAuth original := by
  unfold beforeAuth fromAuth
  split
  · rw [List.takeWhile_append_dropWhile]
  · rfl

theorem not_isAuthDirective_of_mem_beforeAuth (hmem : line ∈ beforeAuth original) :
    isAuthDirective line = false := by
  unfold beforeAuth at hmem
  split at hmem
  · simpa using List.mem_takeWhile_imp hmem
  · cases hmem

theorem isTerminated_of_mem_beforeAuth (hmem : line ∈ beforeAuth original) :
    IsTerminated '\n' line := by
  refine isTerminated_of_splitInclusive (beforeAuth_append_fromAuth original) ?_ line hmem
  unfold beforeAuth at hmem
  unfold fromAuth
  split at hmem
  · next hany =>
      rw [if_pos hany]
      intro hnil
      obtain ⟨piece, hpiece, hdirective⟩ := List.any_eq_true.mp hany
      have hnone := List.dropWhile_eq_nil_iff.mp hnil piece hpiece
      rw [hdirective] at hnone
      cases hnone
  · cases hmem

theorem insertLine_eq (original newLine : List Char) :
    insertLine original newLine =
      (beforeAuth original).flatten ++ (newLine ++ '\n' :: (fromAuth original).flatten) := by
  by_cases hany : (splitInclusive '\n' original).any isAuthDirective = true
  · have hscan : (splitInclusive '\n' original).foldl (insertStep newLine) ([], false) =
        ((beforeAuth original).flatten ++ (newLine ++ '\n' :: (fromAuth original).flatten),
          true) := by
      have hbefore : ∀ piece ∈ beforeAuth original, isAuthDirective piece = false :=
        fun piece hmem => not_isAuthDirective_of_mem_beforeAuth hmem
      rw [beforeAuth_append_fromAuth, List.foldl_append, foldl_insertStep_before hbefore]
      cases hfrom : fromAuth original with
      | nil =>
          -- a directive is somewhere, and not before
          rw [beforeAuth_append_fromAuth, hfrom, List.append_nil] at hany
          obtain ⟨piece, hpiece, hdirective⟩ := List.any_eq_true.mp hany
          rw [hbefore piece hpiece] at hdirective
          cases hdirective
      | cons first rest =>
          have hfirst : isAuthDirective first = true := by
            have hhead := List.head?_dropWhile_not (fun line => !isAuthDirective line)
              (splitInclusive '\n' original)
            rw [fromAuth, if_pos hany] at hfrom
            rw [hfrom] at hhead
            simpa using hhead
          have hstep : insertStep newLine ((beforeAuth original).flatten, false) first =
              ((beforeAuth original).flatten ++ newLine ++ ['\n'] ++ first, true) := by
            simp [insertStep, hfirst]
          rw [List.foldl_cons, List.nil_append, hstep, foldl_insertStep_done]
          simp
    rw [insertLine, hscan]
    rfl
  · have hnone : ∀ piece ∈ splitInclusive '\n' original, isAuthDirective piece = false := by
      intro piece hmem
      by_contra hdirective
      exact hany (List.any_eq_true.mpr ⟨piece, hmem, by simpa using hdirective⟩)
    rw [insertLine, foldl_insertStep_before hnone, beforeAuth, if_neg hany, fromAuth, if_neg hany,
      flatten_splitInclusive]
    simp

theorem flatten_beforeAuth_append (original : List Char) :
    (beforeAuth original).flatten ++ (fromAuth original).flatten = original := by
  rw [← List.flatten_append, ← beforeAuth_append_fromAuth, flatten_splitInclusive]

theorem splitInclusive_fromAuth (original : List Char) :
    splitInclusive '\n' (fromAuth original).flatten = fromAuth original := by
  by_cases hnil : fromAuth original = []
  · rw [hnil]
    rfl
  · exact splitInclusive_of_append (beforeAuth_append_fromAuth original) hnil

/-- The lines of the text with the insertion are those of the original around the new ones. -/
theorem splitInclusive_insertLine (original newLine : List Char) :
    splitInclusive '\n' (insertLine original newLine) =
      beforeAuth original ++ (splitInclusive '\n' (newLine ++ ['\n']) ++ fromAuth original) := by
  rw [insertLine_eq,
    splitInclusive_flatten_append fun piece hmem => isTerminated_of_mem_beforeAuth hmem,
    splitInclusive_append, splitInclusive_fromAuth]

theorem foldl_u2fStep_done (pieces : List (List Char)) (out : List Char) :
    pieces.foldl u2fStep (out, true) = (out ++ pieces.flatten, true) := by
  induction pieces generalizing out with
  | nil => simp
  | cons piece pieces ih =>
      have hstep : u2fStep (out, true) piece = (out ++ piece, true) := rfl
      rw [List.foldl_cons, hstep, ih, List.flatten_cons, List.append_assoc]

theorem foldl_u2fStep_before {pieces : List (List Char)}
    (hpieces : ∀ piece ∈ pieces, mentionsSyauth piece = false) (out : List Char) :
    pieces.foldl u2fStep (out, false) = (out ++ pieces.flatten, false) := by
  induction pieces generalizing out with
  | nil => simp
  | cons piece pieces ih =>
      obtain ⟨hpiece, hrest⟩ := List.forall_mem_cons.mp hpieces
      have hstep : u2fStep (out, false) piece = (out ++ piece, false) := by
        simp [u2fStep, hpiece]
      rw [List.foldl_cons, hstep, ih hrest, List.flatten_cons, List.append_assoc]

variable {unicodeWord : Char → Bool}

/-- The fallback line is put behind the first line that mentions the module. -/
theorem maybeInsertU2fFallback_of_split
    (hmissing : u2fRecognitionRegexMatch unicodeWord body = false)
    (hsplit : splitInclusive '\n' body = front ++ line :: back)
    (hfront : ∀ piece ∈ front, mentionsSyauth piece = false) (hline : mentionsSyauth line = true) :
    maybeInsertU2fFallback unicodeWord body true =
      front.flatten ++ (line ++ (u2fFallbackLine ++ '\n' :: back.flatten)) := by
  have hstep : u2fStep (front.flatten, false) line =
      (front.flatten ++ line ++ u2fFallbackLine ++ ['\n'], true) := by
    simp [u2fStep, hline]
  rw [maybeInsertU2fFallback, if_neg (by decide), hmissing, if_neg (by decide), hsplit,
    List.foldl_append, foldl_u2fStep_before hfront, List.foldl_cons, List.nil_append, hstep,
    foldl_u2fStep_done]
  simp

theorem maybeInsertU2fFallback_of_known {enabled : Bool}
    (hknown : enabled = true → u2fRecognitionRegexMatch unicodeWord body = true) :
    maybeInsertU2fFallback unicodeWord body enabled = body := by
  cases enabled with
  | false => rfl
  | true => rw [maybeInsertU2fFallback, if_neg (by decide), if_pos (hknown rfl)]

end Loops

/-! ## Lines that are passed over -/

section Passed

variable {unicodeWord : Char → Bool} {name text : List Char}

/-- A line start is that of the first line or one behind it. -/
theorem AtLineStart.first_or_later {body front back : List Char} (hstart : AtLineStart front)
    (hbody : '\n' ∉ body) (hsplit : body ++ '\n' :: text = front ++ back) :
    front = [] ∨ ∃ later, text = later ++ back ∧ AtLineStart later := by
  rcases hstart.cases with rfl | ⟨init, rfl⟩
  · exact .inl rfl
  · right
    rw [List.append_assoc, List.singleton_append] at hsplit
    rcases List.append_eq_append_iff.mp hsplit with ⟨rest, rfl, htext⟩ | ⟨rest, rfl, hback⟩
    · cases rest with
      | nil =>
          obtain ⟨-, rfl⟩ := List.cons.inj htext
          exact ⟨[], rfl, atLineStart_nil⟩
      | cons c rest =>
          obtain ⟨-, rfl⟩ := List.cons.inj htext
          exact ⟨rest ++ ['\n'], by simp, atLineStart_terminated rest⟩
    · cases rest with
      | nil =>
          obtain ⟨-, rfl⟩ := List.cons.inj hback
          exact ⟨[], rfl, atLineStart_nil⟩
      | cons c rest =>
          obtain ⟨rfl, -⟩ := List.cons.inj hback
          simp at hbody

theorem isAuthDirective_of_wordsBy {body : List Char} {words : List (List Char)}
    (hwords : wordsBy isWhitespace body = "auth".toList :: words) :
    isAuthDirective (body ++ ['\n']) = true := by
  obtain ⟨indent, rest, rfl, hindent, -, -, hhead, -⟩ := wordsBy_eq_cons_iff.mp hwords
  rw [isAuthDirective_iff]
  cases rest with
  | nil => exact ⟨indent, '\n', [], by simp, hindent, by decide⟩
  | cons c rest => exact ⟨indent, c, rest ++ ['\n'], by simp, hindent, hhead c rfl⟩

/-- A match is not in a line that is no `auth` directive, nor does it begin there. -/
theorem isMatch_of_piece (hname : IsModuleName unicodeWord name) {piece : List Char}
    (hpiece : IsTerminated '\n' piece) (hdirective : isAuthDirective piece = false)
    (hmatch : isMatch (moduleRegex unicodeWord name) (piece ++ text) = true) :
    isMatch (moduleRegex unicodeWord name) text = true := by
  obtain ⟨body, hbody, rfl⟩ := hpiece
  rw [isMatch_moduleRegex hname] at hmatch ⊢
  obtain ⟨front, back, hsplit, hstart, hwires⟩ := hmatch
  rw [List.append_assoc, List.singleton_append] at hsplit
  rcases hstart.first_or_later hbody hsplit with rfl | ⟨later, rfl, hlater⟩
  · -- a match from the start of the line goes on to the next one if the line is blank
    rw [List.nil_append] at hsplit
    obtain ⟨control, module, more, hwords, hmodule⟩ := hwires
    rw [← hsplit, wordsBy_append_cons body text (by decide)] at hwords
    cases hline : wordsBy isWhitespace body with
    | nil =>
        rw [hline, List.nil_append] at hwords
        exact ⟨[], text, rfl, atLineStart_nil, control, module, more, hwords, hmodule⟩
    | cons first rest =>
        rw [hline, List.cons_append] at hwords
        obtain ⟨rfl, -⟩ := List.cons.inj hwords
        rw [isAuthDirective_of_wordsBy hline] at hdirective
        cases hdirective
  · exact ⟨later, back, rfl, hlater, hwires⟩

theorem isMatch_of_pieces (hname : IsModuleName unicodeWord name) {pieces : List (List Char)}
    (hpieces : ∀ piece ∈ pieces, IsTerminated '\n' piece ∧ isAuthDirective piece = false)
    (hmatch : isMatch (moduleRegex unicodeWord name) (pieces.flatten ++ text) = true) :
    isMatch (moduleRegex unicodeWord name) text = true := by
  induction pieces with
  | nil => exact hmatch
  | cons piece pieces ih =>
      obtain ⟨⟨hpiece, hdirective⟩, hrest⟩ := List.forall_mem_cons.mp hpieces
      rw [List.flatten_cons, List.append_assoc] at hmatch
      exact ih hrest (isMatch_of_piece hname hpiece hdirective hmatch)

/-- The lines before the first plain directive have no part in a match. -/
theorem isMatch_beforeAuth (hname : IsModuleName unicodeWord name) (body text : List Char) :
    isMatch (moduleRegex unicodeWord name) ((beforeAuth body).flatten ++ text) =
      isMatch (moduleRegex unicodeWord name) text := by
  rw [Bool.eq_iff_iff]
  constructor
  · intro hmatch
    exact isMatch_of_pieces hname (fun piece hmem =>
      ⟨isTerminated_of_mem_beforeAuth hmem, not_isAuthDirective_of_mem_beforeAuth hmem⟩) hmatch
  · intro hmatch
    rw [isMatch_moduleRegex hname] at hmatch ⊢
    obtain ⟨front, back, rfl, hstart, hwires⟩ := hmatch
    refine ⟨(beforeAuth body).flatten ++ front, back, by simp, ?_, hwires⟩
    rcases hstart.cases with rfl | ⟨init, rfl⟩
    · rw [List.append_nil]
      exact atLineStart_flatten fun piece hmem => isTerminated_of_mem_beforeAuth hmem
    · rw [← List.append_assoc]
      exact atLineStart_terminated _

end Passed

/-! ## The service file after the installation -/

section Workflow

variable (unicodeWord : Char → Bool) (opts : InstallOpts)

def withSyauth (body : List Char) : List Char :=
  if recognitionRegexMatch unicodeWord body then body else insertLine body (buildLine opts)

def installedBody (body : List Char) : List Char :=
  maybeInsertU2fFallback unicodeWord (withSyauth unicodeWord opts body) opts.withU2fFallback

theorem fromUTF8?_toUTF8 (text : String) : String.fromUTF8? text.toUTF8 = some text := by
  have hvalid : text.toUTF8.IsValidUTF8 := text.isValidUTF8
  rw [String.fromUTF8?, dif_pos hvalid]
  rfl

/-- An installation over a body without the line takes a backup and writes the new body. -/
theorem install_of_missing {body : String} (mode : Nat)
    (hmissing : recognitionRegexMatch unicodeWord body.toList = false) :
    install unicodeWord opts ⟨some ⟨body.toUTF8, mode⟩, none⟩ =
      (.ok (.installed .service .backup),
        ⟨some ⟨(String.ofList (installedBody unicodeWord opts body.toList)).toUTF8, mode⟩,
          some ⟨body.toUTF8, mode⟩⟩) := by
  simp only [install, fromUTF8?_toUTF8, hmissing, Bool.false_and, Bool.false_eq_true, if_false,
    Option.isSome_none, Bool.and_false, installedBody, withSyauth]

/-- A body without the line but with a backup beside it is left alone. -/
theorem install_of_backup {body : String} (mode : Nat) (bak : File)
    (hmissing : recognitionRegexMatch unicodeWord body.toList = false) :
    install unicodeWord opts ⟨some ⟨body.toUTF8, mode⟩, some bak⟩ =
      (.error (.backupExists .backup), ⟨some ⟨body.toUTF8, mode⟩, some bak⟩) := by
  simp only [install, fromUTF8?_toUTF8, hmissing, Bool.false_and, Bool.false_eq_true, if_false,
    Bool.not_false, Option.isSome_some, Bool.and_self, if_true]

end Workflow

end Syauth.Cli
