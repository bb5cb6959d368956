import Syauth.Core.Frame
import Syauth.Text.Delimited
import Syauth.Text.Json
import Syauth.Text.Lines
import Syauth.Text.Utf8

/-! # The decision of the waybar applet

`parse_decision`, `json_string_field` and `wait_for_decision` of
`crates/syauth-cli/src/pair_backend.rs`.  The scanner is set against the grammar of JSON.
-/

namespace Syauth.Cli

open Text Text.Json

def quoted (key : List Char) : List Char :=
  '"' :: key ++ ['"']

def jsonStringField (text key : List Char) : Option (List Char) :=
  (splitOnce (quoted key) text).bind fun found =>
    (splitOnce [':'] found.2).bind fun colon =>
      (splitOnce ['"'] colon.2).bind fun opened =>
        (splitOnce ['"'] opened.2).map fun closed => closed.1

def requestIdKey : List Char := "request_id".toList
def decisionKey : List Char := "decision".toList

def decisionWord : Bool → List Char
  | true => "accept".toList
  | false => "reject".toList

def parseDecision (bytes : Bytes) (expectedId : String) : Option Bool :=
  (String.fromUTF8? bytes.toByteArray).bind fun text =>
    (jsonStringField text.toList requestIdKey).bind fun id =>
      if id ≠ expectedId.toList then none
      else
        (jsonStringField text.toList decisionKey).bind fun decision =>
          if decision = decisionWord true then some true
          else if decision = decisionWord false then some false
          else none

/-- The contents that the polls before the deadline find, where there is a file. -/
def waitForDecision (polls : List (Option Bytes)) (requestId : String) : Bool :=
  (polls.findSome? fun found => found.bind fun bytes => parseDecision bytes requestId).getD false

/-! ## What the scanner finds -/

/-- Behind the first place of the quoted key, the next colon and then the next two quotes
have the value between them. -/
def Scans (key text value : List Char) : Prop :=
  ∃ before gap lead after,
    text = before ++ quoted key ++ (gap ++ ':' :: (lead ++ '"' :: (value ++ '"' :: after))) ∧
    (∀ front back, text = front ++ quoted key ++ back → before.length ≤ front.length) ∧
    ':' ∉ gap ∧ '"' ∉ lead ∧ '"' ∉ value

theorem jsonStringField_eq_some {text key value : List Char} :
    jsonStringField text key = some value ↔ Scans key text value := by
  constructor
  · intro hfield
    obtain ⟨⟨before, afterKey⟩, hkey, hfield⟩ := Option.bind_eq_some_iff.mp hfield
    obtain ⟨⟨gap, afterColon⟩, hcolon, hfield⟩ := Option.bind_eq_some_iff.mp hfield
    obtain ⟨⟨lead, rest⟩, hopen, hfield⟩ := Option.bind_eq_some_iff.mp hfield
    obtain ⟨⟨value, after⟩, hclose, hvalue⟩ := Option.map_eq_some_iff.mp hfield
    subst hvalue
    obtain ⟨htext, hfirst⟩ := splitOnce_eq_some.mp hkey
    obtain ⟨hafterKey, hgap⟩ : afterKey = gap ++ ':' :: afterColon ∧ ':' ∉ gap :=
      splitOnce_singleton.mp hcolon
    obtain ⟨hafterColon, hlead⟩ : afterColon = lead ++ '"' :: rest ∧ '"' ∉ lead :=
      splitOnce_singleton.mp hopen
    obtain ⟨hrest, hfree⟩ : rest = value ++ '"' :: after ∧ '"' ∉ value :=
      splitOnce_singleton.mp hclose
    refine ⟨before, gap, lead, after, ?_, hfirst, hgap, hlead, hfree⟩
    rw [htext, hafterKey, hafterColon, hrest]
  · intro ⟨before, gap, lead, after, htext, hfirst, hgap, hlead, hfree⟩
    rw [jsonStringField, splitOnce_eq_some.mpr ⟨htext, hfirst⟩, Option.bind_some,
      splitOnce_singleton.mpr ⟨rfl, hgap⟩, Option.bind_some,
      splitOnce_singleton.mpr ⟨rfl, hlead⟩, Option.bind_some,
      splitOnce_singleton.mpr ⟨rfl, hfree⟩]
    rfl

theorem parseDecision_eq_some {bytes : Bytes} {expectedId : String} {verdict : Bool} :
    parseDecision bytes expectedId = some verdict ↔
      ∃ text, String.fromUTF8? bytes.toByteArray = some text ∧
        Scans requestIdKey text.toList expectedId.toList ∧
        Scans decisionKey text.toList (decisionWord verdict) := by
  simp only [← jsonStringField_eq_some]
  constructor
  · intro hparse
    obtain ⟨text, htext, hparse⟩ := Option.bind_eq_some_iff.mp hparse
    obtain ⟨id, hid, hparse⟩ := Option.bind_eq_some_iff.mp hparse
    split at hparse
    · cases hparse
    · next hsame =>
        obtain ⟨decision, hdecision, hparse⟩ := Option.bind_eq_some_iff.mp hparse
        rw [not_not] at hsame
        refine ⟨text, htext, hsame ▸ hid, ?_⟩
        split at hparse
        · next haccept =>
            cases hparse
            rw [hdecision, haccept]
        · split at hparse
          · next hreject =>
              cases hparse
              rw [hdecision, hreject]
          · cases hparse
  · intro ⟨text, htext, hid, hdecision⟩
    rw [parseDecision, htext, Option.bind_some, hid, Option.bind_some, if_neg (not_not.mpr rfl),
      hdecision, Option.bind_some]
    cases verdict <;> decide

/-! ## What the grammar says -/

/-- The bytes are a complete object with the two string members. -/
def IsDecision (bytes : Bytes) (requestId : String) (word : List Char) : Prop :=
  ∃ text members, String.fromUTF8? bytes.toByteArray = some text ∧
    IsText text.toList (.object members) ∧
    (requestIdKey, Value.string requestId.toList) ∈ members ∧
    (decisionKey, Value.string word) ∈ members

/-- A verdict is given for such an object only. -/
def AnswersOnlyDecisions (bytes : Bytes) (requestId : String) : Prop :=
  ∀ verdict, parseDecision bytes requestId = some verdict →
    IsDecision bytes requestId (decisionWord verdict)

/-! ## The content that the applet writes -/

/-- `{"request_id":"…","decision":"…"}`. -/
def appletText (id word : List Char) : List Char :=
  '{' :: (quoted requestIdKey ++ ':' :: (quoted id ++ ',' :: (quoted decisionKey ++
    ':' :: (quoted word ++ ['}']))))

/-- What is behind the first place of a quoted key. -/
def behind (key text : List Char) : Option (List Char) :=
  (splitOnce (quoted key) text).map Prod.snd

theorem behind_cons_of_not {key rest : List Char} {c : Char}
    (hnot : (quoted key).isPrefixOf (c :: rest) = false) :
    behind key (c :: rest) = behind key rest := by
  rw [behind, splitOnce, hnot, if_neg Bool.false_ne_true, Option.map_map]
  rfl

theorem behind_skip {key front : List Char} (hfree : '"' ∉ front) (rest : List Char) :
    behind key (front ++ rest) = behind key rest := by
  induction front with
  | nil => rfl
  | cons c front ih =>
      obtain ⟨hc, hfront⟩ := not_or.mp (mt List.mem_cons.mpr hfree)
      rw [List.cons_append, behind_cons_of_not, ih hfront]
      simp [quoted, List.isPrefixOf, hc]

theorem behind_self (key rest : List Char) : behind key (quoted key ++ rest) = some rest := by
  have hfound : splitOnce (quoted key) (quoted key ++ rest) = some ([], rest) :=
    splitOnce_eq_some.mpr ⟨rfl, fun front _ _ => Nat.zero_le front.length⟩
  rw [behind, hfound]
  rfl

theorem quoted_append (key rest : List Char) :
    quoted key ++ rest = '"' :: (key ++ '"' :: rest) := by
  simp [quoted]

/-- A quoted text is the key, or the search goes on at its closing quote. -/
theorem behind_quoted_of_ne {key other : List Char} (hne : key ≠ other) (hkey : '"' ∉ key)
    (hother : '"' ∉ other) (rest : List Char) :
    behind key (quoted other ++ rest) = behind key ('"' :: rest) := by
  have hnot : (quoted key).isPrefixOf ('"' :: (other ++ '"' :: rest)) = false := by
    rw [← Bool.not_eq_true, List.isPrefixOf_iff_prefix]
    intro ⟨tail, htail⟩
    rw [quoted_append] at htail
    -- both texts end at the first quote of the same list
    have hcut : splitOnce ['"'] (key ++ '"' :: tail) = some (key, tail) :=
      splitOnce_singleton.mpr ⟨rfl, hkey⟩
    rw [(List.cons.inj htail).2, splitOnce_singleton.mpr ⟨rfl, hother⟩] at hcut
    cases hcut
    exact hne rfl
  rw [quoted_append, behind_cons_of_not hnot, behind_skip hother]

theorem jsonStringField_of_behind {key text gap lead value after : List Char}
    (hbehind : behind key text = some (gap ++ ':' :: (lead ++ '"' :: (value ++ '"' :: after))))
    (hgap : ':' ∉ gap) (hlead : '"' ∉ lead) (hvalue : '"' ∉ value) :
    jsonStringField text key = some value := by
  obtain ⟨⟨before, rest⟩, hfound, hrest⟩ := Option.map_eq_some_iff.mp hbehind
  change rest = _ at hrest
  subst hrest
  obtain ⟨htext, hfirst⟩ := splitOnce_eq_some.mp hfound
  exact jsonStringField_eq_some.mpr ⟨before, gap, lead, after, htext, hfirst, hgap, hlead, hvalue⟩

variable {id word : List Char}

theorem requestId_appletText (hid : '"' ∉ id) :
    jsonStringField (appletText id word) requestIdKey = some id := by
  have hbehind : behind requestIdKey (appletText id word) =
      some ([] ++ ':' :: ([] ++ '"' :: (id ++ '"' :: (',' :: (quoted decisionKey ++
        ':' :: (quoted word ++ ['}'])))))) := by
    rw [appletText, behind_cons_of_not (by rfl), behind_self, quoted_append]
    rfl
  exact jsonStringField_of_behind hbehind (by simp) (by simp) hid

theorem decision_appletText (hid : '"' ∉ id) (hword : '"' ∉ word) :
    jsonStringField (appletText id word) decisionKey = some word := by
  have hstart : behind decisionKey (appletText id word) =
      behind decisionKey (quoted id ++ ',' :: (quoted decisionKey ++
        ':' :: (quoted word ++ ['}']))) := by
    rw [appletText, behind_cons_of_not (by rfl), behind_quoted_of_ne (by decide) (by decide)
      (by decide), behind_cons_of_not (by rfl), behind_cons_of_not (by rfl)]
  by_cases hsame : decisionKey = id
  · -- the value is taken for the key, and the colon behind the key is found all the same
    have hbehind : behind decisionKey (appletText id word) =
        some ((',' :: quoted decisionKey) ++ ':' :: ([] ++ '"' :: (word ++ '"' :: ['}']))) := by
      rw [hstart, ← hsame, behind_self]
      simp [quoted]
    exact jsonStringField_of_behind hbehind (by decide) (by simp) hword
  · have hbehind : behind decisionKey (appletText id word) =
        some ([] ++ ':' :: ([] ++ '"' :: (word ++ '"' :: ['}']))) := by
      rw [hstart, behind_quoted_of_ne hsame (by decide) hid, behind_cons_of_not (by rfl),
        behind_cons_of_not (by rfl), behind_self, quoted_append]
      rfl
    exact jsonStringField_of_behind hbehind (by simp) (by simp) hword

/-- The scanner reads what the applet writes, for any id and word without a quote. -/
theorem parseDecision_appletText (hid : '"' ∉ id) (hword : '"' ∉ word) (requestId : String) :
    parseDecision (utf8 (appletText id word)) requestId =
      if id ≠ requestId.toList then none
      else if word = decisionWord true then some true
      else if word = decisionWord false then some false
      else none := by
  rw [parseDecision, fromUTF8?_utf8, Option.bind_some, String.toList_ofList,
    requestId_appletText hid, Option.bind_some, decision_appletText hid hword, Option.bind_some]

theorem notMem_of_plain {text : List Char} (hplain : ∀ c ∈ text, isPlain c = true) :
    '"' ∉ text := by
  intro hmem
  have hquote := hplain '"' hmem
  revert hquote
  decide

/-- A member of an object: its characters, its name and its value. -/
structure Field where
  text : List Char
  name : List Char
  value : Value

def joinFields : List Field → List Char
  | [] => []
  | [field] => field.text
  | field :: rest => field.text ++ ',' :: joinFields rest

theorem joinFields_cons (field : Field) (rest : List Field) :
    ∃ tail, joinFields (field :: rest) = field.text ++ tail := by
  cases rest with
  | nil => exact ⟨[], (List.append_nil _).symm⟩
  | cons next rest => exact ⟨',' :: joinFields (next :: rest), rfl⟩

/-- A member that is spelled with the key and with a value without escapes. -/
def Field.Spells (field : Field) (key value : List Char) : Prop :=
  field.name = key ∧ field.value = .string value ∧ (∀ c ∈ value, isPlain c = true) ∧
    ∃ before between lead after, Blank before ∧ Blank between ∧ Blank lead ∧
      field.text = before ++ quoted key ++ (between ++ ':' :: (lead ++ quoted value ++ after))

/-- The first quoted key of the members is the name of one that spells key and value. -/
def OwnPlace (fields : List Field) (key value : List Char) : Prop :=
  ∃ front field back, fields = front ++ field :: back ∧ field.Spells key value ∧
    ∀ other ∈ front, ¬ quoted key <:+: other.text

/-- An object of such members, with blanks around it. -/
def OwnPlaces (text id word : List Char) : Prop :=
  ∃ lead fields trail, Blank lead ∧ Blank trail ∧
    (∀ field ∈ fields, IsMember field.text field.name field.value) ∧
    text = lead ++ '{' :: (joinFields fields ++ '}' :: trail) ∧
    OwnPlace fields requestIdKey id ∧ OwnPlace fields decisionKey word

theorem notMem_of_blank {text : List Char} (hblank : Blank text) {c : Char}
    (hc : isBlank c = false) : c ∉ text := by
  intro hmem
  rw [hblank c hmem] at hc
  cases hc

/-- A quoted key that is not in the front cannot begin there and end behind a character that
it does not have. -/
theorem behind_skip_of_not_infix {key front : List Char} {c : Char} (hc : c ∉ quoted key)
    (hfree : ¬ quoted key <:+: front) (rest : List Char) :
    behind key (front ++ c :: rest) = behind key rest := by
  have habsent : ∀ tail, ¬ quoted key <:+: tail →
      (quoted key).isPrefixOf (tail ++ c :: rest) = false := by
    intro tail htail
    rw [← Bool.not_eq_true, List.isPrefixOf_iff_prefix]
    intro hkey
    rcases List.prefix_or_prefix_of_prefix hkey (List.prefix_append tail (c :: rest)) with
      hin | hout
    · exact htail hin.isInfix
    · obtain ⟨more, hmore⟩ := hout
      rw [← hmore, List.prefix_append_right_inj] at hkey
      cases more with
      | nil =>
          rw [List.append_nil] at hmore
          exact htail (hmore ▸ List.infix_rfl)
      | cons d more =>
          obtain ⟨heq, -⟩ := List.cons_prefix_cons.mp hkey
          exact hc (hmore ▸ heq ▸ List.mem_append_right tail List.mem_cons_self)
  induction front with
  | nil => exact behind_cons_of_not (habsent [] hfree)
  | cons d front ih =>
      have hnot : (quoted key).isPrefixOf (d :: (front ++ c :: rest)) = false :=
        habsent (d :: front) hfree
      rw [List.cons_append, behind_cons_of_not hnot]
      exact ih fun hinside => hfree (hinside.trans (List.suffix_cons d front).isInfix)

/-- The members in front are passed over. -/
theorem behind_joinFields {key : List Char} (hcomma : ',' ∉ quoted key) {front : List Field}
    (hfront : ∀ other ∈ front, ¬ quoted key <:+: other.text) (field : Field)
    (back : List Field) (rest : List Char) :
    ∃ tail, behind key (joinFields (front ++ field :: back) ++ rest) =
      behind key (field.text ++ tail) := by
  induction front with
  | nil =>
      obtain ⟨tail, htail⟩ := joinFields_cons field back
      exact ⟨tail ++ rest, by rw [List.nil_append, htail, List.append_assoc]⟩
  | cons other front ih =>
      obtain ⟨hother, hothers⟩ := List.forall_mem_cons.mp hfront
      obtain ⟨tail, htail⟩ := ih hothers
      have hjoin : joinFields (other :: front ++ field :: back) =
          other.text ++ ',' :: joinFields (front ++ field :: back) := by
        cases front <;> rfl
      refine ⟨tail, ?_⟩
      rw [hjoin, List.append_assoc, List.cons_append, behind_skip_of_not_infix hcomma hother,
        htail]

/-- The scanner reads the value of the member at its own place. -/
theorem jsonStringField_of_ownPlace {key value lead trail : List Char} {fields : List Field}
    (hcomma : ',' ∉ quoted key) (hlead : '"' ∉ lead)
    (hplace : OwnPlace fields key value) :
    jsonStringField (lead ++ '{' :: (joinFields fields ++ '}' :: trail)) key = some value := by
  obtain ⟨front, field, back, rfl, hspells, hfront⟩ := hplace
  obtain ⟨-, -, hplain, before, between, gap, after, hbefore, hbetween, hgap, htext⟩ := hspells
  obtain ⟨tail, htail⟩ := behind_joinFields hcomma hfront field back ('}' :: trail)
  have hbehind : behind key (lead ++ '{' ::
      (joinFields (front ++ field :: back) ++ '}' :: trail)) =
        some (between ++ ':' :: (gap ++ '"' :: (value ++ '"' :: (after ++ tail)))) := by
    rw [behind_skip hlead, behind_cons_of_not (by simp [quoted, List.isPrefixOf]), htail, htext,
      List.append_assoc, List.append_assoc, behind_skip (notMem_of_blank hbefore rfl),
      behind_self]
    simp [quoted]
  exact jsonStringField_of_behind hbehind (notMem_of_blank hbetween rfl)
    (notMem_of_blank hgap rfl) (notMem_of_plain hplain)

variable {text : List Char}

/-- What the scanner makes of it. -/
theorem OwnPlaces.parseDecision (hown : OwnPlaces text id word) (requestId : String) :
    parseDecision (utf8 text) requestId =
      if id ≠ requestId.toList then none
      else if word = decisionWord true then some true
      else if word = decisionWord false then some false
      else none := by
  obtain ⟨lead, fields, trail, hlead, -, -, rfl, hid, hword⟩ := hown
  have hquote : '"' ∉ lead := notMem_of_blank hlead rfl
  rw [Cli.parseDecision, fromUTF8?_utf8, Option.bind_some, String.toList_ofList,
    jsonStringField_of_ownPlace (by decide) hquote hid, Option.bind_some,
    jsonStringField_of_ownPlace (by decide) hquote hword, Option.bind_some]

/-! ## When a verdict can be relied on -/

theorem Scans.unique {key text value other : List Char} (hvalue : Scans key text value)
    (hother : Scans key text other) : value = other := by
  rw [← jsonStringField_eq_some] at hvalue hother
  exact Option.some.inj (hvalue.symm.trans hother)

/-- Key and value, with blanks in front of them only. -/
def spelled (before key value : List Char) : Field :=
  ⟨before ++ (quoted key ++ ':' :: quoted value), key, .string value⟩

theorem isMember_spelled {before key value : List Char} (hbefore : Blank before)
    (hkey : ∀ c ∈ key, isPlain c = true) (hvalue : ∀ c ∈ value, isPlain c = true) :
    IsMember (spelled before key value).text key (.string value) := by
  have hnone : Blank [] := fun c hmem => (nomatch hmem)
  have hmember := IsMember.intro hbefore (isStringBody_of_plain hkey) hnone hnone
    (IsValue.string (isStringBody_of_plain hvalue)) hnone
  simpa [spelled, quoted] using hmember

theorem spells_spelled {before key value : List Char} (hbefore : Blank before)
    (hvalue : ∀ c ∈ value, isPlain c = true) : (spelled before key value).Spells key value := by
  have hnone : Blank [] := fun c hmem => (nomatch hmem)
  exact ⟨rfl, rfl, hvalue, before, [], [], [], hbefore, hnone, hnone, by simp [spelled]⟩

/-- In another order than the applet writes them, and with a blank between them. -/
example (verdict : Bool) : OwnPlaces ('{' :: (joinFields [spelled [] decisionKey
    (decisionWord verdict), spelled [' '] requestIdKey ['r']] ++ ['}'])) ['r']
      (decisionWord verdict) := by
  have hnone : Blank [] := fun c hmem => (nomatch hmem)
  have hspace : Blank [' '] := forall_mem_of_all (by decide)
  have hdecision : ∀ c ∈ decisionKey, isPlain c = true := forall_mem_of_all (by decide)
  have hrequest : ∀ c ∈ requestIdKey, isPlain c = true := forall_mem_of_all (by decide)
  have hid : ∀ c ∈ ['r'], isPlain c = true := forall_mem_of_all (by decide)
  have hword : ∀ c ∈ decisionWord verdict, isPlain c = true := by
    cases verdict <;> exact forall_mem_of_all (by decide)
  refine ⟨[], [spelled [] decisionKey (decisionWord verdict), spelled [' '] requestIdKey ['r']], [],
    hnone, hnone, ?_, rfl, ?_, ?_⟩
  · intro field hmem
    rcases List.mem_cons.mp hmem with rfl | hmem
    · exact isMember_spelled hnone hdecision hword
    · obtain rfl := List.mem_singleton.mp hmem
      exact isMember_spelled hspace hrequest hid
  · refine ⟨[spelled [] decisionKey (decisionWord verdict)], spelled [' '] requestIdKey ['r'], [],
      rfl, spells_spelled hspace hid, fun other hmem => ?_⟩
    rw [List.mem_singleton.mp hmem]
    clear hmem hword other
    decide +kernel +revert
  · exact ⟨[], spelled [] decisionKey (decisionWord verdict), [spelled [' '] requestIdKey ['r']],
      rfl, spells_spelled hnone hword, fun other hmem => (nomatch hmem)⟩

/-- A decision that ends the polling is that of a file of some poll. -/
theorem mem_of_waitForDecision {polls : List (Option Bytes)} {requestId : String}
    (hwait : waitForDecision polls requestId = true)
    (hpolls : ∀ bytes, some bytes ∈ polls → AnswersOnlyDecisions bytes requestId) :
    ∃ bytes, some bytes ∈ polls ∧ IsDecision bytes requestId (decisionWord true) := by
  rw [waitForDecision] at hwait
  cases hfound : polls.findSome? fun found => found.bind fun bytes =>
      parseDecision bytes requestId with
  | none =>
      rw [hfound] at hwait
      cases hwait
  | some verdict =>
      rw [hfound] at hwait
      change verdict = true at hwait
      obtain ⟨found, hmem, hparse⟩ := List.exists_of_findSome?_eq_some hfound
      obtain ⟨bytes, hbytes, hverdict⟩ := Option.bind_eq_some_iff.mp hparse
      rw [hwait] at hverdict
      exact ⟨bytes, hbytes ▸ hmem, hpolls bytes (hbytes ▸ hmem) true hverdict⟩

end Syauth.Cli
