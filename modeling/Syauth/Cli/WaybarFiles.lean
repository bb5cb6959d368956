import Syauth.Cli.PairFlow
import Syauth.Cli.WaybarDecision
import Syauth.Presenced.AuditFormat

/-! # The files between a pairing and the waybar applet

The content of `pair-request.json` as `make_waybar_confirm_handler` of
`crates/syauth-cli/src/pair_backend.rs` writes it, and what can be read off a part of either
file while it is being written.
-/

namespace Syauth.Cli

open Text Text.Json

/-- What an invocation asks about, and what its identifier is made of. -/
structure ConfirmRequest where
  pid : Nat
  nanos : Nat
  passkey : UInt32
  deriving DecidableEq

/-- What the applet shows. -/
structure ConfirmCard where
  requestId : String
  passkey : String
  deriving DecidableEq

def passkeyKey : List Char := "passkey".toList

namespace ConfirmRequest

variable (r : ConfirmRequest)

/-- `{}-{}`. -/
def requestId : String := toString r.pid ++ "-" ++ toString r.nanos

def card : ConfirmCard := ⟨r.requestId, sixDigits r.passkey⟩

/-- The members behind the identifier. -/
def requestTail (createdAtSecs : Nat) : List Char :=
  ',' :: (quoted passkeyKey ++ ':' :: (quoted (sixDigits r.passkey).toList ++
    ',' :: (quoted "created_at_secs".toList ++ ':' :: ((toString createdAtSecs).toList ++ ['}']))))

def requestText (createdAtSecs : Nat) : List Char :=
  '{' :: (quoted "schema_version".toList ++ ':' :: '1' :: ',' :: (quoted "kind".toList ++
    ':' :: (quoted "pair_confirm".toList ++ ',' :: (quoted requestIdKey ++
      ':' :: (quoted r.requestId.toList ++ r.requestTail createdAtSecs)))))

def requestJson (createdAtSecs : Nat) : Bytes := utf8 (r.requestText createdAtSecs)

end ConfirmRequest

/-- The response file after a click. -/
def answerJson (card : ConfirmCard) (accepts : Bool) : Bytes :=
  utf8 (appletText card.requestId.toList (decisionWord accepts))

/-! ## Identifiers -/

theorem isDigit_of_mem_toString {n : Nat} {c : Char} (hmem : c ∈ (toString n).toList) :
    c.isDigit = true := by
  rw [Nat.toString_eq_repr, Nat.toList_repr] at hmem
  exact Nat.isDigit_of_mem_toDigits (by decide) (by decide) hmem

theorem notMem_toString {n : Nat} {c : Char} (hc : c.isDigit = false) :
    c ∉ (toString n).toList := by
  intro hmem
  rw [isDigit_of_mem_toString hmem] at hc
  cases hc

namespace ConfirmRequest

variable {r r' : ConfirmRequest}

theorem toList_requestId (r : ConfirmRequest) :
    r.requestId.toList = (toString r.pid).toList ++ '-' :: (toString r.nanos).toList := by
  simp [requestId, String.toList_append]

/-- The process and the clock reading can be read off the identifier. -/
theorem stamp_of_requestId (hsame : r.requestId = r'.requestId) :
    r.pid = r'.pid ∧ r.nanos = r'.nanos := by
  have hlists := congrArg String.toList hsame
  rw [toList_requestId, toList_requestId] at hlists
  have hcut : splitOnce ['-'] r.requestId.toList =
      some ((toString r.pid).toList, (toString r.nanos).toList) :=
    splitOnce_singleton.mpr ⟨r.toList_requestId, notMem_toString (by decide)⟩
  rw [toList_requestId, hlists, splitOnce_singleton.mpr ⟨rfl, notMem_toString (by decide)⟩,
    Option.some.injEq, Prod.mk.injEq] at hcut
  exact ⟨(Presenced.toString_nat_inj (String.toList_inj.mp hcut.1)).symm,
    (Presenced.toString_nat_inj (String.toList_inj.mp hcut.2)).symm⟩

theorem quote_notMem_requestId (r : ConfirmRequest) : '"' ∉ r.requestId.toList := by
  rw [toList_requestId, List.mem_append, List.mem_cons]
  rintro (hpid | hdash | hnanos)
  · exact notMem_toString (by decide) hpid
  · exact absurd hdash (by decide)
  · exact notMem_toString (by decide) hnanos

end ConfirmRequest

/-! ## Parts of an answer -/

/-- The scanner finds in a longer text what it has found. -/
theorem jsonStringField_append {text key value : List Char}
    (hfield : jsonStringField text key = some value) (more : List Char) :
    jsonStringField (text ++ more) key = some value := by
  obtain ⟨found, hkey, hfield⟩ := Option.bind_eq_some_iff.mp hfield
  obtain ⟨colon, hcolon, hfield⟩ := Option.bind_eq_some_iff.mp hfield
  obtain ⟨opened, hopen, hfield⟩ := Option.bind_eq_some_iff.mp hfield
  obtain ⟨closed, hclose, rfl⟩ := Option.map_eq_some_iff.mp hfield
  rw [jsonStringField, splitOnce_append hkey more, Option.bind_some, splitOnce_append hcolon more,
    Option.bind_some, splitOnce_append hopen more, Option.bind_some, splitOnce_append hclose more]
  rfl

/-- A part of the answer, or the answer over the rest of a longer one. -/
def PartOf (content answer : Bytes) : Prop := content <+: answer ∨ answer <+: content

instance (content answer : Bytes) : Decidable (PartOf content answer) :=
  inferInstanceAs (Decidable (content <+: answer ∨ answer <+: content))

theorem decisionWord_inj {accepts decision : Bool}
    (hsame : decisionWord accepts = decisionWord decision) : accepts = decision := by
  cases accepts <;> cases decision <;> first | rfl | exact absurd hsame (by decide)

/-- Whatever part of an answer is there, a verdict is the one of the answer, on its card. -/
theorem parseDecision_of_partOf {card : ConfirmCard} {accepts decision : Bool} {content : Bytes}
    {requestId : String} (hquote : '"' ∉ card.requestId.toList)
    (hpart : PartOf content (answerJson card accepts))
    (hparse : parseDecision content requestId = some decision) :
    card.requestId = requestId ∧ accepts = decision := by
  obtain ⟨text, htext, hid, hdecision⟩ := parseDecision_eq_some.mp hparse
  rw [← jsonStringField_eq_some] at hid hdecision
  have hword : '"' ∉ decisionWord accepts := by cases accepts <;> decide
  have hfields : ∀ key value answered,
      jsonStringField (appletText card.requestId.toList (decisionWord accepts)) key =
        some answered → jsonStringField text.toList key = some value → answered = value := by
    intro key value answered hanswered hvalue
    have hbytes := utf8_of_fromUTF8? htext
    rcases hpart with ⟨rest, hrest⟩ | ⟨rest, hrest⟩
    · rw [← hbytes] at hrest
      obtain ⟨more, hmore⟩ := isPrefix_of_utf8_append hrest
      rw [← hmore, jsonStringField_append hvalue] at hanswered
      exact (Option.some.inj hanswered).symm
    · rw [← hbytes] at hrest
      obtain ⟨more, hmore⟩ := isPrefix_of_utf8_append hrest
      rw [← hmore, jsonStringField_append hanswered] at hvalue
      exact Option.some.inj hvalue
  refine ⟨String.toList_inj.mp (hfields _ _ _ (requestId_appletText hquote) hid), ?_⟩
  exact decisionWord_inj (hfields _ _ _ (decision_appletText hquote hword) hdecision)

theorem parseDecision_answerJson (r : ConfirmRequest) (accepts : Bool) :
    parseDecision (answerJson r.card accepts) r.requestId = some accepts := by
  have hword : '"' ∉ decisionWord accepts := by cases accepts <;> decide
  have hparse := parseDecision_appletText r.quote_notMem_requestId hword r.requestId
  rw [if_neg (not_not.mpr rfl)] at hparse
  refine hparse.trans ?_
  cases accepts <;> rfl

/-! ## Reading a request -/

/-- A card of the applet is the one of the request in the file, whatever an older request has
left behind it; an empty file has no card. -/
structure ReadsRequests (readCard : Bytes → Option ConfirmCard) : Prop where
  nil : readCard [] = none
  request : ∀ {r : ConfirmRequest} {createdAtSecs : Nat} {rest : Bytes} {card : ConfirmCard},
    readCard (r.requestJson createdAtSecs ++ rest) = some card → card = r.card

/-- The search goes on behind a member that has another name or a value of another text. -/
theorem behind_member {key other : List Char} (hne : key ≠ other) (hkey : '"' ∉ key)
    (hother : '"' ∉ other) (c : Char) (gap : List Char) (hc : key.head? ≠ some c)
    (hgap : '"' ∉ c :: gap) (rest : List Char) :
    behind key (quoted other ++ c :: (gap ++ rest)) = behind key rest := by
  have hnot : (quoted key).isPrefixOf ('"' :: c :: (gap ++ rest)) = false := by
    cases key with
    | nil =>
        have hquote : ('"' == c) = false := beq_eq_false_iff_ne.mpr fun heq =>
          hgap (heq ▸ List.mem_cons_self)
        simp [quoted, List.isPrefixOf, hquote]
    | cons k key =>
        have hk : (k == c) = false := beq_eq_false_iff_ne.mpr fun heq => hc (heq ▸ rfl)
        simp [quoted, List.isPrefixOf, hk]
  rw [behind_quoted_of_ne hne hkey hother, behind_cons_of_not hnot, ← List.cons_append,
    behind_skip hgap]

/-- An applet that reads requests the way the answers are read. -/
def scanCard (bytes : Bytes) : Option ConfirmCard :=
  (String.fromUTF8? bytes.toByteArray).bind fun text =>
    (jsonStringField text.toList requestIdKey).bind fun requestId =>
      (jsonStringField text.toList passkeyKey).map fun passkey =>
        ⟨String.ofList requestId, String.ofList passkey⟩

section Scan

variable (r : ConfirmRequest) (createdAtSecs : Nat)

theorem behind_requestText {key : List Char} (hquote : '"' ∉ key)
    (hschema : key ≠ "schema_version".toList) (hkind : key ≠ "kind".toList)
    (hconfirm : key ≠ "pair_confirm".toList) (hcolon : key.head? ≠ some ':')
    (hcomma : key.head? ≠ some ',') :
    behind key (r.requestText createdAtSecs) =
      behind key (quoted requestIdKey ++ ':' :: (quoted r.requestId.toList ++
        r.requestTail createdAtSecs)) := by
  have hfirst : (quoted key).isPrefixOf ('{' :: (quoted "schema_version".toList ++ ':' :: '1' ::
      ',' :: (quoted "kind".toList ++ ':' :: (quoted "pair_confirm".toList ++ ',' ::
        (quoted requestIdKey ++ ':' :: (quoted r.requestId.toList ++
          r.requestTail createdAtSecs)))))) = false := rfl
  rw [ConfirmRequest.requestText, behind_cons_of_not hfirst]
  have hversion := behind_member hschema hquote (by decide) ':' ['1', ','] hcolon (by decide)
  have hkinds := behind_member hkind hquote (by decide) ':' [] hcolon (by decide)
  have hconfirms := behind_member hconfirm hquote (by decide) ',' [] hcomma (by decide)
  exact (hversion _).trans ((hkinds _).trans (hconfirms _))

theorem requestId_requestText :
    jsonStringField (r.requestText createdAtSecs) requestIdKey = some r.requestId.toList := by
  have hbehind : behind requestIdKey (r.requestText createdAtSecs) =
      some ([] ++ ':' :: ([] ++ '"' :: (r.requestId.toList ++ '"' ::
        r.requestTail createdAtSecs))) := by
    rw [behind_requestText r createdAtSecs (by decide) (by decide) (by decide) (by decide)
      (by decide) (by decide), behind_self, quoted_append]
    rfl
  exact jsonStringField_of_behind hbehind (by simp) (by simp) r.quote_notMem_requestId

theorem passkeyKey_ne_requestId : passkeyKey ≠ r.requestId.toList := by
  intro hsame
  have hmem : 'p' ∈ r.requestId.toList := hsame ▸ List.mem_cons_self
  rw [r.toList_requestId, List.mem_append, List.mem_cons] at hmem
  rcases hmem with hpid | hdash | hnanos
  · exact notMem_toString (by decide) hpid
  · exact absurd hdash (by decide)
  · exact notMem_toString (by decide) hnanos

theorem quote_notMem_sixDigits (code : UInt32) : '"' ∉ (sixDigits code).toList := by
  rw [sixDigits, String.toList_ofList, List.leftpad, List.mem_append]
  rintro (hzero | hdigit)
  · exact absurd (List.eq_of_mem_replicate hzero) (by decide)
  · exact absurd (Nat.isDigit_of_mem_toDigits (by decide) (by decide) hdigit) (by decide)

theorem passkey_requestText :
    jsonStringField (r.requestText createdAtSecs) passkeyKey =
      some (sixDigits r.passkey).toList := by
  have hname : passkeyKey ≠ requestIdKey := by decide
  have hid := behind_member hname (by decide) (by decide) ':' [] (by decide) (by decide)
  have hvalue := behind_member (passkeyKey_ne_requestId r) (by decide) r.quote_notMem_requestId
    ',' [] (by decide) (by decide)
  have hbehind : behind passkeyKey (r.requestText createdAtSecs) =
      some ([] ++ ':' :: ([] ++ '"' :: ((sixDigits r.passkey).toList ++ '"' ::
        ',' :: (quoted "created_at_secs".toList ++ ':' ::
          ((toString createdAtSecs).toList ++ ['}']))))) := by
    rw [behind_requestText r createdAtSecs (by decide) (by decide) (by decide) (by decide)
      (by decide) (by decide)]
    refine (hid _).trans ((hvalue _).trans ((behind_self passkeyKey _).trans ?_))
    rw [quoted_append]
    rfl
  exact jsonStringField_of_behind hbehind (by simp) (by simp) (quote_notMem_sixDigits r.passkey)

theorem scanCard_requestJson : scanCard (r.requestJson createdAtSecs) = some r.card := by
  rw [scanCard, ConfirmRequest.requestJson, fromUTF8?_utf8, Option.bind_some,
    String.toList_ofList, requestId_requestText, Option.bind_some, passkey_requestText,
    Option.map_some, String.ofList_toList, String.ofList_toList]
  rfl

theorem readsRequests_scanCard : ReadsRequests scanCard where
  nil := by
    have hempty := fromUTF8?_utf8 []
    rw [utf8_nil] at hempty
    rw [scanCard, hempty]
    rfl
  request := by
    intro r createdAtSecs rest card hcard
    obtain ⟨text, htext, hcard⟩ := Option.bind_eq_some_iff.mp hcard
    obtain ⟨requestId, hid, hcard⟩ := Option.bind_eq_some_iff.mp hcard
    obtain ⟨passkey, hpasskey, rfl⟩ := Option.map_eq_some_iff.mp hcard
    have hbytes := utf8_of_fromUTF8? htext
    obtain ⟨more, hmore⟩ := isPrefix_of_utf8_append hbytes.symm
    rw [← hmore, jsonStringField_append (requestId_requestText r createdAtSecs)] at hid
    rw [← hmore, jsonStringField_append (passkey_requestText r createdAtSecs)] at hpasskey
    cases hid
    cases hpasskey
    rw [String.ofList_toList, String.ofList_toList]
    rfl

end Scan

end Syauth.Cli
