import Syauth.Core.Frame
import Syauth.Text.Delimited
import Syauth.Text.Hex

/-! # The invite URI

`parse_invite_uri` of `crates/syauth-mobile/src/implementation.rs`.  `hex::decode` is the
reading of hexadecimal text.
-/

namespace Syauth.Mobile

open Text

def inviteUriScheme : List Char := "syauth://".toList
def inviteUriHostPath : List Char := "invite?".toList
def inviteQueryKeyHost : List Char := "host".toList
def inviteQueryKeyPubkey : List Char := "pubkey".toList
def invitePubkeyLen : Nat := 32

structure Invite where
  hostName : String
  hostPubkey : Bytes
  deriving DecidableEq

/-- `MobileError::InvalidInvite`, the only error of the parser. -/
structure InvalidInvite where
  reason : String
  deriving DecidableEq

def stripPrefix (lead text : List Char) : Option (List Char) :=
  if lead.isPrefixOf text then some (text.drop lead.length) else none

/-- What `splitn(2, '=')` gives: without a `=` the key is all of the item. -/
def keyValue (item : List Char) : List Char × List Char :=
  (splitOnce ['='] item).getD (item, [])

def itemKey (item : List Char) : List Char := (keyValue item).1

def itemValue (item : List Char) : List Char := (keyValue item).2

/-- The variables of the loop. -/
structure InviteFields where
  hostName : Option (List Char)
  hostPubkeyHex : Option (List Char)

def visitPair (fields : InviteFields) (pair : List Char) : Except InvalidInvite InviteFields :=
  if pair = [] then .ok fields
  else if itemKey pair = inviteQueryKeyHost then
    if itemValue pair = [] then .error ⟨"query key 'host' has empty value"⟩
    else .ok { fields with hostName := some (itemValue pair) }
  else if itemKey pair = inviteQueryKeyPubkey then
    .ok { fields with hostPubkeyHex := some (itemValue pair) }
  else .ok fields

def visitPairs (fields : InviteFields) : List (List Char) → Except InvalidInvite InviteFields
  | [] => .ok fields
  | pair :: rest =>
      match visitPair fields pair with
      | .error err => .error err
      | .ok next => visitPairs next rest

/-- What follows the loop. -/
def InviteFields.toInvite (fields : InviteFields) : Except InvalidInvite Invite :=
  match fields.hostName, fields.hostPubkeyHex with
  | none, _ => .error ⟨"missing required query key 'host'"⟩
  | some _, none => .error ⟨"missing required query key 'pubkey'"⟩
  | some hostName, some hostPubkeyHex =>
      match decodeHex hostPubkeyHex with
      | none => .error ⟨"query key 'pubkey' is not lowercase hex"⟩
      | some hostPubkey =>
          if hostPubkey.length ≠ invitePubkeyLen then
            .error ⟨"query key 'pubkey' must decode to " ++ toString invitePubkeyLen ++
              " bytes, got " ++ toString hostPubkey.length⟩
          else .ok ⟨String.ofList hostName, hostPubkey⟩

def parseQuery (query : List Char) : Except InvalidInvite Invite :=
  match visitPairs ⟨none, none⟩ (query.splitOn '&') with
  | .error err => .error err
  | .ok fields => fields.toInvite

def parseInviteUri (uri : String) : Except InvalidInvite Invite :=
  match stripPrefix inviteUriScheme uri.toList with
  | none => .error ⟨"missing scheme prefix " ++ String.ofList inviteUriScheme⟩
  | some afterScheme =>
      match stripPrefix inviteUriHostPath afterScheme with
      | none => .error ⟨"missing path segment '" ++ String.ofList inviteUriHostPath ++ "'"⟩
      | some query => parseQuery query

/-! ## The grammar -/

/-- The values of the items with a key, in their order. -/
def valuesOf (key : List Char) (items : List (List Char)) : List (List Char) :=
  (items.filter fun item => itemKey item = key).map itemValue

def IsHexDigit (c : Char) : Prop :=
  '0' ≤ c ∧ c ≤ '9' ∨ 'a' ≤ c ∧ c ≤ 'f' ∨ 'A' ≤ c ∧ c ≤ 'F'

/-- The URI with the items of its query. -/
def inviteUri (items : List (List Char)) : String :=
  String.ofList (inviteUriScheme ++ (inviteUriHostPath ++ List.intercalate ['&'] items))

/-- No item contains the separator. -/
def Separated (items : List (List Char)) : Prop := ∀ item ∈ items, '&' ∉ item

/-- The items name a host and a key, and these are the last that they name. -/
structure Invites (items : List (List Char)) (invite : Invite) : Prop where
  separated : Separated items
  hosts : ∀ value ∈ valuesOf inviteQueryKeyHost items, value ≠ []
  host : (valuesOf inviteQueryKeyHost items).getLast? = some invite.hostName.toList
  pubkey : ∃ hex, (valuesOf inviteQueryKeyPubkey items).getLast? = some hex ∧
    hex.length = 64 ∧ (∀ c ∈ hex, IsHexDigit c) ∧ decodeHex hex = some invite.hostPubkey

/-! ## What the loop collects -/

section Loop

variable {key : List Char} {item : List Char} {items : List (List Char)}

theorem valuesOf_cons_self (hkey : itemKey item = key) :
    valuesOf key (item :: items) = itemValue item :: valuesOf key items := by
  simp [valuesOf, hkey]

theorem valuesOf_cons_of_ne (hkey : itemKey item ≠ key) :
    valuesOf key (item :: items) = valuesOf key items := by
  simp [valuesOf, hkey]

theorem valuesOf_append (front back : List (List Char)) :
    valuesOf key (front ++ back) = valuesOf key front ++ valuesOf key back := by
  simp [valuesOf]

theorem ne_nil_of_itemKey (hkey : itemKey item ≠ []) : item ≠ [] := by
  intro h
  subst h
  exact hkey rfl

theorem visitPair_host (hkey : itemKey item = inviteQueryKeyHost) (fields : InviteFields) :
    visitPair fields item =
      if itemValue item = [] then .error ⟨"query key 'host' has empty value"⟩
      else .ok { fields with hostName := some (itemValue item) } := by
  have hnil : item ≠ [] := ne_nil_of_itemKey (by rw [hkey]; decide)
  rw [visitPair, if_neg hnil, if_pos hkey]

theorem visitPair_pubkey (hkey : itemKey item = inviteQueryKeyPubkey) (fields : InviteFields) :
    visitPair fields item = .ok { fields with hostPubkeyHex := some (itemValue item) } := by
  have hnil : item ≠ [] := ne_nil_of_itemKey (by rw [hkey]; decide)
  have hhost : itemKey item ≠ inviteQueryKeyHost := by
    rw [hkey]
    decide
  rw [visitPair, if_neg hnil, if_neg hhost, if_pos hkey]

theorem visitPair_other (hhost : itemKey item ≠ inviteQueryKeyHost)
    (hpubkey : itemKey item ≠ inviteQueryKeyPubkey) (fields : InviteFields) :
    visitPair fields item = .ok fields := by
  rw [visitPair, if_neg hhost, if_neg hpubkey, ite_self]

/-- A later value takes the place of an earlier one. -/
theorem getLast?_cons_or {α : Type} (value : α) (values : List α) (earlier : Option α) :
    (value :: values).getLast?.or earlier = values.getLast?.or (some value) := by
  rw [List.getLast?_cons]
  cases values.getLast? with
  | none => rfl
  | some last => rfl

/-- The loop fails on a host without a value, and else keeps the last values. -/
theorem visitPairs_eq (fields : InviteFields) (items : List (List Char)) :
    visitPairs fields items =
      if [] ∈ valuesOf inviteQueryKeyHost items then .error ⟨"query key 'host' has empty value"⟩
      else .ok ⟨(valuesOf inviteQueryKeyHost items).getLast?.or fields.hostName,
        (valuesOf inviteQueryKeyPubkey items).getLast?.or fields.hostPubkeyHex⟩ := by
  induction items generalizing fields with
  | nil => rfl
  | cons item rest ih =>
      unfold visitPairs
      by_cases hhost : itemKey item = inviteQueryKeyHost
      · have hpubkey : itemKey item ≠ inviteQueryKeyPubkey := by
          rw [hhost]
          decide
        rw [visitPair_host hhost, valuesOf_cons_self hhost, valuesOf_cons_of_ne hpubkey,
          getLast?_cons_or]
        by_cases hvalue : itemValue item = []
        · simp only [hvalue, List.mem_cons, true_or, if_true]
        · have hmem : [] ∈ itemValue item :: valuesOf inviteQueryKeyHost rest ↔
              [] ∈ valuesOf inviteQueryKeyHost rest := by
            rw [List.mem_cons]
            exact or_iff_right (Ne.symm hvalue)
          simp only [if_neg hvalue, ih, hmem]
      · rw [valuesOf_cons_of_ne hhost]
        by_cases hpubkey : itemKey item = inviteQueryKeyPubkey
        · rw [visitPair_pubkey hpubkey, valuesOf_cons_self hpubkey, getLast?_cons_or]
          simp only [ih]
        · rw [visitPair_other hhost hpubkey, valuesOf_cons_of_ne hpubkey]
          simp only [ih]

end Loop

/-! ## What is accepted -/

theorem stripPrefix_eq_some {lead text rest : List Char} :
    stripPrefix lead text = some rest ↔ text = lead ++ rest := by
  unfold stripPrefix
  split
  next hlead =>
    obtain ⟨back, hback⟩ := List.isPrefixOf_iff_prefix.mp hlead
    rw [← hback, List.drop_left, Option.some_inj]
    exact ⟨fun h => by rw [h], List.append_cancel_left⟩
  next hlead =>
    constructor
    · intro h
      cases h
    · intro htext
      exact absurd (List.isPrefixOf_iff_prefix.mpr ⟨rest, htext.symm⟩) hlead

/-- The result, from the values of the two keys. -/
def ofValues (hosts pubkeys : List (List Char)) : Except InvalidInvite Invite :=
  if [] ∈ hosts then .error ⟨"query key 'host' has empty value"⟩
  else (InviteFields.mk hosts.getLast? pubkeys.getLast?).toInvite

theorem parseQuery_eq (query : List Char) :
    parseQuery query = ofValues (valuesOf inviteQueryKeyHost (query.splitOn '&'))
      (valuesOf inviteQueryKeyPubkey (query.splitOn '&')) := by
  unfold parseQuery ofValues
  rw [visitPairs_eq]
  by_cases hempty : [] ∈ valuesOf inviteQueryKeyHost (query.splitOn '&')
  · simp only [if_pos hempty]
  · simp only [if_neg hempty, Option.or_none]

/-- Only the values of the two keys matter. -/
theorem parseInviteUri_inviteUri {items : List (List Char)} (hseparated : Separated items) :
    parseInviteUri (inviteUri items) =
      ofValues (valuesOf inviteQueryKeyHost items) (valuesOf inviteQueryKeyPubkey items) := by
  have hscheme : stripPrefix inviteUriScheme (inviteUri items).toList =
      some (inviteUriHostPath ++ List.intercalate ['&'] items) := by
    rw [inviteUri, String.toList_ofList, stripPrefix_eq_some]
  have hpath : stripPrefix inviteUriHostPath (inviteUriHostPath ++ List.intercalate ['&'] items) =
      some (List.intercalate ['&'] items) := stripPrefix_eq_some.mpr rfl
  simp only [parseInviteUri, hscheme, hpath, parseQuery_eq]
  cases items with
  | nil => rfl
  | cons item rest => rw [List.splitOn_intercalate '&' hseparated (List.cons_ne_nil item rest)]

/-- What is accepted has the form of a URI with items. -/
theorem exists_items_of_parseInviteUri {uri : String} {invite : Invite}
    (hparse : parseInviteUri uri = .ok invite) :
    ∃ items, Separated items ∧ uri = inviteUri items := by
  unfold parseInviteUri at hparse
  split at hparse
  next => cases hparse
  next afterScheme hscheme =>
    split at hparse
    next => cases hparse
    next query hquery =>
      refine ⟨query.splitOn '&', fun item hitem => notMem_of_mem_splitOn hitem, ?_⟩
      rw [inviteUri, List.intercalate_splitOn, ← stripPrefix_eq_some.mp hquery,
        ← stripPrefix_eq_some.mp hscheme, String.ofList_toList]

theorem hexDigit?_isSome_iff {c : Char} : (hexDigit? c).isSome ↔ IsHexDigit c := by
  unfold hexDigit? IsHexDigit
  by_cases hdigit : '0' ≤ c ∧ c ≤ '9'
  · simp [hdigit]
  · by_cases hlower : 'a' ≤ c ∧ c ≤ 'f'
    · simp [hdigit, hlower]
    · by_cases hupper : 'A' ≤ c ∧ c ≤ 'F' <;> simp [hdigit, hlower, hupper]

theorem toInvite_eq_ok {fields : InviteFields} {invite : Invite} :
    fields.toInvite = .ok invite ↔
      fields.hostName = some invite.hostName.toList ∧
        ∃ hex, fields.hostPubkeyHex = some hex ∧ hex.length = 64 ∧
          (∀ c ∈ hex, IsHexDigit c) ∧ decodeHex hex = some invite.hostPubkey := by
  obtain ⟨hostName, hostPubkeyHex⟩ := fields
  constructor
  · intro hinvite
    unfold InviteFields.toInvite at hinvite
    split at hinvite
    next => cases hinvite
    next => cases hinvite
    next name hex hname hhex =>
      split at hinvite
      next => cases hinvite
      next bytes hbytes =>
        split at hinvite
        next => cases hinvite
        next hlength =>
          cases hinvite
          have hdigits := decodeHex_isSome.mp (Option.isSome_of_eq_some hbytes)
          refine ⟨?_, hex, hhex, ?_, ?_, hbytes⟩
          · rw [String.toList_ofList]
            exact hname
          · rw [length_of_decodeHex hbytes, Decidable.not_not.mp hlength]
            rfl
          · intro c hc
            exact hexDigit?_isSome_iff.mp (hdigits.2 c hc)
  · intro ⟨hname, hex, hhex, hlength, _, hbytes⟩
    have hbytesLength : invite.hostPubkey.length = invitePubkeyLen := by
      have hdouble := length_of_decodeHex hbytes
      unfold invitePubkeyLen
      omega
    subst hname hhex
    simp only [InviteFields.toInvite, hbytes, hbytesLength, ne_eq, not_true_eq_false, if_false,
      String.ofList_toList]

theorem ofValues_eq_ok {items : List (List Char)} (hseparated : Separated items)
    {invite : Invite} :
    ofValues (valuesOf inviteQueryKeyHost items) (valuesOf inviteQueryKeyPubkey items) =
      .ok invite ↔ Invites items invite := by
  unfold ofValues
  split
  next hempty =>
    constructor
    · intro h
      cases h
    · intro hinvites
      exact absurd rfl (hinvites.hosts [] hempty)
  next hempty =>
    rw [toInvite_eq_ok]
    constructor
    · intro ⟨hhost, hpubkey⟩
      refine ⟨hseparated, fun value hvalue hnil => ?_, hhost, hpubkey⟩
      rw [hnil] at hvalue
      exact hempty hvalue
    · intro hinvites
      exact ⟨hinvites.host, hinvites.pubkey⟩

/-! ## Rearranging a query -/

/-- An item with one of the two keys. -/
def namesField (item : List Char) : Bool :=
  itemKey item = inviteQueryKeyHost ∨ itemKey item = inviteQueryKeyPubkey

theorem valuesOf_filter_namesField {key : List Char}
    (hkey : key = inviteQueryKeyHost ∨ key = inviteQueryKeyPubkey) (items : List (List Char)) :
    valuesOf key (items.filter namesField) = valuesOf key items := by
  unfold valuesOf
  rw [List.filter_filter]
  congr 1
  apply List.filter_congr
  intro item _
  unfold namesField
  by_cases hitem : itemKey item = key
  · rw [hitem]
    simp [hkey]
  · simp [hitem]

theorem valuesOf_swap {key one other : List Char} (hone : itemKey one ≠ itemKey other)
    (front back : List (List Char)) :
    valuesOf key (front ++ one :: other :: back) =
      valuesOf key (front ++ other :: one :: back) := by
  rw [valuesOf_append, valuesOf_append]
  congr 1
  by_cases hkey : itemKey one = key
  · have hother : itemKey other ≠ key := fun h => hone (hkey.trans h.symm)
    rw [valuesOf_cons_self hkey, valuesOf_cons_of_ne hother, valuesOf_cons_of_ne hother,
      valuesOf_cons_self hkey]
  · rw [valuesOf_cons_of_ne hkey]
    by_cases hother : itemKey other = key
    · rw [valuesOf_cons_self hother, valuesOf_cons_self hother, valuesOf_cons_of_ne hkey]
    · rw [valuesOf_cons_of_ne hother, valuesOf_cons_of_ne hother, valuesOf_cons_of_ne hkey]

/-- Exactly the URIs whose items name a host and a key are accepted, with the last of each;
items with other keys do not matter, nor does the order of a host and a key. -/
theorem parseInviteUri_grammar :
    (∀ uri invite, parseInviteUri uri = .ok invite ↔
      ∃ items, uri = inviteUri items ∧ Invites items invite) ∧
    (∀ items others, Separated items → Separated others →
      items.filter namesField = others.filter namesField →
      parseInviteUri (inviteUri items) = parseInviteUri (inviteUri others)) ∧
    (∀ front back host pubkey, Separated (front ++ host :: pubkey :: back) →
      itemKey host = inviteQueryKeyHost → itemKey pubkey = inviteQueryKeyPubkey →
      parseInviteUri (inviteUri (front ++ host :: pubkey :: back)) =
        parseInviteUri (inviteUri (front ++ pubkey :: host :: back))) := by
  refine ⟨?_, ?_, ?_⟩
  · intro uri invite
    constructor
    · intro hparse
      obtain ⟨items, hseparated, huri⟩ := exists_items_of_parseInviteUri hparse
      refine ⟨items, huri, (ofValues_eq_ok hseparated).mp ?_⟩
      rw [← parseInviteUri_inviteUri hseparated, ← huri]
      exact hparse
    · intro ⟨items, huri, hinvites⟩
      rw [huri, parseInviteUri_inviteUri hinvites.separated]
      exact (ofValues_eq_ok hinvites.separated).mpr hinvites
  · intro items others hitems hothers hsame
    rw [parseInviteUri_inviteUri hitems, parseInviteUri_inviteUri hothers,
      ← valuesOf_filter_namesField (.inl rfl) items, ← valuesOf_filter_namesField (.inr rfl) items,
      hsame, valuesOf_filter_namesField (.inl rfl), valuesOf_filter_namesField (.inr rfl)]
  · intro front back host pubkey hseparated hhost hpubkey
    have hkeys : itemKey host ≠ itemKey pubkey := by
      rw [hhost, hpubkey]
      decide
    have hswapped : Separated (front ++ pubkey :: host :: back) := by
      intro item hitem
      apply hseparated item
      simp only [List.mem_append, List.mem_cons] at hitem ⊢
      tauto
    rw [parseInviteUri_inviteUri hseparated, parseInviteUri_inviteUri hswapped,
      valuesOf_swap hkeys, valuesOf_swap hkeys]

end Syauth.Mobile
