import Syauth.Presenced.Peers

/-! # What a reload establishes

The diff of a reload compares identifiers only.  The two loops are followed
pointwise, one identifier at a time, whatever order the hash sets are iterated
in; the result says which prior states and stores leave the map up to date.
-/

namespace Syauth.Presenced

open Transport

variable {order : IterOrder} {keysDir : KeysDir} {store : BondStore} {live : Live}
variable {removeResult addResult : String → Except PeripheralError Unit} {peerId : String}

/-! ## The new set -/

/-- A record that is not revoked and carries the identifier. -/
def ActiveRecord (store : BondStore) (peerId : String) (bond : Bond) : Prop :=
  bond ∈ store.list ∧ bond.isRevoked = false ∧ bond.peerId = peerId

theorem lookup_foldl_insertLoadedKey (bonds : List Bond) (out : KeySet) (peerId : String) :
    (bonds.foldl (insertLoadedKey keysDir) out).lookup peerId =
      if ∃ bond ∈ bonds, bond.peerId = peerId then
        match loadBondKey keysDir peerId with
        | .ok key => some key
        | .error _ => out.lookup peerId
      else out.lookup peerId := by
  induction bonds generalizing out with
  | nil => simp
  | cons bond bonds ih =>
      rw [List.foldl_cons, ih]
      unfold insertLoadedKey
      by_cases hid : bond.peerId = peerId
      · subst hid
        cases hload : loadBondKey keysDir bond.peerId with
        | ok key => simp
        | error err => simp
      · have hlookup : ∀ key, (out.insert bond.peerId key).lookup peerId = out.lookup peerId :=
          fun key => AList.lookup_insert_ne (Ne.symm hid)
        have hexists : (∃ other ∈ bond :: bonds, other.peerId = peerId) ↔
            ∃ other ∈ bonds, other.peerId = peerId := by
          simp [hid]
        simp only [hexists]
        cases hload : loadBondKey keysDir bond.peerId with
        | ok key => simp only [hlookup]
        | error err => rfl

theorem lookup_computeNewSet_eq_some {key : BondKey} :
    (computeNewSet keysDir store).lookup peerId = some key ↔
      (∃ bond, ActiveRecord store peerId bond) ∧ loadBondKey keysDir peerId = .ok key := by
  have hactive : (∃ bond ∈ store.list.filter fun bond => !bond.isRevoked, bond.peerId = peerId) ↔
      ∃ bond, ActiveRecord store peerId bond := by
    simp only [List.mem_filter, Bool.not_eq_true', ActiveRecord, and_assoc]
  unfold computeNewSet
  rw [lookup_foldl_insertLoadedKey, AList.lookup_empty]
  rw [← hactive]
  split
  · next hrecord =>
      simp only [hrecord, true_and]
      cases hload : loadBondKey keysDir peerId <;> simp
  · next hrecord => simp only [hrecord, false_and, reduceCtorEq]

/-- The peers a reload should leave live. -/
def Eligible (keysDir : KeysDir) (store : BondStore) (peerId : String) : Prop :=
  (∃ bond, ActiveRecord store peerId bond) ∧ ∃ key, loadBondKey keysDir peerId = .ok key

theorem mem_computeNewSet :
    peerId ∈ computeNewSet keysDir store ↔ Eligible keysDir store peerId := by
  rw [← AList.lookup_isSome, Option.isSome_iff_exists]
  simp only [lookup_computeNewSet_eq_some, Eligible, exists_and_left]

/-! ## The diff -/

theorem mem_toAdd :
    peerId ∈ (computeDiff order live (computeNewSet keysDir store)).1 ↔
      Eligible keysDir store peerId ∧ peerId ∉ live.peers := by
  simp only [computeDiff, order.mem_arrange, List.mem_filter, decide_eq_true_eq,
    ← AList.mem_keys, mem_computeNewSet]

theorem mem_toRemove :
    peerId ∈ (computeDiff order live (computeNewSet keysDir store)).2 ↔
      peerId ∈ live.peers ∧ ¬ Eligible keysDir store peerId := by
  simp only [computeDiff, order.mem_arrange, List.mem_filter, decide_eq_true_eq,
    ← AList.mem_keys, mem_computeNewSet]

/-! ## The two loops -/

theorem lookup_foldl_doRemovePeer (ids : List String)
    (hok : ∀ removed ∈ ids, removeResult removed = .ok ()) :
    (ids.foldl (fun live removed => doRemovePeer live removed (removeResult removed))
      live).peers.lookup peerId = if peerId ∈ ids then none else live.peers.lookup peerId := by
  induction ids generalizing live with
  | nil => simp
  | cons removed ids ih =>
      have htail : ∀ other ∈ ids, removeResult other = .ok () :=
        fun other hother => hok other (List.mem_cons_of_mem removed hother)
      rw [List.foldl_cons, ih htail, hok removed List.mem_cons_self]
      by_cases hmem : peerId ∈ ids
      · simp [hmem]
      · by_cases hid : peerId = removed
        · subst hid
          simp [doRemovePeer]
        · simp [hmem, hid, doRemovePeer, AList.lookup_erase_ne hid]

theorem lookup_addFromSet_ne {newSet : KeySet} {added : String}
    {result : Except PeripheralError Unit} (hne : peerId ≠ added) :
    (addFromSet store newSet live added result).peers.lookup peerId = live.peers.lookup peerId := by
  rcases addFromSet_cases store newSet live added result with hsame | ⟨key, pubkey, -, hinsert⟩
  · rw [hsame]
  · rw [hinsert]
    exact AList.lookup_insert_ne hne

theorem lookup_foldl_addFromSet_of_notMem {newSet : KeySet} (ids : List String)
    (hmem : peerId ∉ ids) :
    (ids.foldl (fun live added => addFromSet store newSet live added (addResult added))
      live).peers.lookup peerId = live.peers.lookup peerId := by
  induction ids generalizing live with
  | nil => rfl
  | cons added ids ih =>
      rw [List.foldl_cons, ih (List.not_mem_of_not_mem_cons hmem)]
      exact lookup_addFromSet_ne (List.ne_of_not_mem_cons hmem)

/-- A peer the loop adds gets the key of the set and the key of the first record. -/
theorem lookup_foldl_addFromSet_of_mem {newSet : KeySet} (ids : List String) (hmem : peerId ∈ ids)
    {key : BondKey} (hkey : newSet.lookup peerId = some key) {first : Bond}
    (hfirst : (store.list.find? fun bond => bond.peerId = peerId) = some first)
    (hok : addResult peerId = .ok ()) :
    ∃ cell, (ids.foldl (fun live added => addFromSet store newSet live added (addResult added))
      live).peers.lookup peerId = some ⟨key, some first.pubkey, cell⟩ := by
  induction ids generalizing live with
  | nil => cases hmem
  | cons added ids ih =>
      rw [List.foldl_cons]
      by_cases htail : peerId ∈ ids
      · exact ih htail
      · have hhead : peerId = added := (List.mem_cons.mp hmem).resolve_right htail
        subst hhead
        refine ⟨live.nextCell, ?_⟩
        rw [lookup_foldl_addFromSet_of_notMem ids htail]
        simp [addFromSet, hkey, doAddPeer, hfirst, hok]

/-! ## The whole reload -/

/-- Every call to the peripheral that the reload makes succeeds. -/
def PeripheralSucceeds (order : IterOrder) (keysDir : KeysDir)
    (removeResult addResult : String → Except PeripheralError Unit) (store : BondStore)
    (live : Live) : Prop :=
  let diff := computeDiff order live (computeNewSet keysDir store)
  (∀ peerId ∈ diff.2, removeResult peerId = .ok ()) ∧ ∀ peerId ∈ diff.1, addResult peerId = .ok ()

theorem lookup_reloadBonds_of_lookup
    (hok : PeripheralSucceeds order keysDir removeResult addResult store live)
    {entry : PeerEntry} (hentry : live.peers.lookup peerId = some entry)
    (heligible : Eligible keysDir store peerId) :
    (reloadBonds order keysDir removeResult addResult store live).peers.lookup peerId =
      some entry := by
  have hmem : peerId ∈ live.peers := AList.lookup_isSome.mp (by rw [hentry]; rfl)
  unfold reloadBonds
  rw [lookup_foldl_addFromSet_of_notMem _ (fun hadd => (mem_toAdd.mp hadd).2 hmem),
    lookup_foldl_doRemovePeer _ hok.1,
    if_neg (fun hremove => (mem_toRemove.mp hremove).2 heligible)]
  exact hentry

theorem lookup_reloadBonds_of_not_eligible
    (hok : PeripheralSucceeds order keysDir removeResult addResult store live)
    (heligible : ¬ Eligible keysDir store peerId) :
    (reloadBonds order keysDir removeResult addResult store live).peers.lookup peerId = none := by
  unfold reloadBonds
  rw [lookup_foldl_addFromSet_of_notMem _ (fun hadd => heligible (mem_toAdd.mp hadd).1),
    lookup_foldl_doRemovePeer _ hok.1]
  split
  · rfl
  · next hremove =>
      exact AList.lookup_eq_none.mpr fun hmem => hremove (mem_toRemove.mpr ⟨hmem, heligible⟩)

theorem lookup_reloadBonds_of_new
    (hok : PeripheralSucceeds order keysDir removeResult addResult store live)
    (hnew : peerId ∉ live.peers) (heligible : Eligible keysDir store peerId) :
    ∃ key first cell, loadBondKey keysDir peerId = .ok key ∧
      (store.list.find? fun bond => bond.peerId = peerId) = some first ∧
      (reloadBonds order keysDir removeResult addResult store live).peers.lookup peerId =
        some ⟨key, some first.pubkey, cell⟩ := by
  obtain ⟨⟨bond, hbond⟩, key, hkey⟩ := heligible
  have hfound : (store.list.find? fun bond => bond.peerId = peerId).isSome := by
    rw [List.find?_isSome]
    exact ⟨bond, hbond.1, by simpa using hbond.2.2⟩
  obtain ⟨first, hfirst⟩ := Option.isSome_iff_exists.mp hfound
  have hadd : peerId ∈ (computeDiff order live (computeNewSet keysDir store)).1 :=
    mem_toAdd.mpr ⟨⟨⟨bond, hbond⟩, key, hkey⟩, hnew⟩
  have hset : (computeNewSet keysDir store).lookup peerId = some key :=
    lookup_computeNewSet_eq_some.mpr ⟨⟨bond, hbond⟩, hkey⟩
  obtain ⟨cell, hlookup⟩ :=
    lookup_foldl_addFromSet_of_mem _ hadd hset hfirst (hok.2 peerId hadd)
  exact ⟨key, first, cell, hkey, hfirst, hlookup⟩

/-- An entry agrees with the key file and with a current record of its peer. -/
def UpToDate (keysDir : KeysDir) (store : BondStore) (peerId : String) (entry : PeerEntry) : Prop :=
  loadBondKey keysDir peerId = .ok entry.bondKey ∧
    ∃ bond, ActiveRecord store peerId bond ∧ entry.phonePubkey = some bond.pubkey

/-- The live map holds exactly the eligible peers, with current key material. -/
def ReloadEstablished (keysDir : KeysDir) (store : BondStore) (live : Live) : Prop :=
  (∀ peerId, peerId ∈ live.peers ↔ Eligible keysDir store peerId) ∧
    ∀ peerId entry, live.peers.lookup peerId = some entry → UpToDate keysDir store peerId entry

/-- The eligible peers that are live already are up to date, and for the others
the first record in the file has the public key of a record that is not revoked. -/
def ReloadSound (keysDir : KeysDir) (store : BondStore) (live : Live) : Prop :=
  (∀ peerId entry, live.peers.lookup peerId = some entry → Eligible keysDir store peerId →
      UpToDate keysDir store peerId entry) ∧
    ∀ peerId first, peerId ∉ live.peers → Eligible keysDir store peerId →
      (store.list.find? fun bond => bond.peerId = peerId) = some first →
      ∃ bond, ActiveRecord store peerId bond ∧ bond.pubkey = first.pubkey

theorem mem_reloadBonds (hok : PeripheralSucceeds order keysDir removeResult addResult store live) :
    peerId ∈ (reloadBonds order keysDir removeResult addResult store live).peers ↔
      Eligible keysDir store peerId := by
  rw [← AList.lookup_isSome]
  by_cases heligible : Eligible keysDir store peerId
  · simp only [heligible, iff_true]
    cases hentry : live.peers.lookup peerId with
    | some entry => rw [lookup_reloadBonds_of_lookup hok hentry heligible]; rfl
    | none =>
        obtain ⟨key, first, cell, -, -, hlookup⟩ :=
          lookup_reloadBonds_of_new hok (AList.lookup_eq_none.mp hentry) heligible
        rw [hlookup]
        rfl
  · simp only [heligible, iff_false]
    rw [lookup_reloadBonds_of_not_eligible hok heligible]
    exact Bool.false_ne_true

/-- From any prior map, any store and any key files, a reload whose peripheral
calls succeed brings the live map up to date exactly when nothing it keeps is
stale and nothing it adds is shadowed by an earlier record. -/
theorem reload_established_iff
    (hok : PeripheralSucceeds order keysDir removeResult addResult store live) :
    ReloadEstablished keysDir store
        (reloadBonds order keysDir removeResult addResult store live) ↔
      ReloadSound keysDir store live := by
  constructor
  · rintro ⟨-, hcurrent⟩
    constructor
    · intro peerId entry hentry heligible
      exact hcurrent peerId entry (lookup_reloadBonds_of_lookup hok hentry heligible)
    · intro peerId first hnew heligible hfirst
      obtain ⟨key, first', cell, -, hfirst', hlookup⟩ :=
        lookup_reloadBonds_of_new hok hnew heligible
      obtain ⟨-, bond, hbond, hpubkey⟩ := hcurrent peerId _ hlookup
      have hsame : first' = first := Option.some.inj (hfirst'.symm.trans hfirst)
      subst hsame
      exact ⟨bond, hbond, (Option.some.inj hpubkey).symm⟩
  · rintro ⟨hkept, hadded⟩
    refine ⟨fun peerId => mem_reloadBonds hok, ?_⟩
    intro peerId entry hlookup
    have heligible : Eligible keysDir store peerId :=
      (mem_reloadBonds hok).mp (AList.lookup_isSome.mp (by rw [hlookup]; rfl))
    -- a peer that was live keeps its entry, whatever the file says by now
    cases hentry : live.peers.lookup peerId with
    | some before =>
        rw [lookup_reloadBonds_of_lookup hok hentry heligible] at hlookup
        have hsame : before = entry := Option.some.inj hlookup
        subst hsame
        exact hkept peerId before hentry heligible
    | none =>
        have hnew : peerId ∉ live.peers := AList.lookup_eq_none.mp hentry
        obtain ⟨key, first, cell, hkey, hfirst, hresult⟩ :=
          lookup_reloadBonds_of_new hok hnew heligible
        rw [hresult] at hlookup
        cases hlookup
        obtain ⟨bond, hbond, hpubkey⟩ := hadded peerId first hnew heligible hfirst
        exact ⟨hkey, bond, hbond, congrArg some hpubkey.symm⟩

/-! ## A re-pair behind a running daemon -/

def repairedBond : Bond :=
  ⟨KnownAnswer.peerId, KnownAnswer.pubkey, "Pixel 8", 0, .bonded⟩

def rewrittenKey : Bytes := List.replicate 32 7

/-- The keys directory after the pairing rewrote the peer's file. -/
def rewrittenKeysDir : KeysDir := fun file =>
  if file = KnownAnswer.peerId ++ bondKeyFileExt then .ok rewrittenKey else .error "not found"

def succeeding : String → Except PeripheralError Unit := fun _ => .ok ()

/-- The entry of a peer that was live keeps the key of the earlier pairing. -/
theorem reload_keeps_rewritten_key :
    PeripheralSucceeds .declared rewrittenKeysDir succeeding succeeding ⟨[repairedBond]⟩
        (Live.withPeers [(repairedBond, KnownAnswer.bondKey)]) ∧
      ¬ ReloadEstablished rewrittenKeysDir ⟨[repairedBond]⟩
        (reloadBonds .declared rewrittenKeysDir succeeding succeeding ⟨[repairedBond]⟩
          (Live.withPeers [(repairedBond, KnownAnswer.bondKey)])) := by
  refine ⟨⟨fun _ _ => rfl, fun _ _ => rfl⟩, ?_⟩
  rintro ⟨-, hcurrent⟩
  have hlookup : (reloadBonds .declared rewrittenKeysDir succeeding succeeding ⟨[repairedBond]⟩
      (Live.withPeers [(repairedBond, KnownAnswer.bondKey)])).peers.lookup KnownAnswer.peerId =
        some ⟨KnownAnswer.bondKey, some KnownAnswer.pubkey, 0⟩ := by
    decide
  have hkey := (hcurrent KnownAnswer.peerId _ hlookup).1
  exact absurd hkey (by decide)

/-! ## A revocation behind a running daemon -/

def revokedTablet : Bond :=
  ⟨KnownAnswer.otherPeerId, KnownAnswer.otherPubkey, "Tablet", 0, .revoked "lost"⟩

/-- The phone and the tablet were both live before the tablet was revoked. -/
def bothLive : Live :=
  .withPeers [(repairedBond, KnownAnswer.bondKey),
    ({ revokedTablet with status := .bonded }, KnownAnswer.derivedKey)]

def sameKeysDir : KeysDir := fun _ => .ok KnownAnswer.bondKey.val

theorem reloadSound_bothLive :
    ReloadSound sameKeysDir ⟨[repairedBond, revokedTablet]⟩ bothLive := by
  have hphone : ∀ peerId, Eligible sameKeysDir ⟨[repairedBond, revokedTablet]⟩ peerId →
      peerId = KnownAnswer.peerId := by
    rintro peerId ⟨⟨bond, hbond, hactive, rfl⟩, -⟩
    simp only [BondStore.list, List.mem_cons, List.not_mem_nil, or_false] at hbond
    obtain rfl | rfl := hbond
    · rfl
    · cases hactive
  constructor
  · intro peerId entry hentry heligible
    obtain rfl := hphone peerId heligible
    have hlookup : bothLive.peers.lookup KnownAnswer.peerId =
        some ⟨KnownAnswer.bondKey, some KnownAnswer.pubkey, 0⟩ := by
      decide
    obtain rfl := Option.some.inj (hentry.symm.trans hlookup)
    exact ⟨by decide, repairedBond, ⟨List.mem_cons_self, rfl, rfl⟩, rfl⟩
  · intro peerId first hnew heligible hfirst
    obtain rfl := hphone peerId heligible
    exact absurd (by decide : KnownAnswer.peerId ∈ bothLive.peers) hnew

/-- The reload keeps the phone and drops the tablet. -/
theorem reload_established_iff_bothLive :
    KnownAnswer.otherPeerId ∈ bothLive.peers ∧
      ReloadEstablished sameKeysDir ⟨[repairedBond, revokedTablet]⟩
        (reloadBonds .declared sameKeysDir succeeding succeeding ⟨[repairedBond, revokedTablet]⟩
          bothLive) ∧
      (reloadBonds .declared sameKeysDir succeeding succeeding ⟨[repairedBond, revokedTablet]⟩
        bothLive).peers.keys = [KnownAnswer.peerId] :=
  ⟨by decide, (reload_established_iff ⟨fun _ _ => rfl, fun _ _ => rfl⟩).mpr reloadSound_bothLive,
    by decide⟩

end Syauth.Presenced
