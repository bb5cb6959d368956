import Syauth.Presenced.Framing

/-! # Decoding a response field by field

`decode_frame::<Response>` of `crates/syauth-presenced/src/rpc.rs` with the code that is
derived for the enum.  The tag stands among the fields, so a payload is first buffered as a
whole; the fields of its variant are then read from the buffer one after the other, and the
first that fails, or panics, ends the decoding.  The CBOR library and the readers of single
values are parameters that return.
-/

namespace Syauth.Presenced

open Wire

inductive ResponseKind where
  | challenge
  | reload
  | status
  deriving DecidableEq

/-- The fields of a variant without its tag: the entries of a map, or the items of an array. -/
inductive Buffered (γ : Type) where
  | map (entries : List (γ × γ))
  | seq (items : List γ)
  deriving DecidableEq

/-- What a key of a status names. -/
inductive StatusField where
  | peers
  | startedAt
  | ignored
  deriving DecidableEq

inductive FieldError where
  | duplicate (name : String)
  | missing (name : String)
  | invalidLength (len : Nat)

/-- What the decoding calls outside the repository, over its type of buffered values. -/
structure ResponseReader (γ : Type) where
  fromReader : Bytes → Except String (ResponseKind × Buffered γ)
  challenge : Buffered γ → Except String (Bool × Option Bytes × String)
  reload : Buffered γ → Except String Bool
  field : γ → Except String StatusField
  peers : γ → Except String (List PeerStatus)
  seconds : γ → Except String UInt64
  text : FieldError → String

/-- The fields of a status that have been read. -/
structure StatusFields (τ : Type) where
  peers : Option (List PeerStatus)
  startedAt : Option τ

def StatusFields.empty {τ : Type} : StatusFields τ := ⟨none, none⟩

namespace ResponseReader

section Visit

-- `time` turns the seconds on the wire into a time, and gives nothing where it panics.
variable {γ τ : Type} (reader : ResponseReader γ) (time : UInt64 → Option τ)

def readTime (value : γ) : Option (Except String τ) :=
  match reader.seconds value with
  | .error text => some (.error text)
  | .ok secs => (time secs).map .ok

/-- One round of the loop in `visit_map`. -/
def visitEntry (fields : StatusFields τ) (entry : γ × γ) :
    Option (Except String (StatusFields τ)) :=
  match reader.field entry.1 with
  | .error text => some (.error text)
  | .ok .ignored => some (.ok fields)
  | .ok .peers =>
      if fields.peers.isSome then some (.error (reader.text (.duplicate "peers")))
      else some ((reader.peers entry.2).map fun peers => { fields with peers := some peers })
  | .ok .startedAt =>
      if fields.startedAt.isSome then some (.error (reader.text (.duplicate "started_at")))
      else (reader.readTime time entry.2).map
        (Except.map fun startedAt => { fields with startedAt := some startedAt })

def visitEntries (fields : StatusFields τ) :
    List (γ × γ) → Option (Except String (StatusFields τ))
  | [] => some (.ok fields)
  | entry :: rest =>
      match reader.visitEntry time fields entry with
      | none => none
      | some (.error text) => some (.error text)
      | some (.ok next) => visitEntries next rest

def visitMap (entries : List (γ × γ)) : Option (Except String (List PeerStatus × τ)) :=
  match reader.visitEntries time .empty entries with
  | none => none
  | some (.error text) => some (.error text)
  | some (.ok ⟨none, _⟩) => some (.error (reader.text (.missing "peers")))
  | some (.ok ⟨some _, none⟩) => some (.error (reader.text (.missing "started_at")))
  | some (.ok ⟨some peers, some startedAt⟩) => some (.ok (peers, startedAt))

def visitSeq : List γ → Option (Except String (List PeerStatus × τ))
  | [] => some (.error (reader.text (.invalidLength 0)))
  | first :: rest =>
      match reader.peers first, rest with
      | .error text, _ => some (.error text)
      | .ok _, [] => some (.error (reader.text (.invalidLength 1)))
      | .ok peers, second :: left =>
          match reader.readTime time second with
          | none => none
          | some (.error text) => some (.error text)
          | some (.ok startedAt) =>
              if left.isEmpty then some (.ok (peers, startedAt))
              else some (.error (reader.text (.invalidLength (2 + left.length))))

def visitStatus : Buffered γ → Option (Except String (List PeerStatus × τ))
  | .map entries => reader.visitMap time entries
  | .seq items => reader.visitSeq time items

end Visit

section Decode

variable {γ κ : Type} (reader : ResponseReader γ)

/-- `UNIX_EPOCH + Duration::from_secs(secs)`. -/
def epochTime (secs : UInt64) : Option SystemTime := EpochSeconds.deserialize secs.toNat

/-- The variant of a tag, from its buffered fields. -/
def variant (fields : Buffered γ) : ResponseKind → Option (Except String Response)
  | .challenge => some ((reader.challenge fields).map fun (ok, signature, reason) =>
      .challenge ok signature reason)
  | .reload => some ((reader.reload fields).map .reload)
  | .status => (reader.visitStatus epochTime fields).map
      (Except.map fun (peers, startedAt) => .status peers startedAt)

/-- Nothing when the decoding panics. -/
def decodeResponse (payload : Bytes) : Option (Except (FrameError κ) Response) :=
  if payload.length > maxFrameLen then
    some (.error (.tooLarge (min payload.length u32Max) maxFrameLen))
  else
    match reader.fromReader payload with
    | .error text => some (.error (.decode text))
    | .ok (kind, fields) => (reader.variant fields kind).map (Except.mapError .decode)

end Decode

/-! ## Where the decoding panics -/

section Panic

variable {γ τ : Type} (reader : ResponseReader γ) (time : UInt64 → Option τ)

/-- The value holds seconds that have no time. -/
def NoTime (value : γ) : Prop := ∃ secs, reader.seconds value = .ok secs ∧ time secs = none

def namesPeers (entry : γ × γ) : Bool := decide (reader.field entry.1 = .ok .peers)

/-- An entry that the loop passes without a time: an ignored one, or peers that are read. -/
def Passed (entry : γ × γ) : Prop :=
  reader.field entry.1 = .ok .ignored ∨
    reader.field entry.1 = .ok .peers ∧ ∃ peers, reader.peers entry.2 = .ok peers

/-- The loop comes to a `started_at` of some kind: it passes the entries before, which,
with those `seen` earlier, name the peers at most once. -/
def ReachesStart (kind : γ → Prop) (seen : Nat) (entries : List (γ × γ)) : Prop :=
  ∃ before entry after, entries = before ++ entry :: after ∧
    (∀ passed ∈ before, reader.Passed passed) ∧
    seen + before.countP reader.namesPeers ≤ 1 ∧
    reader.field entry.1 = .ok .startedAt ∧ kind entry.2

/-- The same for the fields of a status as they are buffered; in an array the peers come
first. -/
def StatusReaches (kind : γ → Prop) : Buffered γ → Prop
  | .map entries => reader.ReachesStart kind 0 entries
  | .seq items => ∃ first second left, items = first :: second :: left ∧
      (∃ peers, reader.peers first = .ok peers) ∧ kind second

variable {reader : ResponseReader γ} {time : UInt64 → Option τ} {kind : γ → Prop}

theorem readTime_eq_none_iff {value : γ} :
    reader.readTime time value = none ↔ reader.NoTime time value := by
  unfold readTime NoTime
  cases reader.seconds value with
  | error text =>
      constructor
      · intro h
        cases h
      · intro ⟨secs, hsecs, _⟩
        cases hsecs
  | ok secs =>
      rw [Option.map_eq_none_iff]
      constructor
      · intro hnone
        exact ⟨secs, rfl, hnone⟩
      · intro ⟨found, hfound, hnone⟩
        cases hfound
        exact hnone

theorem not_reachesStart_nil (seen : Nat) : ¬ reader.ReachesStart kind seen [] := by
  intro ⟨before, entry, after, heq, _⟩
  exact List.cons_ne_nil entry after (List.append_eq_nil_iff.mp heq.symm).2

theorem reachesStart_cons {seen : Nat} {entry : γ × γ} {rest : List (γ × γ)} :
    reader.ReachesStart kind seen (entry :: rest) ↔
      (seen ≤ 1 ∧ reader.field entry.1 = .ok .startedAt ∧ kind entry.2) ∨
      (reader.Passed entry ∧
        reader.ReachesStart kind (seen + if reader.namesPeers entry then 1 else 0) rest) := by
  constructor
  · intro ⟨before, late, after, heq, hpassed, hcount, hlate⟩
    cases before with
    | nil =>
        obtain ⟨rfl, rfl⟩ := List.cons.inj heq
        exact .inl ⟨hcount, hlate⟩
    | cons first before =>
        obtain ⟨rfl, rfl⟩ := List.cons.inj heq
        refine .inr ⟨hpassed entry List.mem_cons_self, before, late, after, rfl, ?_, ?_, hlate⟩
        · intro passed hmem
          exact hpassed passed (List.mem_cons_of_mem _ hmem)
        · rw [List.countP_cons] at hcount
          omega
  · intro h
    rcases h with ⟨hseen, hlate⟩ | ⟨hhead, before, late, after, rfl, hpassed, hcount, hlate⟩
    · exact ⟨[], entry, rest, rfl, fun _ hmem => absurd hmem List.not_mem_nil, hseen, hlate⟩
    · refine ⟨entry :: before, late, after, rfl, ?_, ?_, hlate⟩
      · intro passed hmem
        rcases List.mem_cons.mp hmem with rfl | htail
        · exact hhead
        · exact hpassed passed htail
      · rw [List.countP_cons]
        omega

/-- With a `started_at` read, the loop returns. -/
theorem visitEntries_isSome {fields : StatusFields τ} (hstarted : fields.startedAt.isSome)
    (entries : List (γ × γ)) : (reader.visitEntries time fields entries).isSome := by
  induction entries generalizing fields with
  | nil => rfl
  | cons entry rest ih =>
      unfold visitEntries visitEntry
      cases reader.field entry.1 with
      | error text => rfl
      | ok field =>
          cases field with
          | ignored => exact ih hstarted
          | startedAt =>
              simp only [if_pos hstarted]
              rfl
          | peers =>
              by_cases hpeers : fields.peers.isSome
              · simp only [if_pos hpeers]
                rfl
              · simp only [if_neg hpeers]
                cases reader.peers entry.2 with
                | error text => rfl
                | ok peers => exact ih hstarted

/-- The loop panics exactly when it comes to a `started_at` without a time. -/
theorem visitEntries_eq_none_iff {fields : StatusFields τ} (hfirst : fields.startedAt = none)
    (entries : List (γ × γ)) : reader.visitEntries time fields entries = none ↔
      reader.ReachesStart (reader.NoTime time) fields.peers.toList.length entries := by
  induction entries generalizing fields with
  | nil =>
      refine ⟨fun h => ?_, fun h => absurd h (not_reachesStart_nil _)⟩
      cases h
  | cons entry rest ih =>
      rw [reachesStart_cons]
      unfold visitEntries visitEntry Passed namesPeers
      cases hfield : reader.field entry.1 with
      | error text => simp
      | ok field =>
          cases field with
          | ignored => simpa using ih hfirst
          | startedAt =>
              have hseen : fields.peers.toList.length ≤ 1 := Option.length_toList_le
              simp only [hfirst, Option.isSome_none, Bool.false_eq_true, if_false]
              cases htime : reader.readTime time entry.2 with
              | none =>
                  have hnone := readTime_eq_none_iff.mp htime
                  simp [hseen, hnone]
              | some result =>
                  have hsome : ¬ reader.NoTime time entry.2 := by
                    rw [← readTime_eq_none_iff, htime]
                    exact Option.some_ne_none result
                  cases result with
                  | error text => simp [hsome, Except.map]
                  | ok startedAt =>
                      have hreturns : (reader.visitEntries time
                          { fields with startedAt := some startedAt } rest).isSome :=
                        visitEntries_isSome rfl rest
                      simp [hsome, Except.map, Option.ne_none_iff_isSome.mpr hreturns]
          | peers =>
              obtain ⟨peers, startedAt⟩ := fields
              subst hfirst
              cases peers with
              | some earlier =>
                  have hmany : ¬ reader.ReachesStart (reader.NoTime time) 2 rest := by
                    intro ⟨_, _, _, _, _, hcount, _⟩
                    omega
                  simp [hmany]
              | none =>
                  cases hread : reader.peers entry.2 with
                  | error text => simp [Except.map]
                  | ok peers =>
                      have hnext : reader.visitEntries time ⟨some peers, none⟩ rest = none ↔
                          reader.ReachesStart (reader.NoTime time) 1 rest := ih rfl
                      simpa [Except.map] using hnext

theorem visitMap_eq_none_iff {entries : List (γ × γ)} :
    reader.visitMap time entries = none ↔
      reader.visitEntries time .empty entries = none := by
  unfold visitMap
  constructor
  · intro hnone
    split at hnone <;> first | assumption | cases hnone
  · intro hnone
    rw [hnone]

theorem visitSeq_eq_none_iff {items : List γ} : reader.visitSeq time items = none ↔
    ∃ first second left, items = first :: second :: left ∧
      (∃ peers, reader.peers first = .ok peers) ∧ reader.NoTime time second := by
  constructor
  · intro hnone
    unfold visitSeq at hnone
    split at hnone
    next => cases hnone
    next first rest =>
      split at hnone
      next => cases hnone
      next => cases hnone
      next peers second left hpeers =>
        refine ⟨first, second, left, rfl, ⟨peers, hpeers⟩, readTime_eq_none_iff.mp ?_⟩
        split at hnone
        next htime => exact htime
        next => cases hnone
        next => split at hnone <;> cases hnone
  · intro ⟨first, second, left, hitems, ⟨peers, hpeers⟩, hnone⟩
    subst hitems
    simp only [visitSeq, hpeers, readTime_eq_none_iff.mpr hnone]

theorem visitStatus_eq_none_iff (fields : Buffered γ) :
    reader.visitStatus time fields = none ↔
      reader.StatusReaches (reader.NoTime time) fields := by
  cases fields with
  | map entries => exact visitMap_eq_none_iff.trans (visitEntries_eq_none_iff rfl entries)
  | seq items => exact visitSeq_eq_none_iff

end Panic

section Range

variable {γ κ : Type} (reader : ResponseReader γ)

/-- The value holds seconds beyond the `i64` range of the platform. -/
def OutOfRange (value : γ) : Prop := ∃ secs, reader.seconds value = .ok secs ∧ 2 ^ 63 ≤ secs.toNat

/-- The payload of a status with a `started_at` that is out of range, and with nothing before
it that ends the decoding. -/
def StartsOutOfRange (payload : Bytes) : Prop :=
  payload.length ≤ maxFrameLen ∧ ∃ fields, reader.fromReader payload = .ok (.status, fields) ∧
    reader.StatusReaches reader.OutOfRange fields

variable {reader : ResponseReader γ}

theorem noTime_epochTime : reader.NoTime epochTime = reader.OutOfRange := by
  funext value
  unfold NoTime OutOfRange epochTime EpochSeconds.deserialize
  simp only [ite_eq_right_iff, reduceCtorEq, imp_false, Nat.not_lt]

theorem variant_eq_none_iff {fields : Buffered γ} {kind : ResponseKind} :
    reader.variant fields kind = none ↔
      kind = .status ∧ reader.StatusReaches reader.OutOfRange fields := by
  rw [← noTime_epochTime, ← visitStatus_eq_none_iff]
  cases kind with
  | challenge | reload => simp [variant]
  | status => simp [variant]

/-- The decoding panics exactly for a status that starts out of range. -/
theorem decodeResponse_eq_none_iff {payload : Bytes} :
    reader.decodeResponse (κ := κ) payload = none ↔ reader.StartsOutOfRange payload := by
  unfold decodeResponse StartsOutOfRange
  by_cases hlen : payload.length > maxFrameLen
  · rw [if_pos hlen]
    constructor
    · intro h
      cases h
    · intro ⟨hle, _⟩
      omega
  · rw [if_neg hlen]
    cases reader.fromReader payload with
    | error text => simp
    | ok read =>
        obtain ⟨kind, fields⟩ := read
        have hle : payload.length ≤ maxFrameLen := Nat.le_of_not_lt hlen
        simp only [Option.map_eq_none_iff, variant_eq_none_iff, hle, true_and]
        constructor
        · intro ⟨hkind, hreaches⟩
          subst hkind
          exact ⟨fields, rfl, hreaches⟩
        · intro ⟨found, hfound, hreaches⟩
          cases hfound
          exact ⟨rfl, hreaches⟩

end Range

/-! ## The shape of a response

Read with its seconds as they are, a response has the shape that the frames are defined over;
where the decoding returns it is that shape, deserialized.
-/

section Shape

variable {γ τ α β : Type} {reader : ResponseReader γ} {time : UInt64 → Option τ}

/-- The right computation panics, or both fail alike, or both return related values. -/
def Follows (related : α → β → Prop) (left : Option (Except String α))
    (right : Option (Except String β)) : Prop :=
  right = none ∨ (∃ text, left = some (.error text) ∧ right = some (.error text)) ∨
    ∃ value other, left = some (.ok value) ∧ right = some (.ok other) ∧ related value other

namespace Follows

variable {related : α → β → Prop}

theorem error (text : String) : Follows related (some (.error text)) (some (.error text)) :=
  .inr (.inl ⟨text, rfl, rfl⟩)

theorem ok {value : α} {other : β} (hrelated : related value other) :
    Follows related (some (.ok value)) (some (.ok other)) :=
  .inr (.inr ⟨value, other, rfl, rfl, hrelated⟩)

end Follows

/-- The same fields, once in seconds and once with a time. -/
structure Timed (time : UInt64 → Option τ) (raw : StatusFields UInt64)
    (fields : StatusFields τ) : Prop where
  peers_eq : fields.peers = raw.peers
  startedAt_eq : fields.startedAt.map some = raw.startedAt.map time

theorem Timed.isSome_eq {raw : StatusFields UInt64} {fields : StatusFields τ}
    (htimed : Timed time raw fields) : fields.startedAt.isSome = raw.startedAt.isSome := by
  have hmapped := congrArg Option.isSome htimed.startedAt_eq
  rwa [Option.isSome_map, Option.isSome_map] at hmapped

theorem readTime_follows (reader : ResponseReader γ) (time : UInt64 → Option τ) (value : γ) :
    Follows (fun secs startedAt => time secs = some startedAt)
      (reader.readTime some value) (reader.readTime time value) := by
  unfold readTime
  cases reader.seconds value with
  | error text => exact .error text
  | ok secs =>
      cases htime : time secs with
      | none => exact .inl (by simp only [htime, Option.map_none])
      | some startedAt =>
          simp only [htime, Option.map_some]
          exact .ok htime

theorem visitEntry_follows (reader : ResponseReader γ) {raw : StatusFields UInt64}
    {fields : StatusFields τ}
    (htimed : Timed time raw fields) (entry : γ × γ) :
    Follows (Timed time) (reader.visitEntry some raw entry)
      (reader.visitEntry time fields entry) := by
  unfold visitEntry
  rw [htimed.peers_eq, htimed.isSome_eq]
  cases reader.field entry.1 with
  | error text => exact .error text
  | ok field =>
      cases field with
      | ignored => exact .ok htimed
      | peers =>
          by_cases hpeers : raw.peers.isSome
          · simp only [if_pos hpeers]
            exact .error _
          · simp only [if_neg hpeers]
            cases reader.peers entry.2 with
            | error text => exact .error text
            | ok peers => exact .ok ⟨rfl, htimed.startedAt_eq⟩
      | startedAt =>
          by_cases hstarted : raw.startedAt.isSome
          · simp only [if_pos hstarted]
            exact .error _
          · simp only [if_neg hstarted]
            rcases readTime_follows reader time entry.2 with
              hpanic | ⟨text, hleft, hright⟩ | ⟨secs, startedAt, hleft, hright, htime⟩
            · rw [hpanic]
              exact .inl rfl
            · rw [hleft, hright]
              exact .error text
            · rw [hleft, hright]
              exact .ok ⟨rfl, congrArg some htime.symm⟩

theorem visitEntries_follows (reader : ResponseReader γ) {raw : StatusFields UInt64}
    {fields : StatusFields τ}
    (htimed : Timed time raw fields) (entries : List (γ × γ)) :
    Follows (Timed time) (reader.visitEntries some raw entries)
      (reader.visitEntries time fields entries) := by
  induction entries generalizing raw fields with
  | nil => exact .ok htimed
  | cons entry rest ih =>
      unfold visitEntries
      rcases visitEntry_follows reader htimed entry with
        hpanic | ⟨text, hleft, hright⟩ | ⟨nextRaw, next, hleft, hright, hnext⟩
      · rw [hpanic]
        exact .inl rfl
      · rw [hleft, hright]
        exact .error text
      · rw [hleft, hright]
        exact ih hnext

/-- The same peers, and the seconds of the time. -/
def SameStatus (time : UInt64 → Option τ) (raw : List PeerStatus × UInt64)
    (status : List PeerStatus × τ) : Prop :=
  status.1 = raw.1 ∧ time raw.2 = some status.2

theorem visitMap_follows (reader : ResponseReader γ) (time : UInt64 → Option τ)
    (entries : List (γ × γ)) :
    Follows (SameStatus time) (reader.visitMap some entries) (reader.visitMap time entries) := by
  have hempty : Timed time .empty .empty := ⟨rfl, rfl⟩
  unfold visitMap
  rcases visitEntries_follows reader hempty entries with
    hpanic | ⟨text, hleft, hright⟩ | ⟨raw, fields, hleft, hright, htimed⟩
  · rw [hpanic]
    exact .inl rfl
  · rw [hleft, hright]
    exact .error text
  · rw [hleft, hright]
    obtain ⟨peers, secs⟩ := raw
    obtain ⟨others, startedAt⟩ := fields
    have hpeers : others = peers := htimed.peers_eq
    have hstarted : startedAt.map some = secs.map time := htimed.startedAt_eq
    subst hpeers
    cases others with
    | none => exact .error _
    | some peers =>
        cases startedAt with
        | none =>
            have hsecs : secs = none := Option.map_eq_none_iff.mp hstarted.symm
            subst hsecs
            exact .error _
        | some startedAt =>
            obtain ⟨secs, rfl, htime⟩ := Option.map_eq_some_iff.mp hstarted.symm
            exact .ok ⟨rfl, htime⟩

theorem visitSeq_follows (reader : ResponseReader γ) (time : UInt64 → Option τ)
    (items : List γ) :
    Follows (SameStatus time) (reader.visitSeq some items) (reader.visitSeq time items) := by
  cases items with
  | nil => exact .error _
  | cons first rest =>
      unfold visitSeq
      cases hpeers : reader.peers first with
      | error text =>
          simp only [hpeers]
          exact .error text
      | ok peers =>
          cases rest with
          | nil =>
              simp only [hpeers]
              exact .error _
          | cons second left =>
              simp only [hpeers]
              rcases readTime_follows reader time second with
                hpanic | ⟨text, hleft, hright⟩ | ⟨secs, startedAt, hleft, hright, htime⟩
              · simp only [hpanic]
                exact .inl rfl
              · simp only [hleft, hright]
                exact .error text
              · simp only [hleft, hright]
                split
                next => exact .ok ⟨rfl, htime⟩
                next => exact .error _

theorem visitStatus_follows (reader : ResponseReader γ) (time : UInt64 → Option τ)
    (fields : Buffered γ) :
    Follows (SameStatus time) (reader.visitStatus some fields)
      (reader.visitStatus time fields) := by
  cases fields with
  | map entries => exact visitMap_follows reader time entries
  | seq items => exact visitSeq_follows reader time items

/-- What the library reads of the fields of a variant, with the seconds as they are. -/
def shape (reader : ResponseReader γ) (fields : Buffered γ) :
    ResponseKind → Except String ResponseShape
  | .challenge => (reader.challenge fields).map fun (ok, signature, reason) =>
      .challenge ok signature reason
  | .reload => (reader.reload fields).map .reload
  | .status =>
      match reader.visitStatus some fields with
      | none => .error ""
      | some status => status.map fun (peers, secs) => .status peers secs.toNat

def readShape (reader : ResponseReader γ) (payload : Bytes) : Except String ResponseShape :=
  match reader.fromReader payload with
  | .error text => .error text
  | .ok (kind, fields) => reader.shape fields kind

theorem variant_of_shape {fields : Buffered γ} {kind : ResponseKind}
    (hreturns : reader.variant fields kind ≠ none) :
    reader.variant fields kind = match reader.shape fields kind with
      | .error text => some (.error text)
      | .ok shape => (responseSerde.deserialize shape).map .ok := by
  cases kind with
  | challenge =>
      unfold variant shape
      cases reader.challenge fields <;> rfl
  | reload =>
      unfold variant shape
      cases reader.reload fields <;> rfl
  | status =>
      unfold variant shape at *
      rcases visitStatus_follows reader epochTime fields with
        hpanic | ⟨text, hleft, hright⟩ | ⟨raw, status, hleft, hright, hpeers, htime⟩
      · rw [hpanic] at hreturns
        exact absurd rfl hreturns
      · rw [hleft, hright]
        rfl
      · rw [hleft, hright]
        obtain ⟨peers, secs⟩ := raw
        obtain ⟨others, startedAt⟩ := status
        subst hpeers
        have hdeserialize : EpochSeconds.deserialize secs.toNat = some startedAt := htime
        simp only [Except.map, Option.map_some, responseSerde, hdeserialize]

/-- Where it does not panic, the decoding is the one that the frames are defined over. -/
theorem decodeResponse_eq_decodeFrame {κ : Type} {payload : Bytes}
    (hrange : ¬ reader.StartsOutOfRange payload)
    (intoWriter : ResponseShape → Except String Bytes) :
    reader.decodeResponse (κ := κ) payload =
      decodeFrame ⟨intoWriter, reader.readShape⟩ responseSerde payload := by
  rw [← decodeResponse_eq_none_iff (κ := κ)] at hrange
  unfold decodeResponse at hrange ⊢
  unfold decodeFrame readShape
  split
  next => rfl
  next hlen =>
    rw [if_neg hlen] at hrange
    cases hread : reader.fromReader payload with
    | error text => simp only [hread]
    | ok read =>
        obtain ⟨kind, fields⟩ := read
        simp only [hread, Option.map_eq_none_iff] at hrange ⊢
        rw [variant_of_shape hrange]
        cases reader.shape fields kind with
        | error text => rfl
        | ok shape => simp only [Option.map_map, Function.comp_def, Except.mapError]

end Shape

end ResponseReader

/-! ## A client's stream -/

/-- A connected socket: what its calls return, and the bytes that the other end sends. -/
structure ClientStream (κ : Type) where
  setReadTimeout : Except κ Unit
  setWriteTimeout : Except κ Unit
  writeAll : Bytes → Except κ Unit
  flush : Except κ Unit
  answer : BlockingSource UInt8 κ

namespace ClientStream

variable {γ κ : Type} (stream : ClientStream κ)

def writeFrameBlocking (cbor : Ciborium Request) (request : Request) :
    Except (FrameError κ) Unit :=
  match encodeFrame cbor requestSerde request with
  | .error err => .error err
  | .ok framed =>
      match stream.writeAll framed with
      | .error err => .error (.io (.failed err))
      | .ok () => stream.flush.mapError fun err => .io (.failed err)

def readResponse (reader : ResponseReader γ) : Option (Except (FrameError κ) Response) :=
  (readFrameBlocking reader.decodeResponse stream.answer).outcome

/-- The other end sends a payload as a frame, and then what it likes. -/
def Carries (payload : Bytes) : Prop :=
  payload.length ≤ u32Max ∧
    ∃ tail, stream.answer.items = toBeBytes payload.length ++ payload ++ tail

variable {stream : ClientStream κ}

/-- A payload is decoded as it was sent; one that is too large is refused by its length. -/
theorem readResponse_of_carries {payload : Bytes} (hcarries : stream.Carries payload)
    (reader : ResponseReader γ) :
    stream.readResponse reader = reader.decodeResponse payload := by
  obtain ⟨hu32, tail, hitems⟩ := hcarries
  have hread := (readFrameWith_eq BlockingSource.reader (reader.decodeResponse (κ := κ))
    stream.answer).1
  have hbytes : BlockingSource.reader.items stream.answer =
      toBeBytes payload.length ++ payload ++ tail := hitems
  rw [hbytes] at hread
  by_cases hlen : payload.length ≤ maxFrameLen
  · rw [frameOf_frame _ hlen] at hread
    exact hread
  · have hlarge : maxFrameLen < payload.length := Nat.lt_of_not_le hlen
    have hannounced : fromBeBytes (toBeBytes payload.length) = payload.length := by
      apply fromBeBytes_toBeBytes
      unfold u32Max at hu32
      omega
    have hlong := Nat.not_lt.mpr (lengthPrefixBytes_le_length_frame payload tail)
    refine hread.trans ?_
    unfold frameOf ResponseReader.decodeResponse
    simp only [if_neg hlong, take_frame, hannounced, if_pos hlarge, Nat.min_eq_left hu32]

theorem readResponse_eq_none {payload : Bytes} (hcarries : stream.Carries payload)
    {reader : ResponseReader γ} (hrange : reader.StartsOutOfRange payload) :
    stream.readResponse reader = none := by
  rw [readResponse_of_carries hcarries, ResponseReader.decodeResponse_eq_none_iff]
  exact hrange

end ClientStream

end Syauth.Presenced
