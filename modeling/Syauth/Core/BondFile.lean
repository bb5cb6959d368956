import Syauth.Core.BondLaws
import Syauth.Core.HexPubkey

/-! # The text of `bonds.toml`

`BondFile` with its serde attributes, `serialize_to_toml`, and the text that
`BondStore::load` reads, of `crates/syauth-core/src/bond.rs`.  The crates `toml` and `time`
turn tables and times into text and back; they are parameters.
-/

namespace Syauth

/-- The kinds of TOML values that a bond file has. -/
inductive TomlValue where
  | string (text : String)
  | integer (value : Int)
  | array (items : List TomlValue)
  | table (entries : List (String × TomlValue))

abbrev TomlTable := List (String × TomlValue)

/-- `toml::to_string` and `toml::from_str`, and the RFC 3339 format of the time crate. -/
structure FileCrates where
  tomlToString : TomlTable → Option String
  tomlFromStr : String → Option TomlTable
  formatRfc3339 : Int → Option String
  parseRfc3339 : String → Option Int

/-- What was printed is parsed as it was. -/
structure FileCrates.RoundTrip (crates : FileCrates) : Prop where
  tables : ∀ {table text}, crates.tomlToString table = some text →
    crates.tomlFromStr text = some table
  times : ∀ {time text}, crates.formatRfc3339 time = some text →
    crates.parseRfc3339 text = some time

/-! ## Writing -/

/-- An enum with the tag `kind`. -/
def BondStatus.toToml : BondStatus → TomlValue
  | .bonded => .table [("kind", .string "Bonded")]
  | .revoked reason => .table [("kind", .string "Revoked"), ("reason", .string reason)]

def Bond.toToml (crates : FileCrates) (bond : Bond) : Option TomlValue :=
  (crates.formatRfc3339 bond.createdAt).map fun createdAt =>
    .table [("peer_id", .string bond.peerId), ("pubkey", .string (hexPubkeySerialize bond.pubkey)),
      ("name", .string bond.name), ("created_at", .string createdAt),
      ("status", bond.status.toToml)]

/-- The field `bonds` is renamed. -/
def BondFile.toToml (crates : FileCrates) (file : BondFile) : Option TomlTable :=
  (file.bonds.mapM (Bond.toToml crates)).map fun bonds =>
    [("schema_version", .integer file.schemaVersion), ("bond", .array bonds)]

def BondStore.serializeToToml (crates : FileCrates) (store : BondStore) :
    Except BondError String :=
  let file : BondFile := ⟨bondSchemaVersionLatest, store.bonds⟩
  match (file.toToml crates).bind crates.tomlToString with
  | some text => .ok text
  | none => .error .serialize

/-- The outcomes of the file operations before and after the text is made. -/
structure SaveOutcome where
  parent : Except BondError Unit
  replace : Except BondError Unit

/-- What reading the file gives. -/
inductive TextRead where
  | notFound
  | ioError
  | text (raw : String)
  deriving DecidableEq

/-- `save` down to the text: the rename comes last, and a failure leaves the old file. -/
def BondStore.saveText (crates : FileCrates) (store : BondStore) (outcome : SaveOutcome)
    (file : TextRead) : Except BondError Unit × TextRead :=
  match outcome.parent with
  | .error err => (.error err, file)
  | .ok () =>
      match store.serializeToToml crates with
      | .error err => (.error err, file)
      | .ok text =>
          match outcome.replace with
          | .error err => (.error err, file)
          | .ok () => (.ok (), .text text)

/-! ## Reading -/

/-- A document that does not fit the types, or a key that panics. -/
inductive DecodeFault where
  | mismatch
  | panic
  deriving DecidableEq

def TomlTable.field (table : TomlTable) (key : String) : Except DecodeFault TomlValue :=
  match table.lookup key with
  | some value => .ok value
  | none => .error .mismatch

def TomlValue.asString : TomlValue → Except DecodeFault String
  | .string text => .ok text
  | _ => .error .mismatch

def TomlValue.asTable : TomlValue → Except DecodeFault TomlTable
  | .table entries => .ok entries
  | _ => .error .mismatch

def TomlTable.text (table : TomlTable) (key : String) : Except DecodeFault String :=
  (TomlTable.field table key).bind TomlValue.asString

def decodePubkey (raw : String) : Except DecodeFault Pubkey :=
  match hread : hexPubkeyDeserialize raw with
  | .ok bytes => .ok ⟨bytes, length_of_hexPubkeyDeserialize hread⟩
  | .error .panic => .error .panic
  | .error _ => .error .mismatch

def decodeTime (crates : FileCrates) (raw : String) : Except DecodeFault Int :=
  match crates.parseRfc3339 raw with
  | some time => .ok time
  | none => .error .mismatch

/-- Other entries than the tag and the fields of the variant are passed over. -/
def decodeStatus (value : TomlValue) : Except DecodeFault BondStatus := do
  let table ← value.asTable
  let kind ← TomlTable.text table "kind"
  if kind = "Bonded" then .ok .bonded
  else if kind = "Revoked" then
    let reason ← TomlTable.text table "reason"
    .ok (.revoked reason)
  else .error .mismatch

def decodeBond (crates : FileCrates) (value : TomlValue) : Except DecodeFault Bond := do
  let table ← value.asTable
  let peerId ← TomlTable.text table "peer_id"
  let rawKey ← TomlTable.text table "pubkey"
  let pubkey ← decodePubkey rawKey
  let name ← TomlTable.text table "name"
  let rawTime ← TomlTable.text table "created_at"
  let createdAt ← decodeTime crates rawTime
  let rawStatus ← TomlTable.field table "status"
  let status ← decodeStatus rawStatus
  .ok ⟨peerId, pubkey, name, createdAt, status⟩

/-- A `u32`. -/
def decodeSchemaVersion : TomlValue → Except DecodeFault Nat
  | .integer value =>
      if 0 ≤ value ∧ value ≤ 4294967295 then .ok value.toNat else .error .mismatch
  | _ => .error .mismatch

/-- A file without the array has no bonds. -/
def decodeBonds (crates : FileCrates) (table : TomlTable) : Except DecodeFault (List Bond) :=
  match table.lookup "bond" with
  | none => .ok []
  | some (.array items) => items.mapM (decodeBond crates)
  | some _ => .error .mismatch

def decodeBondFile (crates : FileCrates) (table : TomlTable) : Except DecodeFault BondFile := do
  let rawVersion ← TomlTable.field table "schema_version"
  let version ← decodeSchemaVersion rawVersion
  let bonds ← decodeBonds crates table
  .ok ⟨version, bonds⟩

/-- `load` ends with an error of its own, or not at all. -/
inductive LoadFault where
  | bond (err : BondError)
  | panic
  deriving DecidableEq

def BondStore.loadText (prim : Primitives) (crates : FileCrates) (read : TextRead) :
    Except LoadFault BondStore :=
  match read with
  | .notFound => .ok .empty
  | .ioError => .error (.bond .io)
  | .text raw =>
      match (crates.tomlFromStr raw).map (decodeBondFile crates) with
      | none | some (.error .mismatch) => .error (.bond .parse)
      | some (.error .panic) => .error .panic
      | some (.ok file) => (BondStore.load prim (.parsed file)).mapError .bond

/-! ## The round trip -/

section RoundTrip

variable {crates : FileCrates}

theorem decodePubkey_serialize (pubkey : Pubkey) :
    decodePubkey (hexPubkeySerialize pubkey) = .ok pubkey := by
  have hserialize := hexPubkeyDeserialize_serialize pubkey
  unfold decodePubkey
  split
  · next bytes hread =>
      rw [hserialize] at hread
      cases hread
      rfl
  · next hread =>
      rw [hserialize] at hread
      cases hread
  · next hread =>
      rw [hserialize] at hread
      cases hread

theorem decodeStatus_toToml (status : BondStatus) : decodeStatus status.toToml = .ok status := by
  cases status <;> rfl

theorem decodeBond_toToml (htrip : crates.RoundTrip) {bond : Bond} {value : TomlValue}
    (hwrite : bond.toToml crates = some value) : decodeBond crates value = .ok bond := by
  obtain ⟨createdAt, hformat, hvalue⟩ := Option.map_eq_some_iff.mp hwrite
  subst hvalue
  have htime : decodeTime crates createdAt = .ok bond.createdAt := by
    rw [decodeTime, htrip.times hformat]
  let table : TomlTable := [("peer_id", .string bond.peerId),
    ("pubkey", .string (hexPubkeySerialize bond.pubkey)), ("name", .string bond.name),
    ("created_at", .string createdAt), ("status", bond.status.toToml)]
  have hid : TomlTable.text table "peer_id" = .ok bond.peerId := rfl
  have hkey : TomlTable.text table "pubkey" = .ok (hexPubkeySerialize bond.pubkey) := rfl
  have hname : TomlTable.text table "name" = .ok bond.name := rfl
  have hcreated : TomlTable.text table "created_at" = .ok createdAt := rfl
  have hstatus : TomlTable.field table "status" = .ok bond.status.toToml := rfl
  change decodeBond crates (.table table) = .ok bond
  simp only [decodeBond, TomlValue.asTable, bind, Except.bind, hid, hkey, hname, hcreated, hstatus,
    decodePubkey_serialize, htime, decodeStatus_toToml]

theorem decodeBonds_toToml (htrip : crates.RoundTrip) {bonds : List Bond}
    {values : List TomlValue} (hwrite : bonds.mapM (Bond.toToml crates) = some values) :
    values.mapM (decodeBond crates) = .ok bonds := by
  induction bonds generalizing values with
  | nil =>
      cases hwrite
      rfl
  | cons bond bonds ih =>
      rw [List.mapM_cons] at hwrite
      obtain ⟨value, hvalue, hwrite⟩ := Option.bind_eq_some_iff.mp hwrite
      obtain ⟨rest, hrest, hvalues⟩ := Option.bind_eq_some_iff.mp hwrite
      cases hvalues
      rw [List.mapM_cons, decodeBond_toToml htrip hvalue, ih hrest]
      rfl

theorem decodeBondFile_toToml (htrip : crates.RoundTrip) {file : BondFile} {table : TomlTable}
    (hversion : file.schemaVersion ≤ 4294967295) (hwrite : file.toToml crates = some table) :
    decodeBondFile crates table = .ok file := by
  obtain ⟨values, hvalues, htable⟩ := Option.map_eq_some_iff.mp hwrite
  subst htable
  let table : TomlTable :=
    [("schema_version", .integer file.schemaVersion), ("bond", .array values)]
  have hfield : TomlTable.field table "schema_version" = .ok (.integer file.schemaVersion) := rfl
  have hread : decodeSchemaVersion (.integer file.schemaVersion) = .ok file.schemaVersion := by
    have hbound : 0 ≤ (file.schemaVersion : Int) ∧ (file.schemaVersion : Int) ≤ 4294967295 := by
      omega
    rw [decodeSchemaVersion, if_pos hbound, Int.toNat_natCast]
  have hbonds : decodeBonds crates table = .ok file.bonds := decodeBonds_toToml htrip hvalues
  change decodeBondFile crates table = .ok file
  simp only [decodeBondFile, bind, Except.bind, hfield, hread, hbonds]

/-- What was saved is read as it was. -/
theorem loadText_of_saveText {prim : Primitives} {store : BondStore} {outcome : SaveOutcome}
    {file left : TextRead} (htrip : crates.RoundTrip) (hderived : BondStore.Derived prim store)
    (hsave : store.saveText crates outcome file = (.ok (), left)) :
    BondStore.loadText prim crates left = .ok store := by
  unfold BondStore.saveText at hsave
  split at hsave
  · cases hsave
  · split at hsave
    · cases hsave
    · next text hserialize =>
        split at hsave
        · cases hsave
        · cases hsave
          unfold BondStore.serializeToToml at hserialize
          dsimp only at hserialize
          split at hserialize
          · next hprinted =>
              cases hserialize
              obtain ⟨table, htable, hprint⟩ := Option.bind_eq_some_iff.mp hprinted
              have hversion : bondSchemaVersionLatest ≤ 4294967295 := by decide
              have hfile := decodeBondFile_toToml htrip hversion htable
              rw [BondStore.loadText, htrip.tables hprint, Option.map_some, hfile]
              change (BondStore.load prim store.saved).mapError LoadFault.bond = _
              rw [BondStore.load_saved hderived]
              rfl
          · cases hserialize

/-- Every store that comes of a load and of calls: a save that succeeds leaves a file from which
a load gets the same bonds in the same order. -/
theorem bond_file_round_trip {prim : Primitives} {loaded store : BondStore} {ops : List StoreOp}
    {outcome : SaveOutcome} {file left : TextRead} (htrip : crates.RoundTrip)
    (hstart : (BondStore.calls prim).start loaded)
    (hrun : (BondStore.calls prim).run loaded ops = some store)
    (hsave : store.saveText crates outcome file = (.ok (), left)) :
    BondStore.loadText prim crates left = .ok store := by
  obtain ⟨read, hload⟩ := hstart
  have hloaded : BondStore.Derived prim loaded :=
    fun bond hbond => BondStore.peerId_of_load hload hbond
  exact loadText_of_saveText htrip (BondStore.derived_run hloaded hrun) hsave

/-! ## A file with an active and a revoked record -/

def pixelBond : Bond :=
  ⟨KnownAnswer.peerId, KnownAnswer.pubkey, "Pixel 8", 0, .bonded⟩

def tabletBond : Bond :=
  ⟨KnownAnswer.otherPeerId, KnownAnswer.otherPubkey, "Tablet", 0, .bonded⟩

def bothBonds : BondStore :=
  ⟨[pixelBond, { tabletBond with status := .revoked "lost" }]⟩

def epochText : String := "1970-01-01T00:00:00Z"

def bothTable : TomlTable :=
  [("schema_version", .integer 1),
    ("bond", .array [.table [("peer_id", .string KnownAnswer.peerId),
      ("pubkey", .string (hexPubkeySerialize KnownAnswer.pubkey)), ("name", .string "Pixel 8"),
      ("created_at", .string epochText), ("status", .table [("kind", .string "Bonded")])],
      .table [("peer_id", .string KnownAnswer.otherPeerId),
      ("pubkey", .string (hexPubkeySerialize KnownAnswer.otherPubkey)), ("name", .string "Tablet"),
      ("created_at", .string epochText),
      ("status", .table [("kind", .string "Revoked"), ("reason", .string "lost")])]])]

def bothText : String :=
  "schema_version = 1\n\n[[bond]]\npeer_id = \"" ++ KnownAnswer.peerId ++ "\"\npubkey = \"" ++
    hexPubkeySerialize KnownAnswer.pubkey ++ "\"\nname = \"Pixel 8\"\ncreated_at = \"" ++
    epochText ++ "\"\n\n[bond.status]\nkind = \"Bonded\"\n\n[[bond]]\npeer_id = \"" ++
    KnownAnswer.otherPeerId ++ "\"\npubkey = \"" ++ hexPubkeySerialize KnownAnswer.otherPubkey ++
    "\"\nname = \"Tablet\"\ncreated_at = \"" ++ epochText ++
    "\"\n\n[bond.status]\nkind = \"Revoked\"\nreason = \"lost\"\n"

/-- The two crates at these two records. -/
def bothCrates : FileCrates where
  tomlToString
    | [("schema_version", .integer 1), ("bond", .array [.table [("peer_id", .string id),
        ("pubkey", .string key), ("name", .string "Pixel 8"), ("created_at", .string time),
        ("status", .table [("kind", .string "Bonded")])],
        .table [("peer_id", .string id'), ("pubkey", .string key'), ("name", .string "Tablet"),
        ("created_at", .string time'),
        ("status", .table [("kind", .string "Revoked"), ("reason", .string "lost")])]])] =>
        if (id = KnownAnswer.peerId ∧ key = hexPubkeySerialize KnownAnswer.pubkey ∧
            time = epochText) ∧ id' = KnownAnswer.otherPeerId ∧
            key' = hexPubkeySerialize KnownAnswer.otherPubkey ∧ time' = epochText then
          some bothText
        else none
    | _ => none
  tomlFromStr text := if text = bothText then some bothTable else none
  formatRfc3339 time := if time = 0 then some epochText else none
  parseRfc3339 text := if text = epochText then some 0 else none

theorem bothCrates_roundTrip : bothCrates.RoundTrip where
  tables := by
    intro table text hprint
    simp only [bothCrates] at hprint
    split at hprint
    · split at hprint
      · next hsame =>
          cases hprint
          obtain ⟨⟨hid, hkey, htime⟩, hid', hkey', htime'⟩ := hsame
          subst hid hkey htime hid' hkey' htime'
          simp only [bothCrates, if_true]
          rfl
      · cases hprint
    · cases hprint
  times := by
    intro time text hformat
    simp only [bothCrates] at hformat
    split at hformat
    · next hzero =>
        cases hformat
        subst hzero
        simp only [bothCrates, if_true]
    · cases hformat

/-- Two phones are recorded, and the second one is revoked. -/
theorem bond_file_round_trip_both :
    BondStore.saveText bothCrates bothBonds ⟨.ok (), .ok ()⟩ .notFound =
        (.ok (), .text bothText) ∧
      BondStore.loadText KnownAnswer.primitives bothCrates (.text bothText) = .ok bothBonds := by
  have hsave : BondStore.saveText bothCrates bothBonds ⟨.ok (), .ok ()⟩ .notFound =
      (.ok (), .text bothText) := rfl
  have hstart : (BondStore.calls KnownAnswer.primitives).start .empty := ⟨.notFound, rfl⟩
  have hrun : (BondStore.calls KnownAnswer.primitives).run .empty
      [.add pixelBond, .add tabletBond, .markRevoked KnownAnswer.otherPeerId "lost"] =
        some bothBonds := rfl
  exact ⟨hsave, bond_file_round_trip bothCrates_roundTrip hstart hrun hsave⟩

end RoundTrip

end Syauth
