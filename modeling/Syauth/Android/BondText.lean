import Syauth.Core.Crypto
import Syauth.Text.CodeUnits
import Syauth.Text.Delimited

/-! # The text of the phone's bond file

`parseBondRecord` and `serializeBondRecord` of `bond/BondStore.kt`.  A record is written one
field a line, with its text between quotes as it is.
-/

namespace Syauth.Android

open Text

namespace BondKeys

def schemaVersion : List CodeUnit := codeUnits "schema_version"
def hostName : List CodeUnit := codeUnits "host_name"
def peerId : List CodeUnit := codeUnits "peer_id"
def bondKeyHex : List CodeUnit := codeUnits "bond_key_hex"
def keystoreAlias : List CodeUnit := codeUnits "keystore_alias"
def phonePubkeyHex : List CodeUnit := codeUnits "phone_pubkey_hex"

end BondKeys

def bondRecordSchemaVersion : Int := 2
def bondHex32Len : Nat := 64

inductive BondParseError where
  | missingField (field : List CodeUnit)
  | unsupportedSchemaVersion (got : Int)
  | malformedLine (line : List CodeUnit)
  | malformedHex (field : List CodeUnit) (length : Nat)
  deriving DecidableEq

/-- A `BondRecord` whose texts are those of the platform. -/
structure StoredBond where
  peerId : List CodeUnit
  hostName : List CodeUnit
  bondKey : BondKey
  keystoreAlias : List CodeUnit
  phonePubkey : Pubkey
  deriving DecidableEq

/-! ## Hexadecimal fields -/

def hexNibble (c : CodeUnit) : Option Nat :=
  if codeUnit '0' ≤ c ∧ c ≤ codeUnit '9' then some (c.toNat - (codeUnit '0').toNat)
  else if codeUnit 'a' ≤ c ∧ c ≤ codeUnit 'f' then some (c.toNat - (codeUnit 'a').toNat + 10)
  else if codeUnit 'A' ≤ c ∧ c ≤ codeUnit 'F' then some (c.toNat - (codeUnit 'A').toNat + 10)
  else none

/-- The loop of `decodeHex32`, two units for a byte. -/
def hexPairs : List CodeUnit → Option Bytes
  | [] => some []
  | [_] => some []
  | high :: low :: rest =>
      (hexNibble high).bind fun hi => (hexNibble low).bind fun lo =>
        (hexPairs rest).map fun bytes => UInt8.ofNat (hi * 16 + lo) :: bytes

theorem length_of_hexPairs {text : List CodeUnit} {bytes : Bytes}
    (hpairs : hexPairs text = some bytes) : bytes.length = text.length / 2 := by
  induction text using hexPairs.induct generalizing bytes with
  | case1 =>
      cases hpairs
      rfl
  | case2 c =>
      cases hpairs
      simp
  | case3 high low rest ih =>
      obtain ⟨hi, _, hpairs⟩ := Option.bind_eq_some_iff.mp hpairs
      obtain ⟨lo, _, hpairs⟩ := Option.bind_eq_some_iff.mp hpairs
      obtain ⟨tail, htail, hbytes⟩ := Option.map_eq_some_iff.mp hpairs
      subst hbytes
      simp only [List.length_cons, ih htail]
      omega

/-- The two maps that the loop over the lines fills, the newest entry first. -/
structure BondFields where
  fields : List (List CodeUnit × List CodeUnit)
  integerFields : List (List CodeUnit × Int)

def decodeHex32 (fields : List (List CodeUnit × List CodeUnit)) (key : List CodeUnit) :
    Except BondParseError (Octets 32) :=
  match fields.lookup key with
  | none => .error (.missingField key)
  | some raw =>
      if hlen : raw.length = bondHex32Len then
        match hpairs : hexPairs raw with
        | none => .error (.malformedHex key raw.length)
        | some bytes => .ok ⟨bytes, by rw [length_of_hexPairs hpairs, hlen]; rfl⟩
      else .error (.malformedHex key raw.length)

def hexDigits : List CodeUnit := codeUnits "0123456789abcdef"

def encodeHex (bytes : Bytes) : List CodeUnit :=
  bytes.flatMap fun byte => [hexDigits.getD (byte.toNat / 16) 0, hexDigits.getD (byte.toNat % 16) 0]

/-! ## The parser -/

def quote : CodeUnit := codeUnit '"'

/-- One round of the loop over the lines. -/
def visitLine (parsed : BondFields) (rawLine : List CodeUnit) :
    Except BondParseError BondFields :=
  let line := trim rawLine
  if line = [] then .ok parsed
  else if line.head? = some (codeUnit '#') then .ok parsed
  else if line.head? = some (codeUnit '[') then .ok parsed
  else
    match splitOnce [codeUnit '='] line with
    | none => .error (.malformedLine line)
    | some (before, after) =>
        if before = [] then .error (.malformedLine line)
        else
          let key := trim before
          let value := trim after
          if key = [] ∨ value = [] then .error (.malformedLine line)
          else if value.head? = some quote ∧ value.getLast? = some quote ∧ 2 ≤ value.length then
            .ok { parsed with fields := (key, value.tail.dropLast) :: parsed.fields }
          else
            match toIntOrNull value with
            | none => .error (.malformedLine line)
            | some number =>
                .ok { parsed with integerFields := (key, number) :: parsed.integerFields }

def visitLines (parsed : BondFields) : List (List CodeUnit) → Except BondParseError BondFields
  | [] => .ok parsed
  | rawLine :: rest =>
      match visitLine parsed rawLine with
      | .error err => .error err
      | .ok next => visitLines next rest

/-- What follows the loop. -/
def BondFields.toRecord (parsed : BondFields) : Except BondParseError StoredBond :=
  match parsed.integerFields.lookup BondKeys.schemaVersion with
  | none => .error (.missingField BondKeys.schemaVersion)
  | some schemaVersion =>
      if schemaVersion ≠ bondRecordSchemaVersion then
        .error (.unsupportedSchemaVersion schemaVersion)
      else
        match parsed.fields.lookup BondKeys.hostName with
        | none => .error (.missingField BondKeys.hostName)
        | some hostName =>
            match parsed.fields.lookup BondKeys.peerId with
            | none => .error (.missingField BondKeys.peerId)
            | some peerId =>
                match decodeHex32 parsed.fields BondKeys.bondKeyHex with
                | .error err => .error err
                | .ok bondKey =>
                    match parsed.fields.lookup BondKeys.keystoreAlias with
                    | none => .error (.missingField BondKeys.keystoreAlias)
                    | some keystoreAlias =>
                        match decodeHex32 parsed.fields BondKeys.phonePubkeyHex with
                        | .error err => .error err
                        | .ok phonePubkey =>
                            .ok { peerId, hostName, bondKey, keystoreAlias, phonePubkey }

def parseBondRecord (body : List CodeUnit) : Except BondParseError StoredBond :=
  match visitLines ⟨[], []⟩ (lineSequence body) with
  | .error err => .error err
  | .ok parsed => parsed.toRecord

/-! ## The writer -/

def versionLine : List CodeUnit := BondKeys.schemaVersion ++ codeUnits " = 2"

/-- What `appendQuoted` adds to a key, but for the line feed. -/
def quotedLine (key value : List CodeUnit) : List CodeUnit :=
  key ++ codeUnits " = " ++ (quote :: (value ++ [quote]))

def recordLines (record : StoredBond) : List (List CodeUnit) :=
  [versionLine,
    quotedLine BondKeys.hostName record.hostName,
    quotedLine BondKeys.peerId record.peerId,
    quotedLine BondKeys.bondKeyHex (encodeHex record.bondKey.val),
    quotedLine BondKeys.keystoreAlias record.keystoreAlias,
    quotedLine BondKeys.phonePubkeyHex (encodeHex record.phonePubkey.val)]

def serializeBondRecord (record : StoredBond) : List CodeUnit :=
  terminated CodeUnit.lineFeed (recordLines record)

/-! ## What the writer writes is read back -/

theorem hexNibble_hexDigits {value : Nat} (hvalue : value < 16) :
    hexNibble (hexDigits.getD value 0) = some value := by
  revert value
  decide

theorem hexPairs_encodeHex (bytes : Bytes) : hexPairs (encodeHex bytes) = some bytes := by
  induction bytes with
  | nil => rfl
  | cons byte bytes ih =>
      have hbyte : byte.toNat < 256 := byte.toNat_lt
      have hsplit : byte.toNat / 16 * 16 + byte.toNat % 16 = byte.toNat := by omega
      unfold encodeHex at ih ⊢
      rw [List.flatMap_cons, List.cons_append, List.cons_append, List.nil_append, hexPairs, ih,
        hexNibble_hexDigits (by omega), hexNibble_hexDigits (by omega)]
      simp only [Option.bind_some, Option.map_some, hsplit, UInt8.ofNat_toNat]

theorem length_encodeHex (bytes : Bytes) : (encodeHex bytes).length = 2 * bytes.length := by
  induction bytes with
  | nil => rfl
  | cons byte bytes ih =>
      unfold encodeHex at ih ⊢
      rw [List.flatMap_cons, List.length_append, ih]
      simp only [List.length_cons, List.length_nil]
      omega

/-- What is so of the sixteen digits is so of the text of any bytes. -/
theorem forall_mem_encodeHex {p : CodeUnit → Prop}
    (hdigit : ∀ value < 16, p (hexDigits.getD value 0)) (bytes : Bytes) :
    ∀ c ∈ encodeHex bytes, p c := by
  intro c hc
  obtain ⟨byte, _, hmem⟩ := List.mem_flatMap.mp hc
  have hbyte : byte.toNat < 256 := byte.toNat_lt
  rcases List.mem_cons.mp hmem with rfl | hlow
  · exact hdigit _ (by omega)
  · rw [List.mem_singleton.mp hlow]
    exact hdigit _ (by omega)

theorem oneLine_encodeHex (bytes : Bytes) : OneLine (encodeHex bytes) :=
  forall_mem_encodeHex (by decide) bytes

theorem decodeHex32_of_lookup {fields : List (List CodeUnit × List CodeUnit)}
    {key : List CodeUnit} {bytes : Octets 32}
    (hlookup : fields.lookup key = some (encodeHex bytes.val)) :
    decodeHex32 fields key = .ok bytes := by
  have hlen : (encodeHex bytes.val).length = bondHex32Len := by
    rw [length_encodeHex, bytes.property]
    rfl
  unfold decodeHex32
  rw [hlookup]
  simp only [dif_pos hlen]
  split
  next hnone =>
    rw [hexPairs_encodeHex] at hnone
    cases hnone
  next found hfound =>
    have heq : found = bytes.val := by
      rw [hexPairs_encodeHex] at hfound
      exact (Option.some.inj hfound).symm
    subst heq
    rfl

/-- A key that the parser finds again at the start of a line. -/
def isFieldKey : List CodeUnit → Bool
  | [] => false
  | first :: rest =>
      !first.isBlank && first != codeUnit '#' && first != codeUnit '[' &&
        !(first :: rest).contains (codeUnit '=') &&
        trim (first :: rest ++ [codeUnit ' ']) == first :: rest &&
        (first :: rest).all fun c => !c.isBreak

theorem visitLine_quotedLine {key : List CodeUnit} (hkey : isFieldKey key = true)
    (parsed : BondFields) (value : List CodeUnit) :
    visitLine parsed (quotedLine key value) =
      .ok { parsed with fields := (key, value) :: parsed.fields } := by
  cases key with
  | nil => cases hkey
  | cons first rest =>
      simp only [isFieldKey, Bool.and_eq_true, Bool.not_eq_true', bne_iff_ne, beq_iff_eq] at hkey
      obtain ⟨⟨⟨⟨⟨hblank, hcomment⟩, hsection⟩, hseparator⟩, htrimmed⟩, _⟩ := hkey
      have hquote : quote.isBlank = false := by decide
      have hline : trim (quotedLine (first :: rest) value) = quotedLine (first :: rest) value := by
        have hform : quotedLine (first :: rest) value =
            first :: ((rest ++ codeUnits " = " ++ (quote :: value)) ++ [quote]) := by
          simp [quotedLine]
        rw [hform]
        exact trim_of_ends hblank hquote _
      have hsplit : splitOnce [codeUnit '='] (quotedLine (first :: rest) value) =
          some (first :: rest ++ [codeUnit ' '],
            codeUnit ' ' :: (quote :: (value ++ [quote]))) := by
        rw [splitOnce_singleton]
        constructor
        · have hmiddle : codeUnits " = " = [codeUnit ' ', codeUnit '=', codeUnit ' '] := by decide
          simp [quotedLine, hmiddle]
        · have hspace : codeUnit '=' ≠ codeUnit ' ' := by decide
          rw [List.contains_eq_mem, decide_eq_false_iff_not] at hseparator
          rw [List.mem_append, List.mem_singleton]
          exact not_or.mpr ⟨hseparator, hspace⟩
      have hvalue : trim (codeUnit ' ' :: (quote :: (value ++ [quote]))) =
          quote :: (value ++ [quote]) := by
        rw [trim_blank_cons (by decide)]
        exact trim_of_ends hquote hquote value
      have hne : quotedLine (first :: rest) value ≠ [] := by simp [quotedLine]
      have hhead : (quotedLine (first :: rest) value).head? = some first := rfl
      have hquoted : (quote :: (value ++ [quote])).head? = some quote ∧
          (quote :: (value ++ [quote])).getLast? = some quote ∧
          2 ≤ (quote :: (value ++ [quote])).length := by
        refine ⟨rfl, ?_, ?_⟩
        · rw [← List.cons_append, List.getLast?_concat]
        · simp
      have hinner : (quote :: (value ++ [quote])).tail.dropLast = value := by
        rw [List.tail_cons, List.dropLast_concat]
      have hbefore : first :: rest ++ [codeUnit ' '] ≠ [] := List.cons_ne_nil _ _
      unfold visitLine
      simp only [hline, hsplit, htrimmed, hvalue, hhead, if_neg hne, Option.some_inj,
        if_neg hcomment, if_neg hsection, if_neg hbefore, if_pos hquoted, hinner, reduceCtorEq,
        or_self, if_false]

theorem visitLine_versionLine (parsed : BondFields) :
    visitLine parsed versionLine =
      .ok { parsed with
        integerFields := (BondKeys.schemaVersion, bondRecordSchemaVersion) ::
          parsed.integerFields } := by
  rfl

theorem visitLine_nil (parsed : BondFields) : visitLine parsed [] = .ok parsed := rfl

/-- The texts of a record are in one line. -/
structure StoredBond.InLines (record : StoredBond) : Prop where
  hostName : OneLine record.hostName
  peerId : OneLine record.peerId
  keystoreAlias : OneLine record.keystoreAlias

theorem oneLine_append {first second : List CodeUnit} (hfirst : OneLine first)
    (hsecond : OneLine second) : OneLine (first ++ second) := by
  intro c hc
  rcases List.mem_append.mp hc with hc | hc
  · exact hfirst c hc
  · exact hsecond c hc

theorem oneLine_quotedLine {key value : List CodeUnit} (hkey : isFieldKey key = true)
    (hvalue : OneLine value) : OneLine (quotedLine key value) := by
  have hfree : OneLine key := by
    cases key with
    | nil => cases hkey
    | cons first rest =>
        simp only [isFieldKey, Bool.and_eq_true, List.all_eq_true, Bool.not_eq_true'] at hkey
        exact hkey.2
  have hmiddle : OneLine (codeUnits " = ") := forall_mem_of_all (by decide)
  have hquote : OneLine [quote] := forall_mem_of_all (by decide)
  have hquoted : OneLine (quote :: (value ++ [quote])) :=
    List.forall_mem_cons.mpr ⟨by decide, oneLine_append hvalue hquote⟩
  exact oneLine_append (oneLine_append hfree hmiddle) hquoted

/-- The keys and texts of a record, in the order of its lines. -/
def textFields (record : StoredBond) : List (List CodeUnit × List CodeUnit) :=
  [(BondKeys.hostName, record.hostName),
    (BondKeys.peerId, record.peerId),
    (BondKeys.bondKeyHex, encodeHex record.bondKey.val),
    (BondKeys.keystoreAlias, record.keystoreAlias),
    (BondKeys.phonePubkeyHex, encodeHex record.phonePubkey.val)]

theorem recordLines_eq (record : StoredBond) :
    recordLines record =
      versionLine :: (textFields record).map fun entry => quotedLine entry.1 entry.2 := rfl

theorem isFieldKey_of_mem {record : StoredBond} :
    ∀ entry ∈ textFields record, isFieldKey entry.1 = true := by
  simp only [textFields, List.forall_mem_cons]
  exact ⟨by decide, by decide, by decide, by decide, by decide,
    fun _ hmem => absurd hmem List.not_mem_nil⟩

theorem oneLine_of_mem_textFields {record : StoredBond} (hlines : record.InLines) :
    ∀ entry ∈ textFields record, OneLine entry.2 := by
  simp only [textFields, List.forall_mem_cons]
  exact ⟨hlines.hostName, hlines.peerId, oneLine_encodeHex _, hlines.keystoreAlias,
    oneLine_encodeHex _, fun _ hmem => absurd hmem List.not_mem_nil⟩

theorem oneLine_recordLines {record : StoredBond} (hlines : record.InLines) :
    ∀ line ∈ recordLines record, OneLine line := by
  have hversion : OneLine versionLine := forall_mem_of_all (by decide)
  rw [recordLines_eq]
  refine List.forall_mem_cons.mpr ⟨hversion, fun line hline => ?_⟩
  obtain ⟨entry, hentry, rfl⟩ := List.mem_map.mp hline
  exact oneLine_quotedLine (isFieldKey_of_mem entry hentry)
    (oneLine_of_mem_textFields hlines entry hentry)

/-- Quoted lines put their entries into the map, the last one first. -/
theorem visitLines_quotedLines {entries : List (List CodeUnit × List CodeUnit)}
    (hkeys : ∀ entry ∈ entries, isFieldKey entry.1 = true) (parsed : BondFields)
    (rest : List (List CodeUnit)) :
    visitLines parsed ((entries.map fun entry => quotedLine entry.1 entry.2) ++ rest) =
      visitLines { parsed with fields := entries.reverse ++ parsed.fields } rest := by
  induction entries generalizing parsed with
  | nil => rfl
  | cons entry entries ih =>
      obtain ⟨hkey, htail⟩ := List.forall_mem_cons.mp hkeys
      rw [List.map_cons, List.cons_append, visitLines, visitLine_quotedLine hkey]
      simp only [ih htail, List.reverse_cons, List.append_assoc, List.singleton_append]

/-- The maps that the lines of a record fill. -/
def recordFields (record : StoredBond) : BondFields where
  fields := (textFields record).reverse
  integerFields := [(BondKeys.schemaVersion, bondRecordSchemaVersion)]

theorem visitLines_recordLines (record : StoredBond) :
    visitLines ⟨[], []⟩ (recordLines record ++ [[]]) = .ok (recordFields record) := by
  rw [recordLines_eq, List.cons_append, visitLines, visitLine_versionLine]
  simp only [visitLines_quotedLines isFieldKey_of_mem, visitLines, visitLine_nil, List.append_nil]
  rfl

theorem toRecord_recordFields (record : StoredBond) :
    (recordFields record).toRecord = .ok record := by
  have hversion : (recordFields record).integerFields.lookup BondKeys.schemaVersion =
      some bondRecordSchemaVersion := rfl
  have hhost : (recordFields record).fields.lookup BondKeys.hostName = some record.hostName := rfl
  have hpeer : (recordFields record).fields.lookup BondKeys.peerId = some record.peerId := rfl
  have hkey : decodeHex32 (recordFields record).fields BondKeys.bondKeyHex = .ok record.bondKey :=
    decodeHex32_of_lookup rfl
  have halias : (recordFields record).fields.lookup BondKeys.keystoreAlias =
      some record.keystoreAlias := rfl
  have hpubkey : decodeHex32 (recordFields record).fields BondKeys.phonePubkeyHex =
      .ok record.phonePubkey := decodeHex32_of_lookup rfl
  simp only [BondFields.toRecord, hversion, hhost, hpeer, hkey, halias, hpubkey, ne_eq,
    not_true_eq_false, if_false]

theorem parseBondRecord_serialize {record : StoredBond} (hlines : record.InLines) :
    parseBondRecord (serializeBondRecord record) = .ok record := by
  unfold parseBondRecord serializeBondRecord
  rw [lineSequence_terminated (oneLine_recordLines hlines), visitLines_recordLines]
  exact toRecord_recordFields record

/-! ## What is read is in lines -/

/-- Between its quotes a line has no break. -/
theorem visitLine_fields {parsed next : BondFields} {rawLine : List CodeUnit}
    (hline : OneLine rawLine) (hvisit : visitLine parsed rawLine = .ok next)
    (hparsed : ∀ entry ∈ parsed.fields, OneLine entry.2) :
    ∀ entry ∈ next.fields, OneLine entry.2 := by
  simp only [visitLine] at hvisit
  split at hvisit
  · cases hvisit
    exact hparsed
  split at hvisit
  · cases hvisit
    exact hparsed
  split at hvisit
  · cases hvisit
    exact hparsed
  split at hvisit
  · cases hvisit
  next before after hsplit =>
    split at hvisit
    · cases hvisit
    split at hvisit
    · cases hvisit
    split at hvisit
    · cases hvisit
      have hafter : ∀ c ∈ after, c ∈ rawLine := by
        intro c hc
        apply mem_of_mem_trim
        rw [(splitOnce_singleton.mp hsplit).1]
        exact List.mem_append_right before (List.mem_cons_of_mem _ hc)
      refine List.forall_mem_cons.mpr ⟨fun c hc => hline c (hafter c ?_), hparsed⟩
      exact mem_of_mem_trim (List.mem_of_mem_tail (List.dropLast_subset _ hc))
    · split at hvisit
      · cases hvisit
      · cases hvisit
        exact hparsed

theorem visitLines_fields {parsed final : BondFields} {lines : List (List CodeUnit)}
    (hlines : ∀ line ∈ lines, OneLine line) (hvisit : visitLines parsed lines = .ok final)
    (hparsed : ∀ entry ∈ parsed.fields, OneLine entry.2) :
    ∀ entry ∈ final.fields, OneLine entry.2 := by
  induction lines generalizing parsed with
  | nil =>
      cases hvisit
      exact hparsed
  | cons line lines ih =>
      obtain ⟨hline, hrest⟩ := List.forall_mem_cons.mp hlines
      unfold visitLines at hvisit
      split at hvisit
      · cases hvisit
      next next hnext => exact ih hrest hvisit (visitLine_fields hline hnext hparsed)

theorem oneLine_of_lookup {fields : List (List CodeUnit × List CodeUnit)}
    {key value : List CodeUnit} (hfields : ∀ entry ∈ fields, OneLine entry.2)
    (hlookup : fields.lookup key = some value) : OneLine value := by
  obtain ⟨front, back, heq, _⟩ := List.lookup_eq_some_iff.mp hlookup
  apply hfields (key, value)
  rw [heq]
  exact List.mem_append_right front List.mem_cons_self

theorem toRecord_inLines {parsed : BondFields} {record : StoredBond}
    (hfields : ∀ entry ∈ parsed.fields, OneLine entry.2)
    (hrecord : parsed.toRecord = .ok record) : record.InLines := by
  unfold BondFields.toRecord at hrecord
  split at hrecord
  · cases hrecord
  split at hrecord
  · cases hrecord
  split at hrecord
  · cases hrecord
  next hostName hhost =>
    split at hrecord
    · cases hrecord
    next peerId hpeer =>
      split at hrecord
      · cases hrecord
      split at hrecord
      · cases hrecord
      next keystoreAlias halias =>
        split at hrecord
        · cases hrecord
        cases hrecord
        exact ⟨oneLine_of_lookup hfields hhost, oneLine_of_lookup hfields hpeer,
          oneLine_of_lookup hfields halias⟩

/-- Whatever a file holds, the texts that are read from it are in one line. -/
theorem inLines_of_parseBondRecord {body : List CodeUnit} {record : StoredBond}
    (hparse : parseBondRecord body = .ok record) : record.InLines := by
  unfold parseBondRecord at hparse
  split at hparse
  · cases hparse
  next parsed hvisit =>
    refine toRecord_inLines (visitLines_fields ?_ hvisit ?_) hparse
    · intro line hline
      exact oneLine_of_mem_lineSequence hline
    · intro entry hentry
      cases hentry

/-- A record is read back exactly when its texts have no line break. -/
theorem parseBondRecord_serialize_iff (record : StoredBond) :
    parseBondRecord (serializeBondRecord record) = .ok record ↔
      OneLine record.hostName ∧ OneLine record.peerId ∧ OneLine record.keystoreAlias := by
  constructor
  · intro hparse
    have hlines := inLines_of_parseBondRecord hparse
    exact ⟨hlines.hostName, hlines.peerId, hlines.keystoreAlias⟩
  · intro ⟨hhost, hpeer, halias⟩
    exact parseBondRecord_serialize ⟨hhost, hpeer, halias⟩

/-- The record of a device whose name ends its line and sets the version again. -/
def versionedRecord : StoredBond where
  peerId := codeUnits "AA:BB:CC:DD:EE:FF"
  hostName := codeUnits "laptop\"\nschema_version = 1\n#"
  bondKey := Octets.zero 32
  keystoreAlias := []
  phonePubkey := Octets.zero 32

/-- Such a name makes the record unreadable. -/
theorem parseBondRecord_versionedRecord :
    parseBondRecord (serializeBondRecord versionedRecord) ≠ .ok versionedRecord ∧
      parseBondRecord (serializeBondRecord versionedRecord) =
        .error (.unsupportedSchemaVersion 1) := by
  decide +kernel

end Syauth.Android
