import Syauth.Presenced.Rpc
import Syauth.Wire.ExactReader
import Mathlib.Algebra.Group.Int.Defs
import Mathlib.Algebra.Group.Nat.Defs
import Mathlib.Data.List.Nodup

/-! # Frames of the daemon's socket

`encode_frame` and the two readers of `crates/syauth-presenced/src/rpc.rs`.  A frame is
a CBOR payload behind its length in four big-endian bytes.  The CBOR library is a
parameter; `started_at` goes over the wire in whole seconds.
-/

namespace Syauth.Presenced

open Wire

def maxFrameLen : Nat := 64 * 1024
def lengthPrefixBytes : Nat := 4
def u32Max : Nat := 2 ^ 32 - 1

inductive FrameError (κ : Type) where
  | io (err : ReadError κ)
  | decode (text : String)
  | encode (text : String)
  | tooLarge (len max : Nat)
  deriving DecidableEq

/-! ## Values and their CBOR shapes -/

/-- `into_writer` and `from_reader` of the CBOR library, for the values of one shape. -/
structure Ciborium (ω : Type) where
  intoWriter : ω → Except String Bytes
  fromReader : Bytes → Except String ω

def Ciborium.RoundTrips {ω : Type} (cbor : Ciborium ω) : Prop :=
  ∀ shape payload, cbor.intoWriter shape = .ok payload → cbor.fromReader payload = .ok shape

/-- What the `Serialize` and `Deserialize` instances of a type do between its values and the
shape that is written.  A deserializer that panics gives nothing. -/
structure Serde (τ ω : Type) where
  serialize : τ → ω
  deserialize : ω → Option τ

def nanosPerSecond : Nat := 1000000000

namespace EpochSeconds

/-- Times before the epoch are written as zero. -/
def serialize (time : SystemTime) : Nat :=
  if time < 0 then 0 else (time / nanosPerSecond).toNat

/-- `UNIX_EPOCH + Duration::from_secs(secs)` panics when the seconds leave the `i64` range. -/
def deserialize (secs : Nat) : Option SystemTime :=
  if secs < 2 ^ 63 then some (secs * nanosPerSecond) else none

end EpochSeconds

/-- A response with its time in seconds. -/
inductive ResponseShape where
  | challenge (ok : Bool) (signature : Option Bytes) (reason : String)
  | reload (ok : Bool)
  | status (peers : List PeerStatus) (startedAt : Nat)
  deriving DecidableEq

def requestSerde : Serde Request Request where
  serialize := id
  deserialize := some

def responseSerde : Serde Response ResponseShape where
  serialize
    | .challenge ok signature reason => .challenge ok signature reason
    | .reload ok => .reload ok
    | .status peers startedAt => .status peers (EpochSeconds.serialize startedAt)
  deserialize
    | .challenge ok signature reason => some (.challenge ok signature reason)
    | .reload ok => some (.reload ok)
    | .status peers startedAt => (EpochSeconds.deserialize startedAt).map (.status peers)

/-! ## Encoding and decoding -/

/-- `u32::to_be_bytes`. -/
def toBeBytes (n : Nat) : Bytes :=
  [UInt8.ofNat (n / 2 ^ 24), UInt8.ofNat (n / 2 ^ 16), UInt8.ofNat (n / 2 ^ 8), UInt8.ofNat n]

/-- `u32::from_be_bytes`. -/
def fromBeBytes (bytes : Bytes) : Nat :=
  bytes.foldl (fun value byte => value * 2 ^ 8 + byte.toNat) 0

section Codec

variable {κ τ ω : Type} (cbor : Ciborium ω) (serde : Serde τ ω)

def encodeFrame (value : τ) : Except (FrameError κ) Bytes :=
  match cbor.intoWriter (serde.serialize value) with
  | .error text => .error (.encode text)
  | .ok payload =>
      if payload.length > maxFrameLen then
        .error (.tooLarge (min payload.length u32Max) maxFrameLen)
      else if payload.length > u32Max then .error (.tooLarge u32Max maxFrameLen)
      else .ok (toBeBytes payload.length ++ payload)

/-- Nothing when the deserializer panics. -/
def decodeFrame (bytes : Bytes) : Option (Except (FrameError κ) τ) :=
  if bytes.length > maxFrameLen then
    some (.error (.tooLarge (min bytes.length u32Max) maxFrameLen))
  else
    match cbor.fromReader bytes with
    | .error text => some (.error (.decode text))
    | .ok shape => (serde.deserialize shape).map .ok

end Codec

/-! ## Reading -/

/-- What a reader returned (nothing when it panicked), took from its source and left. -/
structure FrameRead (σ κ τ : Type) where
  outcome : Option (Except (FrameError κ) τ)
  consumed : Bytes
  left : σ

section Read

variable {σ κ τ : Type}

/-- The body that the two readers share but for the `read_exact` they call. -/
def readFrameWith (reader : ExactReader σ UInt8 κ)
    (decode : Bytes → Option (Except (FrameError κ) τ)) (source : σ) : FrameRead σ κ τ :=
  let lenBuf := reader.readExact lengthPrefixBytes source
  match lenBuf.result with
  | .error err => ⟨some (.error (.io err)), lenBuf.consumed, lenBuf.left⟩
  | .ok () =>
      let announcedLen := fromBeBytes lenBuf.consumed
      if announcedLen > maxFrameLen then
        ⟨some (.error (.tooLarge announcedLen maxFrameLen)), lenBuf.consumed, lenBuf.left⟩
      else
        let payload := reader.readExact announcedLen lenBuf.left
        match payload.result with
        | .error err =>
            ⟨some (.error (.io err)), lenBuf.consumed ++ payload.consumed, payload.left⟩
        | .ok () =>
            ⟨decode payload.consumed, lenBuf.consumed ++ payload.consumed, payload.left⟩

def readFrame (decode : Bytes → Option (Except (FrameError κ) τ))
    (source : AsyncSource UInt8 κ) : FrameRead (AsyncSource UInt8 κ) κ τ :=
  readFrameWith AsyncSource.reader decode source

def readFrameBlocking (decode : Bytes → Option (Except (FrameError κ) τ))
    (source : BlockingSource UInt8 κ) : FrameRead (BlockingSource UInt8 κ) κ τ :=
  readFrameWith BlockingSource.reader decode source

/-- The outcome of a read and the number of bytes it takes, from the bytes of the stream and
the way it stops. -/
def frameOf (decode : Bytes → Option (Except (FrameError κ) τ)) (bytes : Bytes)
    (ending : Wire.Ending κ) : Option (Except (FrameError κ) τ) × Nat :=
  if bytes.length < lengthPrefixBytes then (some (.error (.io ending.error)), bytes.length)
  else
    let announcedLen := fromBeBytes (bytes.take lengthPrefixBytes)
    let rest := bytes.drop lengthPrefixBytes
    if announcedLen > maxFrameLen then
      (some (.error (.tooLarge announcedLen maxFrameLen)), lengthPrefixBytes)
    else if rest.length < announcedLen then (some (.error (.io ending.error)), bytes.length)
    else (decode (rest.take announcedLen), lengthPrefixBytes + announcedLen)

/-- A read depends on the bytes of its source and on how the source stops. -/
theorem readFrameWith_eq (reader : ExactReader σ UInt8 κ)
    (decode : Bytes → Option (Except (FrameError κ) τ)) (source : σ) :
    (readFrameWith reader decode source).outcome =
        (frameOf decode (reader.items source) (reader.ending source)).1 ∧
      (readFrameWith reader decode source).consumed = (reader.items source).take
        (frameOf decode (reader.items source) (reader.ending source)).2 ∧
      reader.items (readFrameWith reader decode source).left = (reader.items source).drop
        (frameOf decode (reader.items source) (reader.ending source)).2 := by
  have hannouncing := reader.exact lengthPrefixBytes source
  unfold readFrameWith frameOf
  by_cases hshort : (reader.items source).length < lengthPrefixBytes
  · -- The stream stops inside the prefix, and the read has taken all of it.
    have hresult := hannouncing.result_eq.trans (if_neg (Nat.not_le.mpr hshort))
    have htake := List.take_of_length_le (Nat.le_of_lt hshort)
    have hdrop := List.drop_of_length_le (Nat.le_of_lt hshort)
    simp only [hresult, if_pos hshort, hannouncing.consumed_eq, hannouncing.items_left, htake,
      hdrop, List.take_length, List.drop_length, and_self]
  · have hresult := hannouncing.result_eq.trans (if_pos (Nat.le_of_not_lt hshort))
    simp only [hresult, if_neg hshort, hannouncing.consumed_eq]
    generalize hlen : fromBeBytes ((reader.items source).take lengthPrefixBytes) = announcedLen
    by_cases hlarge : announcedLen > maxFrameLen
    · simp only [if_pos hlarge, hannouncing.items_left, and_self]
    · have hpayload := reader.exact announcedLen
        (reader.readExact lengthPrefixBytes source).left
      rw [hannouncing.items_left, hannouncing.ending_left] at hpayload
      have hconsumed := hpayload.consumed_eq
      have hsplit := List.take_add (l := reader.items source) (i := lengthPrefixBytes)
        (j := announcedLen)
      have hrest := List.drop_drop (l := reader.items source) (i := announcedLen)
        (j := lengthPrefixBytes)
      simp only [if_neg hlarge, hconsumed]
      by_cases hmissing : ((reader.items source).drop lengthPrefixBytes).length < announcedLen
      · have hstopped := hpayload.result_eq.trans (if_neg (Nat.not_le.mpr hmissing))
        have hall : (reader.items source).length ≤ lengthPrefixBytes + announcedLen := by
          rw [List.length_drop] at hmissing
          omega
        simp only [hstopped, if_pos hmissing, hpayload.items_left, ← hsplit, hrest,
          List.take_of_length_le hall, List.drop_of_length_le hall, List.take_length,
          List.drop_length, and_self]
      · have hdone := hpayload.result_eq.trans (if_pos (Nat.le_of_not_lt hmissing))
        simp only [hdone, if_neg hmissing, hpayload.items_left, ← hsplit, hrest, and_self]

/-- The outcome is `TooLarge` exactly for an announced length beyond the limit. -/
theorem frameOf_tooLarge_iff {decode : Bytes → Option (Except (FrameError κ) τ)}
    (hdecode : ∀ payload, payload.length ≤ maxFrameLen →
      ∀ len max, decode payload ≠ some (.error (.tooLarge len max)))
    (bytes : Bytes) (ending : Wire.Ending κ) :
    (∃ len max, (frameOf decode bytes ending).1 = some (.error (.tooLarge len max))) ↔
      lengthPrefixBytes ≤ bytes.length ∧
        maxFrameLen < fromBeBytes (bytes.take lengthPrefixBytes) := by
  unfold frameOf
  by_cases hshort : bytes.length < lengthPrefixBytes
  · simp only [if_pos hshort]
    constructor
    · rintro ⟨len, max, heq⟩
      cases heq
    · intro hlong
      omega
  · simp only [if_neg hshort]
    by_cases hlarge : fromBeBytes (bytes.take lengthPrefixBytes) > maxFrameLen
    · simp only [if_pos hlarge]
      exact ⟨fun _ => ⟨Nat.le_of_not_lt hshort, hlarge⟩, fun _ => ⟨_, _, rfl⟩⟩
    · simp only [if_neg hlarge]
      constructor
      · rintro ⟨len, max, heq⟩
        split at heq
        next => cases heq
        next hrest =>
          refine absurd heq (hdecode _ ?_ len max)
          rw [List.length_take]
          omega
      · intro hlong
        exact absurd hlong.2 hlarge

/-- Behind a length that is too large nothing is taken. -/
theorem frameOf_tooLarge_taken {decode : Bytes → Option (Except (FrameError κ) τ)} {bytes : Bytes}
    {ending : Wire.Ending κ} (hannouncing : lengthPrefixBytes ≤ bytes.length)
    (hlarge : maxFrameLen < fromBeBytes (bytes.take lengthPrefixBytes)) :
    (frameOf decode bytes ending).2 = lengthPrefixBytes := by
  unfold frameOf
  simp only [if_neg (Nat.not_lt.mpr hannouncing), if_pos hlarge]

theorem length_toBeBytes (n : Nat) : (toBeBytes n).length = lengthPrefixBytes := rfl

theorem fromBeBytes_toBeBytes {n : Nat} (hn : n < 2 ^ 32) : fromBeBytes (toBeBytes n) = n := by
  simp only [fromBeBytes, toBeBytes, List.foldl_cons, List.foldl_nil, UInt8.toNat_ofNat']
  omega

theorem take_frame (payload tail : Bytes) :
    (toBeBytes payload.length ++ payload ++ tail).take lengthPrefixBytes =
      toBeBytes payload.length := by
  rw [List.append_assoc]
  exact List.take_left' (length_toBeBytes _)

theorem lengthPrefixBytes_le_length_frame (payload tail : Bytes) :
    lengthPrefixBytes ≤ (toBeBytes payload.length ++ payload ++ tail).length := by
  simp only [List.length_append, length_toBeBytes]
  omega

/-- A frame is read back to its payload, whatever follows it. -/
theorem frameOf_frame (decode : Bytes → Option (Except (FrameError κ) τ)) {payload : Bytes}
    (hlen : payload.length ≤ maxFrameLen) (tail : Bytes) (ending : Wire.Ending κ) :
    frameOf decode (toBeBytes payload.length ++ payload ++ tail) ending =
      (decode payload, (toBeBytes payload.length ++ payload).length) := by
  have hu32 : payload.length < 2 ^ 32 := by
    unfold maxFrameLen at hlen
    omega
  have hdrop : (toBeBytes payload.length ++ payload ++ tail).drop lengthPrefixBytes =
      payload ++ tail := by
    rw [List.append_assoc]
    exact List.drop_left' (length_toBeBytes _)
  have hlong := Nat.not_lt.mpr (lengthPrefixBytes_le_length_frame payload tail)
  have hrest : ¬ (payload ++ tail).length < payload.length := by
    rw [List.length_append]
    omega
  unfold frameOf
  simp only [if_neg hlong, take_frame, hdrop, fromBeBytes_toBeBytes hu32,
    if_neg (Nat.not_lt.mpr hlen), if_neg hrest, List.take_left]
  rw [List.length_append, length_toBeBytes]

end Read

/-! ## Messages -/

inductive Message where
  | request (request : Request)
  | response (response : Response)
  deriving DecidableEq

/-- The type that a caller reads. -/
inductive MessageKind where
  | request
  | response

def Message.kind : Message → MessageKind
  | .request _ => .request
  | .response _ => .response

structure Codec where
  request : Ciborium Request
  response : Ciborium ResponseShape

structure Codec.RoundTrips (codec : Codec) : Prop where
  request : codec.request.RoundTrips
  response : codec.response.RoundTrips

namespace Codec

variable {κ : Type} (codec : Codec)

/-- The CBOR encoding of a message. -/
def payload : Message → Except String Bytes
  | .request request => codec.request.intoWriter (requestSerde.serialize request)
  | .response response => codec.response.intoWriter (responseSerde.serialize response)

def encode : Message → Except (FrameError κ) Bytes
  | .request request => encodeFrame codec.request requestSerde request
  | .response response => encodeFrame codec.response responseSerde response

def decode (kind : MessageKind) (bytes : Bytes) : Option (Except (FrameError κ) Message) :=
  match kind with
  | .request => (decodeFrame codec.request requestSerde bytes).map (Except.map .request)
  | .response => (decodeFrame codec.response responseSerde bytes).map (Except.map .response)

end Codec

/-- The times that the platform's `SystemTime` can hold. -/
def SystemTime.Fits (time : SystemTime) : Prop := time < 2 ^ 63 * nanosPerSecond

def Message.Fits : Message → Prop
  | .response (.status _ startedAt) => SystemTime.Fits startedAt
  | _ => True

/-- The message with its time cut to whole seconds since the epoch. -/
def Message.inWholeSeconds : Message → Message
  | .response (.status peers startedAt) =>
      .response (.status peers (EpochSeconds.serialize startedAt * nanosPerSecond))
  | message => message

section Messages

variable {κ : Type} {codec : Codec} {message : Message} {payload : Bytes}

theorem encodeFrame_of_intoWriter {τ ω : Type} {cbor : Ciborium ω} {serde : Serde τ ω} {value : τ}
    (hpayload : cbor.intoWriter (serde.serialize value) = .ok payload)
    (hlen : payload.length ≤ maxFrameLen) :
    encodeFrame (κ := κ) cbor serde value = .ok (toBeBytes payload.length ++ payload) := by
  have hu32 : ¬ payload.length > u32Max := by
    unfold maxFrameLen at hlen
    unfold u32Max
    omega
  unfold encodeFrame
  simp only [hpayload, if_neg (Nat.not_lt.mpr hlen), if_neg hu32]

theorem decodeFrame_of_fromReader {τ ω : Type} {cbor : Ciborium ω} {serde : Serde τ ω} {shape : ω}
    (hshape : cbor.fromReader payload = .ok shape) (hlen : payload.length ≤ maxFrameLen) :
    decodeFrame (κ := κ) cbor serde payload = (serde.deserialize shape).map .ok := by
  unfold decodeFrame
  simp only [if_neg (Nat.not_lt.mpr hlen), hshape]

theorem decodeFrame_ne_tooLarge {τ ω : Type} {cbor : Ciborium ω} {serde : Serde τ ω}
    (hlen : payload.length ≤ maxFrameLen) (len max : Nat) :
    decodeFrame (κ := κ) cbor serde payload ≠ some (.error (.tooLarge len max)) := by
  unfold decodeFrame
  rw [if_neg (Nat.not_lt.mpr hlen)]
  intro heq
  split at heq
  next => cases heq
  next shape _ =>
    obtain ⟨value, -, hvalue⟩ := Option.map_eq_some_iff.mp heq
    cases hvalue

/-- Seconds of a time that fits are read back. -/
theorem deserialize_serialize {time : Int} (hfits : SystemTime.Fits time) :
    EpochSeconds.deserialize (EpochSeconds.serialize time) =
      some (EpochSeconds.serialize time * nanosPerSecond) := by
  have hsecs : EpochSeconds.serialize time < 2 ^ 63 := by
    have hbound : time < 2 ^ 63 * 1000000000 := hfits
    unfold EpochSeconds.serialize nanosPerSecond
    split
    next => exact Nat.two_pow_pos 63
    next => omega
  exact if_pos hsecs

theorem encode_of_payload (hpayload : codec.payload message = .ok payload)
    (hlen : payload.length ≤ maxFrameLen) :
    codec.encode (κ := κ) message = .ok (toBeBytes payload.length ++ payload) := by
  cases message with
  | request request => exact encodeFrame_of_intoWriter hpayload hlen
  | response response => exact encodeFrame_of_intoWriter hpayload hlen

theorem decode_of_payload (hround : codec.RoundTrips) (hfits : message.Fits)
    (hpayload : codec.payload message = .ok payload) (hlen : payload.length ≤ maxFrameLen) :
    codec.decode (κ := κ) message.kind payload = some (.ok message.inWholeSeconds) := by
  cases message with
  | request request =>
      have hread : decodeFrame (κ := κ) codec.request requestSerde payload = _ :=
        decodeFrame_of_fromReader (hround.request _ _ hpayload) hlen
      simp only [Codec.decode, Message.kind, hread]
      rfl
  | response response =>
      have hread : decodeFrame (κ := κ) codec.response responseSerde payload = _ :=
        decodeFrame_of_fromReader (hround.response _ _ hpayload) hlen
      simp only [Codec.decode, Message.kind, hread]
      cases response with
      | status peers startedAt =>
          simp only [responseSerde, deserialize_serialize hfits]
          rfl
      | _ => rfl

theorem decode_ne_tooLarge (kind : MessageKind) (hlen : payload.length ≤ maxFrameLen)
    (len max : Nat) : codec.decode (κ := κ) kind payload ≠ some (.error (.tooLarge len max)) := by
  intro heq
  cases kind with
  | request | response =>
      obtain ⟨result, hresult, hmap⟩ := Option.map_eq_some_iff.mp heq
      cases result with
      | error err =>
          cases hmap
          exact decodeFrame_ne_tooLarge hlen len max hresult
      | ok value => cases hmap

end Messages

/-! ## Successive reads -/

/-- Read messages of the given kinds one after the other; nothing when a read fails. -/
def readAll {σ κ : Type} (readOne : MessageKind → σ → FrameRead σ κ Message) :
    List MessageKind → σ → Option (List Message × σ)
  | [], source => some ([], source)
  | kind :: kinds, source =>
      match (readOne kind source).outcome with
      | some (.ok message) =>
          (readAll readOne kinds (readOne kind source).left).map
            fun (messages, left) => (message :: messages, left)
      | _ => none

/-- A message whose encoding fits into a frame. -/
structure Frameable (codec : Codec) (message : Message) : Prop where
  fits : message.Fits
  payload : ∃ payload, codec.payload message = .ok payload ∧ payload.length ≤ maxFrameLen

section Readers

variable {σ κ : Type} {codec : Codec}

/-- Any reader that takes exact numbers of bytes reads the frames of a list back and stops
before the tail. -/
theorem readAll_frames (hround : codec.RoundTrips) (reader : ExactReader σ UInt8 κ)
    {messages : List Message} {frames : List Bytes}
    (hmessages : ∀ message ∈ messages, Frameable codec message)
    (hframes : List.Forall₂ (fun message frame => codec.encode (κ := κ) message = .ok frame)
      messages frames)
    (tail : Bytes) (source : σ) (hsource : reader.items source = frames.flatten ++ tail) :
    ∃ left, readAll (fun kind => readFrameWith reader (codec.decode kind))
        (messages.map Message.kind) source =
          some (messages.map Message.inWholeSeconds, left) ∧
      reader.items left = tail := by
  induction hframes generalizing source with
  | nil => exact ⟨source, rfl, hsource⟩
  | @cons message frame messages frames hframe hframes ih =>
      obtain ⟨hmessage, hmessages⟩ := List.forall_mem_cons.mp hmessages
      obtain ⟨payload, hpayload, hlen⟩ := hmessage.payload
      obtain rfl := Except.ok.inj ((encode_of_payload hpayload hlen).symm.trans hframe)
      rw [List.flatten_cons, List.append_assoc] at hsource
      obtain ⟨houtcome, -, hleft⟩ :=
        readFrameWith_eq reader (codec.decode message.kind) source
      rw [hsource, frameOf_frame _ hlen] at houtcome hleft
      rw [List.drop_left] at hleft
      rw [decode_of_payload hround hmessage.fits hpayload hlen] at houtcome
      obtain ⟨left, hread, htail⟩ := ih hmessages _ hleft
      refine ⟨left, ?_, htail⟩
      simp only [List.map_cons, readAll, houtcome, hread, Option.map_some]

/-- The read is refused as too large exactly when the announced length is, and then the
prefix is all it took. -/
structure RefusesOversize (read : FrameRead σ κ Message) (bytes : Bytes) : Prop where
  outcome_iff : (∃ len max, read.outcome = some (.error (.tooLarge len max))) ↔
    lengthPrefixBytes ≤ bytes.length ∧ maxFrameLen < fromBeBytes (bytes.take lengthPrefixBytes)
  consumed : ∀ len max, read.outcome = some (.error (.tooLarge len max)) →
    read.consumed.length = lengthPrefixBytes

theorem readFrameWith_refusesOversize (reader : ExactReader σ UInt8 κ) (kind : MessageKind)
    (source : σ) :
    RefusesOversize (readFrameWith reader (codec.decode kind) source) (reader.items source) := by
  obtain ⟨houtcome, hconsumed, -⟩ := readFrameWith_eq reader (codec.decode kind) source
  have hdecode : ∀ payload : Bytes, payload.length ≤ maxFrameLen →
      ∀ len max, codec.decode (κ := κ) kind payload ≠ some (.error (.tooLarge len max)) :=
    fun _ hlen => decode_ne_tooLarge kind hlen
  have hiff := frameOf_tooLarge_iff hdecode (reader.items source) (reader.ending source)
  constructor
  · rw [houtcome]
    exact hiff
  · intro len max hlarge
    rw [houtcome] at hlarge
    obtain ⟨hannouncing, hannounced⟩ := hiff.mp ⟨len, max, hlarge⟩
    rw [hconsumed, frameOf_tooLarge_taken hannouncing hannounced]
    exact List.length_take_of_le hannouncing

/-- Two readers agree on streams with the same bytes and the same end. -/
theorem readFrameWith_agree {σ' τ : Type} (reader : ExactReader σ UInt8 κ)
    (reader' : ExactReader σ' UInt8 κ) (decode : Bytes → Option (Except (FrameError κ) τ))
    {source : σ} {source' : σ'} (hitems : reader.items source = reader'.items source')
    (hending : reader.ending source = reader'.ending source') :
    (readFrameWith reader decode source).outcome =
        (readFrameWith reader' decode source').outcome ∧
      (readFrameWith reader decode source).consumed.length =
        (readFrameWith reader' decode source').consumed.length := by
  obtain ⟨houtcome, hconsumed, -⟩ := readFrameWith_eq reader decode source
  obtain ⟨houtcome', hconsumed', -⟩ := readFrameWith_eq reader' decode source'
  rw [houtcome, houtcome', hconsumed, hconsumed', hitems, hending]
  exact ⟨rfl, rfl⟩

end Readers

theorem exists_frames {κ : Type} {codec : Codec} {messages : List Message}
    (hmessages : ∀ message ∈ messages, Frameable codec message) :
    ∃ frames, List.Forall₂ (fun message frame => codec.encode (κ := κ) message = .ok frame)
      messages frames := by
  induction messages with
  | nil => exact ⟨[], .nil⟩
  | cons message messages ih =>
      obtain ⟨hmessage, hmessages⟩ := List.forall_mem_cons.mp hmessages
      obtain ⟨payload, hpayload, hlen⟩ := hmessage.payload
      obtain ⟨frames, hframes⟩ := ih hmessages
      exact ⟨_, .cons (encode_of_payload hpayload hlen) hframes⟩

/-- The framing of the socket: lists of messages are read back from their frames up to the
tail that follows, by either reader and whatever the chunks; a length beyond the limit is
refused before the payload; and the two readers agree on every stream. -/
theorem rpc_framing_faithful {κ : Type} (codec : Codec) (hround : codec.RoundTrips) :
    (∀ messages, (∀ message ∈ messages, Frameable codec message) →
      ∃ frames : List Bytes,
        List.Forall₂ (fun message frame => codec.encode (κ := κ) message = .ok frame)
          messages frames ∧
        ∀ tail : Bytes,
          (∀ source : AsyncSource UInt8 κ, source.items = frames.flatten ++ tail →
            ∃ left, readAll (fun kind => readFrame (codec.decode kind))
                (messages.map Message.kind) source =
                  some (messages.map Message.inWholeSeconds, left) ∧ left.items = tail) ∧
          ∀ source : BlockingSource UInt8 κ, source.items = frames.flatten ++ tail →
            ∃ left, readAll (fun kind => readFrameBlocking (codec.decode kind))
                (messages.map Message.kind) source =
                  some (messages.map Message.inWholeSeconds, left) ∧ left.items = tail) ∧
      (∀ kind (source : AsyncSource UInt8 κ),
        RefusesOversize (readFrame (codec.decode kind) source) source.items) ∧
      (∀ kind (source : BlockingSource UInt8 κ),
        RefusesOversize (readFrameBlocking (codec.decode kind) source) source.items) ∧
      ∀ kind (source : AsyncSource UInt8 κ) (source' : BlockingSource UInt8 κ),
        source.items = source'.items → source.ending = source'.ending →
        (readFrame (codec.decode kind) source).outcome =
            (readFrameBlocking (codec.decode kind) source').outcome ∧
          (readFrame (codec.decode kind) source).consumed.length =
            (readFrameBlocking (codec.decode kind) source').consumed.length := by
  refine ⟨?_, ?_, ?_, ?_⟩
  · intro messages hmessages
    obtain ⟨frames, hframes⟩ := exists_frames hmessages
    refine ⟨frames, hframes, fun tail => ⟨?_, ?_⟩⟩
    · intro source hsource
      exact readAll_frames hround AsyncSource.reader hmessages hframes tail source hsource
    · intro source hsource
      exact readAll_frames hround BlockingSource.reader hmessages hframes tail source hsource
  · exact readFrameWith_refusesOversize AsyncSource.reader
  · exact readFrameWith_refusesOversize BlockingSource.reader
  · intro kind source source' hitems hending
    exact readFrameWith_agree AsyncSource.reader BlockingSource.reader _ hitems hending

/-! ## Three messages -/

/-- The CBOR library on the values of a table. -/
def tableCbor {ω : Type} [DecidableEq ω] (rows : List (ω × Bytes)) : Ciborium ω where
  intoWriter shape :=
    match rows.find? fun row => row.1 = shape with
    | some row => .ok row.2
    | none => .error "not in the table"
  fromReader payload :=
    match rows.find? fun row => row.2 = payload with
    | some row => .ok row.1
    | none => .error "not in the table"

theorem tableCbor_roundTrips {ω : Type} [DecidableEq ω] {rows : List (ω × Bytes)}
    (hrows : (rows.map Prod.snd).Nodup) : (tableCbor rows).RoundTrips := by
  intro shape payload hwritten
  simp only [tableCbor] at hwritten ⊢
  split at hwritten
  next row hrow =>
    cases hwritten
    have hshape : row.1 = shape := by simpa using List.find?_some hrow
    subst hshape
    have hmem := List.mem_of_find?_eq_some hrow
    have hfound : (rows.find? fun other => other.2 = row.2).isSome = true :=
      List.find?_isSome.mpr ⟨row, hmem, decide_eq_true rfl⟩
    obtain ⟨other, hother⟩ := Option.isSome_iff_exists.mp hfound
    have hsame : other.2 = row.2 := by simpa using List.find?_some hother
    have heq := List.inj_on_of_nodup_map hrows (List.mem_of_find?_eq_some hother) hmem hsame
    rw [hother, heq]
  next => cases hwritten

/-- `{"kind": "reload"}` and `{"kind": "status"}` as a request, and the status of a daemon
without peers that was started in the second after the epoch. -/
def sampleCodec : Codec where
  request := tableCbor
    [(.reload, [0xa1, 0x64, 0x6b, 0x69, 0x6e, 0x64, 0x66, 0x72, 0x65, 0x6c, 0x6f, 0x61, 0x64]),
      (.status, [0xa1, 0x64, 0x6b, 0x69, 0x6e, 0x64, 0x66, 0x73, 0x74, 0x61, 0x74, 0x75, 0x73])]
  response := tableCbor
    [(.status [] 1, [0xa3, 0x64, 0x6b, 0x69, 0x6e, 0x64, 0x66, 0x73, 0x74, 0x61, 0x74, 0x75, 0x73,
      0x65, 0x70, 0x65, 0x65, 0x72, 0x73, 0x80, 0x6a, 0x73, 0x74, 0x61, 0x72, 0x74, 0x65, 0x64,
      0x5f, 0x61, 0x74, 0x01])]

theorem sampleCodec_roundTrips : sampleCodec.RoundTrips :=
  ⟨tableCbor_roundTrips (by decide), tableCbor_roundTrips (by decide)⟩

def sampleMessages : List Message :=
  [.request .reload, .response (.status [] 1500000000), .request .status]

theorem rpc_framing_faithful_sample :
    ∃ frames : List Bytes,
      List.Forall₂ (fun message frame => sampleCodec.encode (κ := Unit) message = .ok frame)
        sampleMessages frames ∧
      ∀ (tail : Bytes) (source : BlockingSource UInt8 Unit),
        source.items = frames.flatten ++ tail →
        ∃ left, readAll (fun kind => readFrameBlocking (sampleCodec.decode kind))
            [.request, .response, .request] source =
              some ([.request .reload, .response (.status [] 1000000000), .request .status],
                left) ∧ left.items = tail := by
  have hmessages : ∀ message ∈ sampleMessages, Frameable sampleCodec message := by
    simp only [sampleMessages, List.forall_mem_cons]
    refine ⟨⟨trivial, _, rfl, by decide⟩, ⟨?_, _, rfl, by decide⟩, ⟨trivial, _, rfl, by decide⟩,
      fun _ hmem => absurd hmem List.not_mem_nil⟩
    change (1500000000 : Int) < 2 ^ 63 * 1000000000
    omega
  obtain ⟨frames, hframes, hread⟩ :=
    (rpc_framing_faithful sampleCodec sampleCodec_roundTrips).1 sampleMessages hmessages
  exact ⟨frames, hframes, fun tail => (hread tail).2⟩

end Syauth.Presenced
