import Syauth.Pam.RoundTrip

/-! # Probing the daemon

`probe_daemon` of `crates/syauth-cli/src/status.rs`, which `syauth status` calls, and what the
two clients of the socket make of every payload that may be sent to them.
-/

namespace Syauth.Cli

open Presenced Pam

inductive ConnectErrorKind where
  | notFound
  | connectionRefused
  | permissionDenied
  | timedOut
  | other (debug : String)

def connectErrorReason : ConnectErrorKind → String
  | .notFound => "socket-missing"
  | .connectionRefused => "connect-refused"
  | .permissionDenied => "permission-denied"
  | .timedOut => "timeout"
  | .other debug => "connect-error: " ++ debug

inductive DaemonProbeState where
  | up (startedAt : SystemTime) (peers : List PeerStatus)
  | down (reason : String)
  deriving DecidableEq

/-- What the path of the socket leads to. -/
structure DaemonSocket (κ : Type) where
  present : Bool
  connect : Except ConnectErrorKind (ClientStream κ)

/-- The texts of the errors of a socket. -/
structure SocketTexts (κ : Type) where
  kind : κ → String
  error : Wire.ReadError κ → String

section Model

variable {γ κ : Type} (reader : ResponseReader γ) (cbor : Ciborium Request)
variable (texts : SocketTexts κ)

def frameErrorText : Presenced.FrameError κ → String
  | .io err => "frame I/O failed: " ++ texts.error err
  | .decode text => "CBOR decode failed: " ++ text
  | .encode text => "CBOR encode failed: " ++ text
  | .tooLarge len max =>
      "frame too large: " ++ toString len ++ " bytes > " ++ toString max ++ " bytes max"

/-- Nothing when reading the response panics. -/
def probeDaemon (socket : DaemonSocket κ) : Option DaemonProbeState :=
  if socket.present = false then some (.down "socket-missing")
  else
    match socket.connect with
    | .error err => some (.down (connectErrorReason err))
    | .ok stream =>
        match stream.setReadTimeout with
        | .error err => some (.down ("read-timeout-setup-failed: " ++ texts.kind err))
        | .ok () =>
            match stream.setWriteTimeout with
            | .error err => some (.down ("write-timeout-setup-failed: " ++ texts.kind err))
            | .ok () =>
                match stream.writeFrameBlocking cbor .status with
                | .error err => some (.down ("frame-error: " ++ frameErrorText texts err))
                | .ok () =>
                    match stream.readResponse reader with
                    | none => none
                    | some (.ok (.status peers startedAt)) => some (.up startedAt peers)
                    | some (.ok _) => some (.down "unexpected-response")
                    | some (.error err) =>
                        some (.down ("frame-error: " ++ frameErrorText texts err))

/-- The payload crashes no client: it is decoded or refused, `syauth status` shows the daemon as
down unless it is a status, and a login falls through unless it is a challenge. -/
structure Tolerated (payload : Bytes) : Prop where
  decoded : (reader.decodeResponse (κ := κ) payload).isSome
  probed : ∀ socket : DaemonSocket κ,
    (∀ stream, socket.connect = .ok stream → stream.Carries payload) →
    ∃ state, probeDaemon reader cbor texts socket = some state ∧
      ((∃ reason, state = .down reason) ∨ ∃ peers startedAt, state = .up startedAt peers ∧
        reader.decodeResponse (κ := κ) payload = some (.ok (.status peers startedAt)))
  authenticated : ∀ prim read random, ∀ socket : DaemonSocket κ,
    (∀ stream, socket.connect = .ok stream → stream.Carries payload) →
    ∃ outcome, authenticateInner prim read random (daemonRoundTrip reader cbor socket.connect) =
        some outcome ∧
      ((∃ reason peerId, outcome = .authInfoUnavail reason peerId) ∨
        ∃ ok signature reason, reader.decodeResponse (κ := κ) payload =
          some (.ok (.challenge ok signature reason)))

end Model

section Probe

variable {γ κ : Type} {reader : ResponseReader γ} {cbor : Ciborium Request}
variable {texts : SocketTexts κ} {socket : DaemonSocket κ} {payload : Bytes}

theorem probeDaemon_of_decoded (cbor : Ciborium Request) (texts : SocketTexts κ)
    {result : Except (Presenced.FrameError κ) Response}
    (hcarries : ∀ stream, socket.connect = .ok stream → stream.Carries payload)
    (hdecoded : reader.decodeResponse payload = some result) :
    ∃ state, probeDaemon reader cbor texts socket = some state ∧
      ((∃ reason, state = .down reason) ∨ ∃ peers startedAt, state = .up startedAt peers ∧
        result = .ok (.status peers startedAt)) := by
  unfold probeDaemon
  split
  next => exact ⟨_, rfl, .inl ⟨_, rfl⟩⟩
  next =>
    split
    next => exact ⟨_, rfl, .inl ⟨_, rfl⟩⟩
    next stream hconnect =>
      rw [ClientStream.readResponse_of_carries (hcarries stream hconnect), hdecoded]
      -- Every error before the response is read is a reason to be down.
      repeat' split
      all_goals try exact ⟨_, rfl, .inl ⟨_, rfl⟩⟩
      · next h => cases h
      · next peers startedAt h =>
          cases h
          exact ⟨_, rfl, .inr ⟨peers, startedAt, rfl, rfl⟩⟩

/-- The probe panics on such a response, once the request is sent. -/
theorem probeDaemon_of_startsOutOfRange {stream : ClientStream κ}
    (hpresent : socket.present = true) (hconnect : socket.connect = .ok stream)
    (hread : stream.setReadTimeout = .ok ()) (hwrite : stream.setWriteTimeout = .ok ())
    (hsent : stream.writeFrameBlocking cbor .status = .ok ())
    (hcarries : stream.Carries payload) (hrange : reader.StartsOutOfRange payload) :
    probeDaemon reader cbor texts socket = none := by
  have hpanic := ClientStream.readResponse_eq_none hcarries hrange
  simp only [probeDaemon, hpresent, hconnect, hread, hwrite, hsent, hpanic, Bool.true_eq_false,
    if_false]

/-- A payload crashes no client exactly when it is not a status that starts out of range. -/
theorem tolerated_iff (reader : ResponseReader γ) (cbor : Ciborium Request)
    (texts : SocketTexts κ) (payload : Bytes) :
    Tolerated reader cbor texts payload ↔ ¬ reader.StartsOutOfRange payload := by
  rw [← ResponseReader.decodeResponse_eq_none_iff (κ := κ)]
  constructor
  · intro htolerated hpanic
    have hsome := htolerated.decoded
    rw [hpanic] at hsome
    cases hsome
  · intro hreturns
    obtain ⟨result, hdecoded⟩ := Option.ne_none_iff_exists'.mp hreturns
    refine ⟨?_, ?_, ?_⟩
    · rw [hdecoded]
      rfl
    · intro socket hcarries
      obtain ⟨state, hstate, hdown | ⟨peers, startedAt, hup, hresult⟩⟩ :=
        probeDaemon_of_decoded cbor texts hcarries hdecoded
      · exact ⟨state, hstate, .inl hdown⟩
      · subst hresult
        exact ⟨state, hstate, .inr ⟨peers, startedAt, hup, hdecoded⟩⟩
    · intro prim read random socket hcarries
      obtain ⟨outcome, houtcome, hfalls | ⟨ok, signature, reason, hresult⟩⟩ :=
        authenticateInner_of_decoded cbor prim read random hcarries hdecoded
      · exact ⟨outcome, houtcome, .inl hfalls⟩
      · subst hresult
        exact ⟨outcome, houtcome, .inr ⟨ok, signature, reason, hdecoded⟩⟩

end Probe

/-! ## A status from the year 292277026596 -/

inductive WireValue where
  | text (content : String)
  | noPeers
  | uint (value : UInt64)

/-- The map of `kind`, `peers` and `started_at` in CBOR, with the first second that is out of
range. -/
def farStatus : Bytes :=
  [0xa3, 0x64, 0x6b, 0x69, 0x6e, 0x64, 0x66, 0x73, 0x74, 0x61, 0x74, 0x75, 0x73,
    0x65, 0x70, 0x65, 0x65, 0x72, 0x73, 0x80,
    0x6a, 0x73, 0x74, 0x61, 0x72, 0x74, 0x65, 0x64, 0x5f, 0x61, 0x74,
    0x1b, 0x80, 0x00, 0x00, 0x00, 0x00, 0x00, 0x00, 0x00]

def wireReader : ResponseReader WireValue where
  fromReader payload :=
    if payload = farStatus then
      .ok (.status, .map [(.text "peers", .noPeers),
        (.text "started_at", .uint 0x8000000000000000)])
    else .error "Syntax(0)"
  challenge _ := .error "Semantic(None, \"missing field `ok`\")"
  reload _ := .error "Semantic(None, \"missing field `ok`\")"
  field
    | .text content =>
        .ok (if content = "peers" then .peers
          else if content = "started_at" then .startedAt else .ignored)
    | _ => .error "Semantic(None, \"invalid type\")"
  peers
    | .noPeers => .ok []
    | _ => .error "Semantic(None, \"invalid type\")"
  seconds
    | .uint value => .ok value
    | _ => .error "Semantic(None, \"invalid type\")"
  text _ := "Semantic(None, \"invalid status\")"

def wireRequests : Ciborium Request where
  intoWriter
    | .status => .ok [0xa1, 0x64, 0x6b, 0x69, 0x6e, 0x64, 0x66, 0x73, 0x74, 0x61, 0x74, 0x75, 0x73]
    | _ => .error ""
  fromReader _ := .error ""

def farDaemon : DaemonSocket Unit where
  present := true
  connect := .ok
    { setReadTimeout := .ok ()
      setWriteTimeout := .ok ()
      writeAll := fun _ => .ok ()
      flush := .ok ()
      answer := ⟨[.data ⟨0x00, [0x00, 0x00, 0x28] ++ farStatus⟩], .eof⟩ }

def unitTexts : SocketTexts Unit := ⟨fun _ => "timed out", fun _ => "timed out"⟩

/-- The seconds `2 ^ 63` of a well-formed status end `syauth status` in a panic. -/
theorem not_tolerated_farStatus :
    ¬ Tolerated wireReader wireRequests unitTexts farStatus ∧
      probeDaemon wireReader wireRequests unitTexts farDaemon = none := by
  have hrange : wireReader.StartsOutOfRange farStatus := by
    apply (ResponseReader.decodeResponse_eq_none_iff (κ := Unit)).mp
    rfl
  constructor
  · intro htolerated
    have hsome := htolerated.decoded
    rw [ResponseReader.decodeResponse_eq_none_iff.mpr hrange] at hsome
    cases hsome
  · refine probeDaemon_of_startsOutOfRange rfl rfl rfl rfl rfl ⟨by decide, [], ?_⟩ hrange
    rfl

end Syauth.Cli
