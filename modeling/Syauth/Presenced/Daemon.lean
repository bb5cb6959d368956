import Syauth.Presenced.Reload
import Syauth.Presenced.Rpc
import Syauth.Transition.System
import Mathlib.Data.Finset.Image

/-! # The daemon as a transition system

Connections of `server.rs` run `issue_challenge` of `orchestrator.rs` on
concurrent tasks, and one more task runs the rotation and reload loop.  A step
is what a task does between two points at which another task may run: it reads
or writes at most one of the shared cells (peer map, semaphore, nonce cache,
liveness, audit log, reload queue).  Results of the peripheral, of the random
number generator, of file operations and of the clock are part of the labels,
so that a run is any interleaving of the tasks against any environment.
-/

namespace Syauth.Presenced

open Transport

/-! ## Audit records and rotation -/

def zeroNonceHex : String := "00000000000000000000000000000000"

structure AuditRecord where
  peerId : String
  nonceHex : String
  tStartMs : Nat
  tEndMs : Nat
  outcome : String
  reason : String
  deriving DecidableEq

/-- The record `audit_at` builds: the outcome column repeats the reason. -/
def AuditRecord.at (peerId nonceHex : String) (tStartMs tEndMs : Nat) (reason : String) :
    AuditRecord :=
  ⟨peerId, nonceHex, tStartMs, tEndMs, reason, reason⟩

def secondsPerMinute : Int := 60

/-- Whole minutes since the epoch, saturating at the largest `i64`. -/
def minuteIndex (now : SystemTime) : Int :=
  if now < 0 then 0 else min (now / 1000000000 / secondsPerMinute) (2 ^ 63 - 1)

variable (prim : Primitives)

/-- The identifiers advertised for a minute: one for each live peer and the pair-mode one. -/
def buildUuidUnion (live : Live) (minute : Int) : Finset Uuid :=
  insert (sessionUuidFor prim (Octets.zero bondKeyBytes) minute)
    (live.peers.entries.map fun entry => sessionUuidFor prim entry.2.bondKey minute).toFinset

/-- Milliseconds since an earlier time, saturating at the largest `u64`. -/
def msSince (now : SystemTime) (before : Option SystemTime) : Option Nat :=
  before.bind fun t =>
    if now < t then none else some (min ((now - t) / 1000000).toNat (2 ^ 64 - 1))

/-- The status rows, in the key order of the peer map. -/
def peersSnapshot (live : Live) (now : SystemTime) : List PeerStatus :=
  (live.peers.entries.mergeSort fun a b => a.1 ≤ b.1).map fun entry =>
    let cell := live.cells entry.2.cell
    { peerId := entry.1
      lastChallengeMsAgo := msSince now cell.liveness.lastChallengeAt
      lastConnectMsAgo := msSince now cell.liveness.lastConnectAt
      currentSessionUuid := sessionUuidFor prim entry.2.bondKey (minuteIndex now)
      inFlightChallenges := if cell.slotHolder.isSome then 1 else 0 }

/-! ## State -/

/-- The locals of `run_challenge` once the frame is built. -/
structure Transaction where
  tStartMs : Nat
  peer : PeerState
  nonce : Nonce
  challenge : Frame
  encoded : Bytes
  deriving DecidableEq

/-- A decided outcome on its way to the caller, with the permit still held. -/
structure Ending where
  permit : Option CellId
  notified : Bool
  outcome : ChallengeOutcome
  deriving DecidableEq

/-- Where a connection's task stands. -/
inductive Phase where
  | decoded
  | looking (tStartMs : Nat)
  | acquiring (tStartMs : Nat) (peer : PeerState)
  | stamping (tStartMs : Nat) (peer : PeerState)
  | drawing (tStartMs : Nat) (peer : PeerState)
  | notifying (tx : Transaction)
  | waiting (tx : Transaction)
  | checking (tx : Transaction) (signature : Signature)
  | auditing (record : AuditRecord) (ending : Ending)
  | returning (ending : Ending)
  | answered (response : Response)
  deriving DecidableEq

structure Connection where
  request : Request
  phase : Phase
  deriving DecidableEq

inductive ReloadTrigger where
  | sighup
  | rpc
  | inotify
  | pair
  deriving DecidableEq

def reloadChannelCapacity : Nat := 16

/-- The locals of a reload that is under way. -/
structure ReloadTask where
  trigger : ReloadTrigger
  store : BondStore
  newSet : KeySet
  toRemove : List String
  toAdd : List String

structure State where
  live : Live
  connections : CallId → Option Connection
  auditLog : Option (List AuditRecord)
  reloadQueue : List ReloadTrigger
  reload : Option ReloadTask
  advertised : Option (Finset Uuid)
  orchestrated : Bool
  startedAt : SystemTime

/-- The daemon after start-up, with its seed peers and with or without an orchestrator. -/
def State.init (seed : List (Bond × BondKey)) (audited orchestrated : Bool)
    (startedAt : SystemTime) : State where
  live := Live.withPeers seed
  connections := fun _ => none
  auditLog := if audited then some [] else none
  reloadQueue := []
  reload := none
  advertised := none
  orchestrated := orchestrated
  startedAt := startedAt

def State.advance (s : State) (c : CallId) (conn : Connection) (phase : Phase) : State :=
  { s with connections := Function.update s.connections c (some { conn with phase }) }

def State.updateCell (s : State) (cell : CellId) (f : PeerCell → PeerCell) : State :=
  { s with live := s.live.updateCell cell f }

/-! ## Steps of a connection -/

inductive CallEvent where
  | dispatch (now : SystemTime)
  | lookup
  | acquire
  | busy (now : SystemTime)
  | stamp (now : SystemTime)
  | draw (random : Except String Nonce) (now : SystemTime)
  | notified (result : Except PeripheralError Unit) (now : SystemTime)
  | responded (result : Except PeripheralError Bytes) (now : SystemTime)
  | check (now : SystemTime)
  | audit (written : Bool)
  | finish

/-- `dispatch`: a challenge enters `issue_challenge`, everything else is answered at once. -/
def dispatchStep (s : State) (c : CallId) (conn : Connection) (now : SystemTime) : Option State :=
  match conn.request with
  | .challenge _ _ =>
      if s.orchestrated then some (s.advance c conn (.looking (epochMillis now)))
      else some (s.advance c conn (.answered .stub))
  | .reload =>
      if s.orchestrated then
        -- The bounded channel makes the sender wait while it is full.
        if s.reloadQueue.length < reloadChannelCapacity then
          some ({ s with reloadQueue := s.reloadQueue ++ [ReloadTrigger.rpc] }.advance c conn
            (.answered (.reload true)))
        else none
      else some (s.advance c conn (.answered (.reload false)))
  | .status =>
      let rows := if s.orchestrated then peersSnapshot prim s.live now else []
      some (s.advance c conn (.answered (.status rows s.startedAt)))

/-- What follows the draw of a nonce: build the frame and hand it to the peripheral. -/
def drawPhase (peerId : String) (tStartMs : Nat) (peer : PeerState)
    (random : Except String Nonce) (now : SystemTime) : Phase :=
  match random with
  | .error err =>
      .auditing (.at peerId zeroNonceHex tStartMs (epochMillis now)
          ChallengeOutcome.reasonTransportError)
        ⟨some peer.cell, false, .transportError (.backend ("nonce rng: " ++ err))⟩
  | .ok nonce =>
      match buildChallenge prim peer.bondKey nonce with
      | .error reason =>
          .auditing (.at peerId (hexLowercase nonce.val) tStartMs (epochMillis now)
              ChallengeOutcome.reasonTransportError)
            ⟨some peer.cell, false, .transportError (.backend reason)⟩
      | .ok (challenge, encoded) => .notifying ⟨tStartMs, peer, nonce, challenge, encoded⟩

/-- Audit a reason after the frame was handed to the peripheral, and return an outcome.  As in
the source, the two are given separately. -/
def Transaction.conclude (tx : Transaction) (peerId : String) (now : SystemTime)
    (reason : String) (outcome : ChallengeOutcome) : Phase :=
  .auditing (.at peerId (hexLowercase tx.nonce.val) tx.tStartMs (epochMillis now) reason)
    ⟨some tx.peer.cell, true, outcome⟩

def notifiedPhase (peerId : String) (tx : Transaction) (result : Except PeripheralError Unit)
    (now : SystemTime) : Phase :=
  match result with
  | .ok () => .waiting tx
  | .error err =>
      tx.conclude peerId now (challengeOutcomeForTransport err).reasonStr
        (challengeOutcomeForTransport err)

/-- The response is parsed and verified without giving up control. -/
def respondedPhase (peerId : String) (tx : Transaction) (result : Except PeripheralError Bytes)
    (now : SystemTime) : Phase :=
  match result with
  | .error (.responseTimeout _ _) =>
      tx.conclude peerId now ChallengeOutcome.reasonResponseTimeout .timedOut
  | .error err =>
      tx.conclude peerId now (challengeOutcomeForTransport err).reasonStr
        (challengeOutcomeForTransport err)
  | .ok response =>
      match checkResponse prim tx.peer.phonePubkey tx.challenge response with
      | .error outcome => tx.conclude peerId now ChallengeOutcome.reasonBadSignature outcome
      | .ok signature => .checking tx signature

/-- One step of `issue_challenge` for a peer. -/
def challengeStep (s : State) (c : CallId) (conn : Connection) (peerId : String) :
    Phase → CallEvent → Option State
  | .looking tStartMs, .lookup =>
      match lookupPeer s.live peerId with
      | some peer => some (s.advance c conn (.acquiring tStartMs peer))
      | none =>
          some (s.advance c conn (.auditing
            (.at peerId zeroNonceHex tStartMs tStartMs ChallengeOutcome.reasonUnknownPeer)
            ⟨none, false, .unknownPeer⟩))
  | .acquiring tStartMs peer, .acquire =>
      match (s.live.cells peer.cell).slotHolder with
      | some _ => none
      | none =>
          some ((s.updateCell peer.cell fun cell => { cell with slotHolder := some c }).advance
            c conn (.stamping tStartMs peer))
  | .acquiring tStartMs _, .busy now =>
      some (s.advance c conn (.auditing
        (.at peerId zeroNonceHex tStartMs (epochMillis now) ChallengeOutcome.reasonBusy)
        ⟨none, false, .busy⟩))
  | .stamping tStartMs peer, .stamp now =>
      some ((s.updateCell peer.cell fun cell =>
        { cell with liveness := ⟨some now, some now⟩ }).advance c conn (.drawing tStartMs peer))
  | .drawing tStartMs peer, .draw random now =>
      some (s.advance c conn (drawPhase prim peerId tStartMs peer random now))
  | .notifying tx, .notified result now =>
      some (s.advance c conn (notifiedPhase peerId tx result now))
  | .waiting tx, .responded result now =>
      some (s.advance c conn (respondedPhase prim peerId tx result now))
  | .checking tx signature, .check now =>
      if (s.live.cells tx.peer.cell).nonceCache.contains tx.nonce then
        some (s.advance c conn (tx.conclude peerId now ChallengeOutcome.reasonReplay .replay))
      else
        some ((s.updateCell tx.peer.cell fun cell =>
          { cell with nonceCache := cell.nonceCache.insert tx.nonce }).advance c conn
            (tx.conclude peerId now ChallengeOutcome.reasonOk (.ok signature)))
  | .auditing record ending, .audit written =>
      let auditLog := if written then s.auditLog.map (· ++ [record]) else s.auditLog
      some ({ s with auditLog }.advance c conn (.returning ending))
  | .returning ending, .finish =>
      let answered := s.advance c conn (.answered (.ofOutcome ending.outcome))
      match ending.permit with
      | some cell => some (answered.updateCell cell fun cell => { cell with slotHolder := none })
      | none => some answered
  | _, _ => none

def callStep (s : State) (c : CallId) (conn : Connection) (event : CallEvent) : Option State :=
  match conn.phase, event with
  | .decoded, .dispatch now => dispatchStep prim s c conn now
  | phase, event =>
      match conn.request with
      | .challenge peerId _ => challengeStep prim s c conn peerId phase event
      | _ => none

/-! ## Steps of the reload loop -/

inductive LoopEvent where
  | signal (trigger : ReloadTrigger)
  | reloadBegin (read : BondFileRead) (keysDir : KeysDir) (order : IterOrder)
  | removed (result : Except PeripheralError Unit)
  | added (result : Except PeripheralError Unit)
  | reloadEnd (now : SystemTime) (result : Except PeripheralError Unit)
  | tick (now : SystemTime) (result : Except PeripheralError Unit)

/-- `rotate_once`: the peripheral takes the old set down before it advertises the new one, so
that nothing is advertised after a failure. -/
def State.rotateOnce (s : State) (now : SystemTime)
    (result : Except PeripheralError Unit) : State :=
  match result with
  | .ok () => { s with advertised := some (buildUuidUnion prim s.live (minuteIndex now)) }
  | .error _ => { s with advertised := none }

/-- The reload of a store that was read: the diff is taken against the live map. -/
def ReloadTask.start (trigger : ReloadTrigger) (store : BondStore) (keysDir : KeysDir)
    (order : IterOrder) (live : Live) : ReloadTask :=
  let newSet := computeNewSet keysDir store
  let diff := computeDiff order live newSet
  ⟨trigger, store, newSet, diff.2, diff.1⟩

def loopStep (s : State) : LoopEvent → Option State
  | .signal trigger =>
      if s.reloadQueue.length < reloadChannelCapacity then
        some { s with reloadQueue := s.reloadQueue ++ [trigger] }
      else none
  | .reloadBegin read keysDir order =>
      match s.reload, s.reloadQueue with
      | none, trigger :: queue =>
          match BondStore.load prim read with
          | .error _ => some { s with reloadQueue := queue }
          | .ok store =>
              some { s with
                reloadQueue := queue
                reload := some (.start trigger store keysDir order s.live) }
      | _, _ => none
  | .removed result =>
      match s.reload with
      | some ⟨trigger, store, newSet, peerId :: toRemove, toAdd⟩ =>
          some { s with
            live := doRemovePeer s.live peerId result
            reload := some ⟨trigger, store, newSet, toRemove, toAdd⟩ }
      | _ => none
  | .added result =>
      match s.reload with
      | some ⟨trigger, store, newSet, [], peerId :: toAdd⟩ =>
          some { s with
            live := addFromSet store newSet s.live peerId result
            reload := some ⟨trigger, store, newSet, [], toAdd⟩ }
      | _ => none
  | .reloadEnd now result =>
      match s.reload with
      | some ⟨_, _, _, [], []⟩ => some ({ s with reload := none }.rotateOnce prim now result)
      | _ => none
  | .tick now result =>
      match s.reload with
      | none => some (s.rotateOnce prim now result)
      | some _ => none

/-! ## The system -/

inductive Event where
  | accept (c : CallId) (request : Request)
  | call (c : CallId) (event : CallEvent)
  | loop (event : LoopEvent)

def step (s : State) : Event → Option State
  | .accept c request =>
      match s.connections c with
      | none =>
          some { s with connections := Function.update s.connections c (some ⟨request, .decoded⟩) }
      | some _ => none
  | .call c event =>
      match s.connections c with
      | some conn => callStep prim s c conn event
      | none => none
  | .loop event => if s.orchestrated then loopStep prim s event else none

def daemon : Transition.System State Event where
  start s := ∃ seed audited orchestrated startedAt,
    s = State.init seed audited orchestrated startedAt
  step := step prim

/-! ## The exchange of the known-answer vector -/

def knownBond : Bond :=
  ⟨KnownAnswer.peerId, KnownAnswer.pubkey, "Pixel 8", 0, .bonded⟩

def knownInitial : State :=
  State.init [(knownBond, KnownAnswer.bondKey)] true true 0

/-- The connection challenges the phone with the nonce and gets the signature. -/
def exchangeOf (c : CallId) (nonce : Nonce) (signature : Signature) : List Event :=
  [.accept c (.challenge KnownAnswer.peerId nonce.val),
    .call c (.dispatch 0), .call c .lookup, .call c .acquire, .call c (.stamp 0),
    .call c (.draw (.ok nonce) 0), .call c (.notified (.ok ()) 0),
    .call c (.responded (.ok signature.val) 0), .call c (.check 0),
    .call c (.audit true), .call c .finish]

/-- Connection 0 challenges the phone and gets the signature of the vector. -/
def knownExchange : List Event :=
  exchangeOf 0 KnownAnswer.nonce KnownAnswer.signature

end Syauth.Presenced
