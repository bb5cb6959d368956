import Syauth.Presenced.InFlight
import Syauth.Sequence.Recent

/-! # The nonces of the challenges that returned Ok

`run_challenge` checks and extends the nonce cache of its peer entry under one lock and
then writes its audit record, still holding the permit of the entry.  An observer writes
down which nonce a call drew and what it returned; the cache is read off that log, with
at most one call of the entry on its way from the cache to its return.
-/

namespace Syauth.Presenced

open Transport Sequence

variable {prim : Primitives} {s t : State} {c : CallId} {peerId : String} {cell : CellId}

/-! ## What is observed -/

inductive ChallengeNote where
  | drawn (c : CallId) (cell : CellId) (nonce : Nonce)
  | returned (c : CallId) (outcome : ChallengeOutcome)
  deriving DecidableEq

/-- The nonce a call starts `run_challenge` with, and the outcome it returns. -/
def noteChallenge (s : State) : Event → List ChallengeNote
  | .call c event =>
      match s.connections c, event with
      | some ⟨_, .drawing _ peer⟩, .draw (.ok nonce) _ => [.drawn c peer.cell nonce]
      | some ⟨_, .returning ending⟩, .finish => [.returned c ending.outcome]
      | _, _ => []
  | _ => []

/-- The nonces of the challenges that returned Ok, for each peer entry. -/
structure ChallengeLog where
  drawn : CallId → Option (CellId × Nonce)
  ok : CellId → List Nonce

namespace ChallengeLog

def empty : ChallengeLog := ⟨fun _ => none, fun _ => []⟩

def note (log : ChallengeLog) : ChallengeNote → ChallengeLog
  | .drawn c cell nonce => { log with drawn := Function.update log.drawn c (some (cell, nonce)) }
  | .returned c (.ok _) =>
      match log.drawn c with
      | some (cell, nonce) =>
          { log with ok := Function.update log.ok cell (log.ok cell ++ [nonce]) }
      | none => log
  | .returned _ _ => log

def ofNotes (notes : List ChallengeNote) : ChallengeLog := notes.foldl note empty

theorem note_refused {log : ChallengeLog} {c : CallId} {outcome : ChallengeOutcome}
    (hrefused : outcome.isOk = false) : log.note (.returned c outcome) = log := by
  cases outcome with
  | ok signature => cases hrefused
  | _ => rfl

theorem ofNotes_append (seen notes : List ChallengeNote) :
    ofNotes (seen ++ notes) = notes.foldl note (ofNotes seen) :=
  List.foldl_append

end ChallengeLog

def State.nonces (s : State) (cell : CellId) : List Nonce := (s.live.cells cell).nonceCache.nonces

/-- The cells whose permit a call holds that has decided for Ok and has not returned yet. -/
def Phase.accepted : Phase → Option CellId
  | .auditing _ ending | .returning ending => if ending.outcome.isOk then ending.permit else none
  | _ => none

def State.Accepted (s : State) (c : CallId) (cell : CellId) : Prop :=
  ∃ peerId nonce phase, s.connections c = some ⟨.challenge peerId nonce, phase⟩ ∧
    phase.accepted = some cell

/-- The nonce of the call, if there is one, that is on its way from the cache to its return. -/
inductive Unreturned (log : ChallengeLog) (s : State) (cell : CellId) : List Nonce → Prop
  | none (hnone : ∀ c, ¬ s.Accepted c cell) : Unreturned log s cell []
  | one (c : CallId) (nonce : Nonce) (haccepted : s.Accepted c cell)
      (hdrawn : log.drawn c = some (cell, nonce)) : Unreturned log s cell [nonce]

/-- The cache is the window on the nonces that were accepted, and no nonce was accepted
while it was in the window. -/
structure NonceWindow (log : ChallengeLog) (s : State) (cell : CellId) (last : List Nonce) :
    Prop where
  unreturned : Unreturned log s cell last
  window : s.nonces cell = (log.ok cell ++ last).rtake nonceLruCap
  spaced : Spaced nonceLruCap (log.ok cell ++ last)

/-! ## What a call step does to the cache -/

/-- The log knows the nonce of a call from the draw on, and the cells of an accepted one. -/
def Phase.Logged (log : ChallengeLog) (c : CallId) : Phase → Prop
  | .notifying tx | .waiting tx | .checking tx _ => log.drawn c = some (tx.peer.cell, tx.nonce)
  | .auditing _ ending | .returning ending => ending.outcome.isOk = true →
      ∃ cell nonce, ending.permit = some cell ∧ log.drawn c = some (cell, nonce)
  | _ => True

/-- The effect of a call step on the caches, by the position before and after. -/
inductive NonceEffect (s t : State) (c : CallId) : Phase → CallEvent → Phase → Prop
  | draws {tStartMs : Nat} {peer : PeerState} {nonce : Nonce} {now : SystemTime}
      {tx : Transaction} (hpeer : tx.peer = peer) (hnonce : tx.nonce = nonce)
      (hnonces : t.nonces = s.nonces) :
      NonceEffect s t c (.drawing tStartMs peer) (.draw (.ok nonce) now) (.notifying tx)
  | accepts {tx : Transaction} {signature : Signature} {now : SystemTime} {phase : Phase}
      (hfresh : tx.nonce ∉ s.nonces tx.peer.cell) (hphase : phase.accepted = some tx.peer.cell)
      (hlogged : ∀ log : ChallengeLog, log.drawn c = some (tx.peer.cell, tx.nonce) →
        phase.Logged log c)
      (hnonces : t.nonces = Function.update s.nonces tx.peer.cell
        ((s.live.cells tx.peer.cell).nonceCache.insert tx.nonce).nonces) :
      NonceEffect s t c (.checking tx signature) (.check now) phase
  | returns {ending : Ending} {response : Response} (hnonces : t.nonces = s.nonces) :
      NonceEffect s t c (.returning ending) .finish (.answered response)
  | moves {phase phase' : Phase} {event : CallEvent}
      (hquiet : ∀ request, s.connections c = some ⟨request, phase⟩ →
        noteChallenge s (.call c event) = [])
      (haccepted : phase'.accepted = phase.accepted)
      (hlogged : ∀ log : ChallengeLog, phase.Logged log c → phase'.Logged log c)
      (hnonces : t.nonces = s.nonces) : NonceEffect s t c phase event phase'

theorem nonces_advance {conn : Connection} {phase : Phase} :
    (s.advance c conn phase).nonces = s.nonces := rfl

theorem nonces_updateCell_of_same {updated : CellId} {f : PeerCell → PeerCell}
    (hsame : ∀ value, (f value).nonceCache = value.nonceCache) :
    (s.updateCell updated f).nonces = s.nonces := by
  funext cell
  unfold State.nonces
  simp only [State.live_updateCell, Live.updateCell, Function.update_apply]
  split
  · next heq => rw [hsame, heq]
  · rfl

theorem drawPhase_nonceEffect {tStartMs : Nat} {peer : PeerState} {random : Except String Nonce}
    {now : SystemTime} (hnonces : t.nonces = s.nonces) :
    NonceEffect s t c (.drawing tStartMs peer) (.draw random now)
      (drawPhase prim peerId tStartMs peer random now) := by
  cases random with
  | error err =>
      refine .moves (fun request hconn => ?_) rfl ?_ hnonces
      · simp only [noteChallenge, hconn]
      · exact fun log _ hok => absurd hok Bool.false_ne_true
  | ok drawn =>
      simp only [drawPhase, buildChallenge_eq]
      exact .draws rfl rfl hnonces

theorem conclude_logged {tx : Transaction} {now : SystemTime} {reason : String}
    {outcome : ChallengeOutcome} {log : ChallengeLog} (hrefused : outcome.isOk = false) :
    (tx.conclude peerId now reason outcome).Logged log c := by
  intro hok
  exact absurd hok (Bool.eq_false_iff.mp hrefused)

theorem conclude_accepted {tx : Transaction} {now : SystemTime} {reason : String}
    {outcome : ChallengeOutcome} (hrefused : outcome.isOk = false) :
    (tx.conclude peerId now reason outcome).accepted = none := by
  simp [Transaction.conclude, Phase.accepted, hrefused]

theorem ChallengeOutcome.exists_of_isOk {outcome : ChallengeOutcome} (hok : outcome.isOk = true) :
    ∃ signature, outcome = .ok signature := by
  cases outcome with
  | ok signature => exact ⟨signature, rfl⟩
  | _ => cases hok

theorem isOk_challengeOutcomeForTransport (err : PeripheralError) :
    (challengeOutcomeForTransport err).isOk = false := by
  cases err <;> rfl

/-- A call that moves on to a refusal, or keeps its transaction, leaves no trace. -/
theorem moves_of_transaction {phase phase' : Phase} {event : CallEvent} {tx : Transaction}
    (hquiet : ∀ request, s.connections c = some ⟨request, phase⟩ →
      noteChallenge s (.call c event) = [])
    (hbefore : phase.accepted = none)
    (hlogged : ∀ log : ChallengeLog, phase.Logged log c →
      log.drawn c = some (tx.peer.cell, tx.nonce))
    (hafter : (∃ now reason outcome, phase' = tx.conclude peerId now reason outcome ∧
        outcome.isOk = false) ∨ phase' = .waiting tx ∨ ∃ signature, phase' = .checking tx signature)
    (hnonces : t.nonces = s.nonces) : NonceEffect s t c phase event phase' := by
  rcases hafter with ⟨now, reason, outcome, rfl, hrefused⟩ | rfl | ⟨signature, rfl⟩
  · refine .moves hquiet ?_ (fun log _ => conclude_logged hrefused) hnonces
    rw [conclude_accepted hrefused, hbefore]
  · exact .moves hquiet hbefore.symm hlogged hnonces
  · exact .moves hquiet hbefore.symm hlogged hnonces

theorem notifiedPhase_cases (tx : Transaction) (result : Except PeripheralError Unit)
    (now : SystemTime) :
    (∃ now' reason outcome, notifiedPhase peerId tx result now =
        tx.conclude peerId now' reason outcome ∧ outcome.isOk = false) ∨
      notifiedPhase peerId tx result now = .waiting tx ∨
        ∃ signature, notifiedPhase peerId tx result now = .checking tx signature := by
  cases result with
  | ok value => exact .inr (.inl rfl)
  | error err => exact .inl ⟨now, _, _, rfl, isOk_challengeOutcomeForTransport err⟩

theorem respondedPhase_cases (tx : Transaction) (result : Except PeripheralError Bytes)
    (now : SystemTime) :
    (∃ now' reason outcome, respondedPhase prim peerId tx result now =
        tx.conclude peerId now' reason outcome ∧ outcome.isOk = false) ∨
      respondedPhase prim peerId tx result now = .waiting tx ∨
        ∃ signature, respondedPhase prim peerId tx result now = .checking tx signature := by
  unfold respondedPhase
  split
  · exact .inl ⟨now, _, _, rfl, rfl⟩
  · next err _ => exact .inl ⟨now, _, _, rfl, isOk_challengeOutcomeForTransport err⟩
  · split
    · next outcome hcheck =>
        obtain rfl := checkResponse_eq_error prim hcheck
        exact .inl ⟨now, _, _, rfl, rfl⟩
    · next signature hcheck => exact .inr (.inr ⟨signature, rfl⟩)

theorem CallStep.nonceEffect {request : Request} {phase phase' : Phase} {event : CallEvent}
    (hcall : CallStep prim s c ⟨request, phase⟩ event t)
    (hnext : t.connections c = some ⟨request, phase'⟩) : NonceEffect s t c phase event phase' := by
  cases hcall with
  | answer | enter | found =>
      obtain rfl := State.phase_of_advance hnext
      refine .moves (fun request hconn => ?_) rfl (fun _ _ => trivial) rfl
      simp only [noteChallenge, hconn]
  | unknown | busy =>
      obtain rfl := State.phase_of_advance hnext
      refine .moves (fun request hconn => ?_) rfl (fun _ _ hok => absurd hok Bool.false_ne_true) rfl
      simp only [noteChallenge, hconn]
  | acquired | stamped =>
      obtain rfl := State.phase_of_advance hnext
      refine .moves (fun request hconn => ?_) rfl (fun _ _ => trivial) ?_
      · simp only [noteChallenge, hconn]
      · rw [nonces_advance]
        exact nonces_updateCell_of_same fun _ => rfl
  | drew =>
      obtain rfl := State.phase_of_advance hnext
      exact drawPhase_nonceEffect rfl
  | @notified _ _ tx result now =>
      obtain rfl := State.phase_of_advance hnext
      refine moves_of_transaction (fun request hconn => ?_) rfl (fun _ hlogged => hlogged)
        (notifiedPhase_cases tx result now) rfl
      simp only [noteChallenge, hconn]
  | @responded _ _ tx result now =>
      obtain rfl := State.phase_of_advance hnext
      refine moves_of_transaction (fun request hconn => ?_) rfl (fun _ hlogged => hlogged)
        (respondedPhase_cases tx result now) rfl
      simp only [noteChallenge, hconn]
  | @replayed _ _ tx _ now hseen =>
      obtain rfl := State.phase_of_advance hnext
      refine moves_of_transaction (fun request hconn => ?_) rfl (fun _ hlogged => hlogged)
        (.inl ⟨now, _, _, rfl, rfl⟩) rfl
      simp only [noteChallenge, hconn]
  | @accepted _ _ tx signature now hfresh =>
      obtain rfl := State.phase_of_advance hnext
      refine .accepts ?_ rfl (fun log hdrawn _ => ⟨_, _, rfl, hdrawn⟩) ?_
      · intro hmem
        rw [NonceCache.contains, List.any_eq_false] at hfresh
        exact hfresh tx.nonce hmem (beq_self_eq_true _)
      · funext cell
        simp only [State.nonces, State.advance, State.live_updateCell, Live.updateCell,
          Function.update_apply]
        split <;> rfl
  | audited =>
      obtain rfl := State.phase_of_advance hnext
      refine .moves (fun request hconn => ?_) rfl (fun _ hlogged => hlogged) rfl
      simp only [noteChallenge, hconn]
  | finished hpermit =>
      obtain rfl := State.phase_of_advance hnext
      exact .returns rfl
  | released hpermit =>
      obtain rfl := State.phase_of_advance (s := s) hnext
      exact .returns (nonces_updateCell_of_same fun _ => rfl)

/-! ## The invariant -/

structure NonceHistory (log : ChallengeLog) (s : State) : Prop where
  permits : PermitInvariant s
  logged : ∀ c peerId nonce phase, s.connections c = some ⟨.challenge peerId nonce, phase⟩ →
    phase.Logged log c
  fresh : ∀ cell, s.live.nextCell ≤ cell → log.ok cell = [] ∧ s.nonces cell = []
  windows : ∀ cell, ∃ last, NonceWindow log s cell last

theorem Phase.permit_of_accepted {phase : Phase} (haccepted : phase.accepted = some cell) :
    phase.permit = some cell := by
  unfold Phase.accepted at haccepted
  split at haccepted
  · split at haccepted
    · exact haccepted
    · cases haccepted
  · split at haccepted
    · exact haccepted
    · cases haccepted
  · cases haccepted

theorem PermitInvariant.holder_of_accepted (hinv : PermitInvariant s)
    (haccepted : s.Accepted c cell) : s.holder cell = some c := by
  obtain ⟨peerId, nonce, phase, hconn, hphase⟩ := haccepted
  exact hinv.holder c peerId cell ⟨nonce, phase, hconn, Phase.permit_of_accepted hphase⟩

theorem PermitInvariant.accepted_allocated (hinv : PermitInvariant s)
    (haccepted : s.Accepted c cell) : cell < s.live.nextCell := by
  obtain ⟨peerId, nonce, phase, hconn, hphase⟩ := haccepted
  exact hinv.allocated c peerId cell
    ⟨nonce, phase, hconn, Phase.cell_of_permit (Phase.permit_of_accepted hphase)⟩

theorem Unreturned.congr {log log' : ChallengeLog} {last : List Nonce}
    (hlast : Unreturned log s cell last)
    (haccepted : ∀ c, t.Accepted c cell ↔ s.Accepted c cell)
    (hdrawn : ∀ c, s.Accepted c cell → log'.drawn c = log.drawn c) :
    Unreturned log' t cell last := by
  cases hlast with
  | none hnone => exact .none fun c hnew => hnone c ((haccepted c).mp hnew)
  | one c nonce hold hlog =>
      exact .one c nonce ((haccepted c).mpr hold) ((hdrawn c hold).trans hlog)

theorem NonceWindow.congr {log log' : ChallengeLog} {last : List Nonce}
    (hwindow : NonceWindow log s cell last)
    (haccepted : ∀ c, t.Accepted c cell ↔ s.Accepted c cell)
    (hdrawn : ∀ c, s.Accepted c cell → log'.drawn c = log.drawn c)
    (hok : log'.ok cell = log.ok cell) (hnonces : t.nonces cell = s.nonces cell) :
    NonceWindow log' t cell last := by
  refine ⟨hwindow.unreturned.congr haccepted hdrawn, ?_, ?_⟩
  · rw [hnonces, hok]
    exact hwindow.window
  · rw [hok]
    exact hwindow.spaced

/-- Below the capacity nothing is dropped, and beyond it the oldest nonce is. -/
theorem NonceCache.nonces_insert {cache : NonceCache} {nonce : Nonce}
    (hlen : cache.nonces.length ≤ nonceLruCap) :
    (cache.insert nonce).nonces = (cache.nonces ++ [nonce]).rtake nonceLruCap := by
  have hlength : (cache.nonces ++ [nonce]).length = cache.nonces.length + 1 := by simp
  unfold NonceCache.insert
  dsimp only
  split
  · next hlong =>
      have hone : (cache.nonces ++ [nonce]).length - nonceLruCap = 1 := by omega
      rw [List.rtake, hone, List.drop_one]
  · next hshort => rw [rtake_of_length_le (Nat.le_of_not_gt hshort)]

/-- A nonce that is accepted goes to the end of the window. -/
theorem NonceWindow.accept {log : ChallengeLog} {nonce : Nonce}
    (hwindow : NonceWindow log s cell []) (hfresh : nonce ∉ s.nonces cell)
    (hunreturned : Unreturned log t cell [nonce])
    (hnonces : t.nonces cell = ((s.live.cells cell).nonceCache.insert nonce).nonces) :
    NonceWindow log t cell [nonce] := by
  have hlog : s.nonces cell = (log.ok cell).rtake nonceLruCap := by
    have hbefore := hwindow.window
    rwa [List.append_nil] at hbefore
  have hspaced : Spaced nonceLruCap (log.ok cell) := by
    have hbefore := hwindow.spaced
    rwa [List.append_nil] at hbefore
  have hlen : (s.nonces cell).length ≤ nonceLruCap := by
    rw [hlog, length_rtake]
    exact Nat.min_le_left _ _
  refine ⟨hunreturned, ?_, ?_⟩
  · rw [hnonces, NonceCache.nonces_insert hlen, ← rtake_rtake_append (log.ok cell), ← hlog]
    rfl
  · apply hspaced.concat
    rw [← hlog]
    exact hfresh

/-! ## Preservation by calls -/

theorem accepted_iff {request : Request} {phase : Phase}
    (hconn : s.connections c = some ⟨request, phase⟩) :
    s.Accepted c cell ↔
      (∃ peerId nonce, request = .challenge peerId nonce) ∧ phase.accepted = some cell := by
  constructor
  · intro haccepted
    obtain ⟨peerId, nonce, phase', hconn', hphase⟩ := haccepted
    obtain ⟨rfl, rfl⟩ := Connection.mk.inj (Option.some.inj (hconn.symm.trans hconn'))
    exact ⟨⟨peerId, nonce, rfl⟩, hphase⟩
  · intro hrequest
    obtain ⟨⟨peerId, nonce, rfl⟩, hphase⟩ := hrequest
    exact ⟨peerId, nonce, phase, hconn, hphase⟩

theorem accepted_iff_of_connections_eq {c' : CallId}
    (hsame : t.connections c' = s.connections c') :
    t.Accepted c' cell ↔ s.Accepted c' cell := by
  unfold State.Accepted
  rw [hsame]

theorem Phase.Logged.congr {log log' : ChallengeLog} {phase : Phase}
    (hlogged : phase.Logged log c) (hdrawn : log'.drawn c = log.drawn c) :
    phase.Logged log' c := by
  unfold Phase.Logged at hlogged ⊢
  rw [hdrawn]
  exact hlogged

theorem CallStep.challenge_of_ne_decoded {request : Request} {phase : Phase} {event : CallEvent}
    (hcall : CallStep prim s c ⟨request, phase⟩ event t) (hphase : phase ≠ .decoded) :
    ∃ peerId nonce, request = .challenge peerId nonce := by
  cases hcall with
  | answer => exact absurd rfl hphase
  | _ => exact ⟨_, _, rfl⟩

/-- A step that leaves the accepted calls as they are leaves every window as it is. -/
theorem NonceHistory.of_quiet {log log' : ChallengeLog} (hinv : NonceHistory log s)
    (hpermits : PermitInvariant t) (hnextCell : s.live.nextCell ≤ t.live.nextCell)
    (haccepted : ∀ c cell, t.Accepted c cell ↔ s.Accepted c cell)
    (hlogged : ∀ c peerId nonce phase, t.connections c = some ⟨.challenge peerId nonce, phase⟩ →
      phase.Logged log' c)
    (hdrawn : ∀ c cell, s.Accepted c cell → log'.drawn c = log.drawn c)
    (hok : log'.ok = log.ok) (hnonces : t.nonces = s.nonces) : NonceHistory log' t := by
  refine ⟨hpermits, hlogged, fun cell hfree => ?_, fun cell => ?_⟩
  · rw [hok, hnonces]
    exact hinv.fresh cell (hnextCell.trans hfree)
  · obtain ⟨last, hwindow⟩ := hinv.windows cell
    refine ⟨last, hwindow.congr (fun c => haccepted c cell) (fun c => hdrawn c cell) ?_ ?_⟩
    · rw [hok]
    · rw [hnonces]

/-- No other call is accepted for the cells whose permit a call holds. -/
theorem PermitInvariant.eq_of_accepted (hinv : PermitInvariant s) {c' : CallId}
    (hholds : s.Holds c peerId cell) (haccepted : s.Accepted c' cell) : c' = c :=
  Option.some.inj ((hinv.holder_of_accepted haccepted).symm.trans
    (hinv.holder c peerId cell hholds))

section Calls

variable {log log' : ChallengeLog} {request : Request} {phase phase' : Phase}

theorem NonceHistory.logged_of_update (hinv : NonceHistory log s)
    (hconnections : t.connections = Function.update s.connections c (some ⟨request, phase'⟩))
    (hself : phase'.Logged log' c) (hothers : ∀ c', c' ≠ c → log'.drawn c' = log.drawn c') :
    ∀ c' peerId nonce phase, t.connections c' = some ⟨.challenge peerId nonce, phase⟩ →
      phase.Logged log' c' := by
  intro c' peerId nonce phase hconn
  rw [hconnections, Function.update_apply] at hconn
  split at hconn
  · next hsame =>
      obtain ⟨-, rfl⟩ := Connection.mk.inj (Option.some.inj hconn)
      rw [hsame]
      exact hself
  · next hne => exact (hinv.logged c' peerId nonce phase hconn).congr (hothers c' hne)

theorem accepted_iff_of_update
    (hconn : s.connections c = some ⟨request, phase⟩)
    (hconnections : t.connections = Function.update s.connections c (some ⟨request, phase'⟩))
    (hsame : phase'.accepted = phase.accepted) (c' : CallId) (cell : CellId) :
    t.Accepted c' cell ↔ s.Accepted c' cell := by
  by_cases hcall : c' = c
  · subst hcall
    have hnext : t.connections c' = some ⟨request, phase'⟩ := by
      rw [hconnections, Function.update_self]
    rw [accepted_iff hconn, accepted_iff hnext, hsame]
  · apply accepted_iff_of_connections_eq
    rw [hconnections, Function.update_of_ne hcall]

/-- The check under the lock: the call becomes the accepted one of its cells. -/
theorem NonceHistory.accept {nonce : Bytes} {tx : Transaction} {signature : Signature}
    (hinv : NonceHistory log s) (hpermits : PermitInvariant t)
    (hnextCell : t.live.nextCell = s.live.nextCell)
    (hconn : s.connections c = some ⟨.challenge peerId nonce, .checking tx signature⟩)
    (hconnections : t.connections =
      Function.update s.connections c (some ⟨.challenge peerId nonce, phase'⟩))
    (hfresh : tx.nonce ∉ s.nonces tx.peer.cell) (hphase : phase'.accepted = some tx.peer.cell)
    (hlogged : phase'.Logged log c)
    (hnonces : t.nonces = Function.update s.nonces tx.peer.cell
      ((s.live.cells tx.peer.cell).nonceCache.insert tx.nonce).nonces) : NonceHistory log t := by
  have hholds : s.Holds c peerId tx.peer.cell := ⟨nonce, _, hconn, rfl⟩
  have hnext : t.connections c = some ⟨.challenge peerId nonce, phase'⟩ := by
    rw [hconnections, Function.update_self]
  have hbefore : ∀ cell, ¬ s.Accepted c cell := by
    intro cell haccepted
    obtain ⟨-, hnone⟩ := (accepted_iff hconn).mp haccepted
    cases hnone
  refine ⟨hpermits, hinv.logged_of_update hconnections hlogged fun _ _ => rfl, ?_, ?_⟩
  · intro cell hfree
    rw [hnextCell] at hfree
    have hallocated : tx.peer.cell < s.live.nextCell :=
      hinv.permits.allocated c peerId _ hholds.uses
    have hne : cell ≠ tx.peer.cell := Nat.ne_of_gt (hallocated.trans_le hfree)
    rw [hnonces, Function.update_of_ne hne]
    exact hinv.fresh cell hfree
  · intro cell
    obtain ⟨last, hwindow⟩ := hinv.windows cell
    by_cases hcell : cell = tx.peer.cell
    · subst hcell
      -- the permit is this call's own, so that no other accepted call is on its way
      cases hwindow.unreturned with
      | one other nonce' hother _ =>
          rw [hinv.permits.eq_of_accepted hholds hother] at hother
          exact absurd hother (hbefore _)
      | none hnone =>
          refine ⟨[tx.nonce], hwindow.accept hfresh ?_ ?_⟩
          · refine .one c tx.nonce ((accepted_iff hnext).mpr ⟨⟨peerId, nonce, rfl⟩, hphase⟩) ?_
            exact hinv.logged c peerId nonce _ hconn
          · rw [hnonces, Function.update_self]
    · refine ⟨last, hwindow.congr (fun c' => ?_) (fun _ _ => rfl) rfl ?_⟩
      · by_cases hcall : c' = c
        · subst hcall
          rw [accepted_iff hnext, hphase]
          refine ⟨fun hnew => absurd (Option.some.inj hnew.2).symm hcell, fun hold => ?_⟩
          exact absurd hold (hbefore cell)
        · apply accepted_iff_of_connections_eq
          rw [hconnections, Function.update_of_ne hcall]
      · rw [hnonces, Function.update_of_ne hcell]

/-- The return of an accepted call: its nonce moves to the log of the returned ones. -/
theorem NonceHistory.returnOk {nonce : Bytes} {ending : Ending} {response : Response}
    {signature : Signature} (hinv : NonceHistory log s) (hpermits : PermitInvariant t)
    (hnextCell : t.live.nextCell = s.live.nextCell)
    (hconn : s.connections c = some ⟨.challenge peerId nonce, .returning ending⟩)
    (hconnections : t.connections =
      Function.update s.connections c (some ⟨.challenge peerId nonce, .answered response⟩))
    (hok : ending.outcome = .ok signature) (hnonces : t.nonces = s.nonces) :
    NonceHistory (log.note (.returned c ending.outcome)) t := by
  have hisOk : ending.outcome.isOk = true := by rw [hok]; rfl
  obtain ⟨returned, drawn, hpermit, hdrawn⟩ := hinv.logged c peerId nonce _ hconn hisOk
  have hphase : (Phase.returning ending).accepted = some returned := by
    rw [Phase.accepted, if_pos hisOk, hpermit]
  have haccepted : s.Accepted c returned := ⟨peerId, nonce, _, hconn, hphase⟩
  have hholds : s.Holds c peerId returned := ⟨nonce, _, hconn, hpermit⟩
  have hnext : t.connections c = some ⟨.challenge peerId nonce, .answered response⟩ := by
    rw [hconnections, Function.update_self]
  have hafter : ∀ cell, ¬ t.Accepted c cell := by
    intro cell hnew
    obtain ⟨-, hnone⟩ := (accepted_iff hnext).mp hnew
    cases hnone
  have hothers : ∀ c' cell, c' ≠ c → (t.Accepted c' cell ↔ s.Accepted c' cell) := by
    intro c' cell hne
    apply accepted_iff_of_connections_eq
    rw [hconnections, Function.update_of_ne hne]
  have hlog : log.note (.returned c ending.outcome) =
      { log with ok := Function.update log.ok returned (log.ok returned ++ [drawn]) } := by
    rw [hok, ChallengeLog.note, hdrawn]
  rw [hlog]
  refine ⟨hpermits, hinv.logged_of_update hconnections trivial fun _ _ => rfl, ?_, ?_⟩
  · intro cell hfree
    rw [hnextCell] at hfree
    have hallocated := hinv.permits.accepted_allocated haccepted
    have hne : cell ≠ returned := Nat.ne_of_gt (hallocated.trans_le hfree)
    dsimp only
    rw [hnonces, Function.update_of_ne hne]
    exact hinv.fresh cell hfree
  · intro cell
    obtain ⟨last, hwindow⟩ := hinv.windows cell
    by_cases hcell : cell = returned
    · subst hcell
      cases hwindow.unreturned with
      | none hnone => exact absurd haccepted (hnone c)
      | one other nonce' hother hdrawn' =>
          obtain rfl := hinv.permits.eq_of_accepted hholds hother
          obtain ⟨-, rfl⟩ := Prod.mk.inj (Option.some.inj (hdrawn.symm.trans hdrawn'))
          refine ⟨[], .none fun c' hnew => ?_, ?_, ?_⟩
          · by_cases hcall : c' = other
            · exact hafter _ (hcall ▸ hnew)
            · exact hcall (hinv.permits.eq_of_accepted hholds ((hothers c' _ hcall).mp hnew))
          · dsimp only
            rw [List.append_nil, Function.update_self, hnonces]
            exact hwindow.window
          · dsimp only
            rw [List.append_nil, Function.update_self]
            exact hwindow.spaced
    · refine ⟨last, hwindow.congr (fun c' => ?_) (fun _ _ => rfl) ?_ ?_⟩
      · by_cases hcall : c' = c
        · subst hcall
          refine ⟨fun hnew => absurd hnew (hafter cell), fun hold => ?_⟩
          have hcells := ((accepted_iff hconn).mp hold).2
          exact absurd (Option.some.inj (hcells.symm.trans hphase)) hcell
        · exact hothers c' cell hcall
      · exact Function.update_of_ne hcell _ _
      · rw [hnonces]

theorem NonceHistory.call {event : CallEvent} (hinv : NonceHistory log s)
    (hconn : s.connections c = some ⟨request, phase⟩)
    (hcall : CallStep prim s c ⟨request, phase⟩ event t) :
    NonceHistory ((noteChallenge s (.call c event)).foldl .note log) t := by
  obtain ⟨-, hnextCell, -, phase', hconnections⟩ := hcall.frame
  have hpermits : PermitInvariant t := hinv.permits.call hconn hcall
  have hnext : t.connections c = some ⟨request, phase'⟩ := by
    rw [hconnections, Function.update_self]
  have hlogged : (∃ peerId nonce, request = .challenge peerId nonce) → phase.Logged log c := by
    intro hrequest
    obtain ⟨peerId, nonce, rfl⟩ := hrequest
    exact hinv.logged c peerId nonce phase hconn
  cases hcall.nonceEffect hnext with
  | @moves _ _ _ hquiet haccepted hkept hnonces =>
      rw [hquiet request hconn]
      refine hinv.of_quiet hpermits hnextCell.ge
        (accepted_iff_of_update hconn hconnections haccepted) ?_ (fun _ _ _ => rfl) rfl hnonces
      by_cases hdecoded : phase = .decoded
      · subst hdecoded
        exact hinv.logged_of_update hconnections (hkept log trivial) fun _ _ => rfl
      · refine hinv.logged_of_update hconnections (hkept log (hlogged ?_)) fun _ _ => rfl
        exact hcall.challenge_of_ne_decoded hdecoded
  | @draws tStartMs peer nonce now tx hpeer hnonce hnonces =>
      simp only [noteChallenge, hconn, List.foldl_cons, List.foldl_nil, ChallengeLog.note]
      refine hinv.of_quiet hpermits hnextCell.ge
        (accepted_iff_of_update hconn hconnections rfl) ?_ ?_ rfl hnonces
      · refine hinv.logged_of_update hconnections ?_ fun c' hne => Function.update_of_ne hne _ _
        rw [Phase.Logged, hpeer, hnonce]
        exact Function.update_self _ _ _
      · intro c' cell haccepted
        have hne : c' ≠ c := by
          intro hsame
          subst hsame
          obtain ⟨-, hnone⟩ := (accepted_iff hconn).mp haccepted
          cases hnone
        exact Function.update_of_ne hne _ _
  | accepts hfresh hphase hkept hnonces =>
      obtain ⟨peerId, nonce, rfl⟩ := hcall.challenge_of_ne_decoded Phase.noConfusion
      simp only [noteChallenge, hconn, List.foldl_nil]
      exact hinv.accept hpermits hnextCell hconn hconnections hfresh hphase
        (hkept log (hlogged ⟨peerId, nonce, rfl⟩)) hnonces
  | @returns ending response hnonces =>
      obtain ⟨peerId, nonce, rfl⟩ := hcall.challenge_of_ne_decoded Phase.noConfusion
      simp only [noteChallenge, hconn, List.foldl_cons, List.foldl_nil]
      cases hok : ending.outcome.isOk with
      | true =>
          obtain ⟨signature, houtcome⟩ := ChallengeOutcome.exists_of_isOk hok
          exact hinv.returnOk hpermits hnextCell hconn hconnections houtcome hnonces
      | false =>
          rw [ChallengeLog.note_refused hok]
          refine hinv.of_quiet hpermits hnextCell.ge
            (accepted_iff_of_update hconn hconnections ?_) ?_ (fun _ _ _ => rfl) rfl hnonces
          · simp [Phase.accepted, hok]
          · exact hinv.logged_of_update hconnections trivial fun _ _ => rfl

end Calls

/-! ## Whole runs -/

theorem nonces_insertPeer {added : String} {key : BondKey} {pubkey : Pubkey}
    (hlive : t.live = s.live.insertPeer added key pubkey) :
    t.nonces = Function.update s.nonces s.live.nextCell [] := by
  funext cell
  unfold State.nonces
  rw [hlive]
  simp only [Live.insertPeer, Function.update_apply]
  split <;> rfl

theorem NonceHistory.of_sameCalls {log : ChallengeLog} (hinv : NonceHistory log s)
    (hcalls : SameCalls s t) (hpermits : PermitInvariant t)
    (hkept : ∀ c conn, s.connections c = some conn → t.connections c = some conn)
    (hnextCell : s.live.nextCell ≤ t.live.nextCell) (hnonces : t.nonces = s.nonces) :
    NonceHistory log t := by
  refine hinv.of_quiet hpermits hnextCell (fun c cell => ?_) ?_ (fun _ _ _ => rfl) rfl hnonces
  · constructor
    · intro haccepted
      obtain ⟨peerId, nonce, phase, hconn, hphase⟩ := haccepted
      rcases hcalls c _ hconn with hbefore | hdecoded
      · exact ⟨peerId, nonce, phase, hbefore, hphase⟩
      · rw [show phase = .decoded from hdecoded] at hphase
        cases hphase
    · intro haccepted
      obtain ⟨peerId, nonce, phase, hconn, hphase⟩ := haccepted
      exact ⟨peerId, nonce, phase, hkept c _ hconn, hphase⟩
  · intro c peerId nonce phase hconn
    rcases hcalls c _ hconn with hbefore | hdecoded
    · exact hinv.logged c peerId nonce phase hbefore
    · rw [show phase = .decoded from hdecoded]
      trivial

theorem NonceHistory.step {log : ChallengeLog} {event : Event} (hinv : NonceHistory log s)
    (hstep : Step prim s event t) :
    NonceHistory ((noteChallenge s event).foldl .note log) t := by
  have hpermits : PermitInvariant t := hinv.permits.step hstep
  cases hstep with
  | @accept c request hnew =>
      refine hinv.of_sameCalls .of_accept hpermits (fun c' conn hconn => ?_) le_rfl rfl
      have hne : c' ≠ c := by
        intro hsame
        rw [hsame, hnew] at hconn
        cases hconn
      exact (Function.update_of_ne hne _ _).trans hconn
  | call hconn hcall => exact hinv.call hconn hcall
  | @loop event _ hloop =>
      have hkept : ∀ c conn, s.connections c = some conn → t.connections c = some conn := by
        intro c conn hconn
        rw [hloop.connections_eq]
        exact hconn
      have hcalls : SameCalls s t := .of_eq hloop.connections_eq
      cases hloop.liveEffect with
      | keeps hcells hnextCell hpeers =>
          refine hinv.of_sameCalls hcalls hpermits hkept hnextCell.ge ?_
          funext cell
          rw [State.nonces, hcells, State.nonces]
      | adds task added key pubkey hevent hreload hhead hlive =>
          refine hinv.of_sameCalls hcalls hpermits hkept ?_ ?_
          · rw [hlive]
            exact Nat.le_succ _
          · -- the new cells were empty already
            rw [nonces_insertPeer hlive, Function.update_eq_self_iff]
            exact (hinv.fresh _ le_rfl).2.symm

theorem nonces_withPeers (seed : List (Bond × BondKey)) (live : Live)
    (hlive : ∀ cell, (live.cells cell).nonceCache.nonces = []) :
    ∀ cell, ((seed.foldl (fun live peer =>
      live.insertPeer peer.1.peerId peer.2 peer.1.pubkey) live).cells cell).nonceCache.nonces =
        [] := by
  induction seed generalizing live with
  | nil => exact hlive
  | cons peer seed ih =>
      apply ih
      intro cell
      simp only [Live.insertPeer, Function.update_apply]
      split
      · rfl
      · exact hlive cell

theorem permitInvariant_start {initial : State} (hstart : (daemon prim).start initial) :
    PermitInvariant initial :=
  (slotInvariant_start hstart).permits

theorem nonceHistory_start {initial : State} (hstart : (daemon prim).start initial) :
    NonceHistory .empty initial := by
  have hpermits := permitInvariant_start hstart
  obtain ⟨seed, audited, orchestrated, startedAt, rfl⟩ := hstart
  have hnonces : ∀ cell, (State.init seed audited orchestrated startedAt).nonces cell = [] :=
    nonces_withPeers seed Live.empty fun _ => rfl
  refine ⟨hpermits, fun c peerId nonce phase hconn => (nomatch hconn), ?_, fun cell => ?_⟩
  · exact fun cell _ => ⟨rfl, hnonces cell⟩
  · refine ⟨[], .none ?_, hnonces cell, spaced_nil _⟩
    intro c haccepted
    obtain ⟨peerId, nonce, phase, hconn, -⟩ := haccepted
    cases hconn

/-- In every run the log of the observer explains every cache. -/
theorem nonceHistory_run {initial final : State} {events : List Event}
    (hstart : (daemon prim).start initial)
    (hrun : (daemon prim).run initial events = some final) :
    NonceHistory (.ofNotes ((daemon prim).trace noteChallenge initial events)) final := by
  have hempty : NonceHistory (.ofNotes []) initial := nonceHistory_start hstart
  refine (daemon prim).run_trace_invariant noteChallenge
    (fun seen state => NonceHistory (.ofNotes seen) state) ?_ hempty hrun
  intro seen state event next hinv hnext
  rw [ChallengeLog.ofNotes_append]
  exact hinv.step (step_sound hnext)

/-! ## Calls that do not return Ok -/

/-- The call has decided for Ok or is answered. -/
def State.Committed (s : State) (c : CallId) : Prop :=
  ∃ request phase, s.connections c = some ⟨request, phase⟩ ∧
    ((∃ cell, phase.accepted = some cell) ∨ ∃ response, phase = .answered response)

theorem Phase.isOk_of_accepted {ending : Ending}
    (haccepted : (Phase.returning ending).accepted = some cell) : ending.outcome.isOk = true := by
  rw [Phase.accepted] at haccepted
  split at haccepted
  · next hok => exact hok
  · cases haccepted

theorem committed_of_nonces_ne {event : CallEvent} {request : Request} {phase : Phase}
    (hcall : CallStep prim s c ⟨request, phase⟩ event t) (hchanged : t.nonces ≠ s.nonces) :
    t.Committed c := by
  obtain ⟨-, -, -, phase', hconnections⟩ := hcall.frame
  have hnext : t.connections c = some ⟨request, phase'⟩ := by
    rw [hconnections, Function.update_self]
  cases hcall.nonceEffect hnext with
  | draws _ _ hnonces => exact absurd hnonces hchanged
  | returns hnonces => exact absurd hnonces hchanged
  | moves _ _ _ hnonces => exact absurd hnonces hchanged
  | accepts _ hphase => exact ⟨request, phase', hnext, .inl ⟨_, hphase⟩⟩

theorem State.Committed.call {event : CallEvent} {request : Request} {phase : Phase}
    (hcommitted : s.Committed c) (hconn : s.connections c = some ⟨request, phase⟩)
    (hcall : CallStep prim s c ⟨request, phase⟩ event t) :
    t.Committed c ∧ ∀ outcome, .returned c outcome ∈ noteChallenge s (.call c event) →
      ∃ signature, outcome = .ok signature := by
  obtain ⟨-, -, -, phase', hconnections⟩ := hcall.frame
  have hnext : t.connections c = some ⟨request, phase'⟩ := by
    rw [hconnections, Function.update_self]
  obtain ⟨request', before, hbefore, hphase⟩ := hcommitted
  obtain ⟨rfl, rfl⟩ := Connection.mk.inj (Option.some.inj (hconn.symm.trans hbefore))
  rcases hphase with ⟨cell, haccepted⟩ | ⟨response, rfl⟩
  · cases hcall.nonceEffect hnext with
    | draws => cases haccepted
    | accepts => cases haccepted
    | moves hquiet hsame =>
        refine ⟨⟨request, phase', hnext, .inl ⟨cell, hsame.trans haccepted⟩⟩, ?_⟩
        intro outcome hmem
        rw [hquiet request hconn] at hmem
        cases hmem
    | @returns ending response =>
        refine ⟨⟨request, _, hnext, .inr ⟨response, rfl⟩⟩, fun outcome hmem => ?_⟩
        simp only [noteChallenge, hconn, List.mem_singleton, ChallengeNote.returned.injEq,
          true_and] at hmem
        rw [hmem]
        exact ChallengeOutcome.exists_of_isOk (Phase.isOk_of_accepted haccepted)
  · -- an answered call takes no further step
    cases hcall

theorem call_of_mem_noteChallenge {c' : CallId} {event : CallEvent} {outcome : ChallengeOutcome}
    (hmem : .returned c outcome ∈ noteChallenge s (.call c' event)) : c = c' := by
  simp only [noteChallenge] at hmem
  split at hmem
  · simp at hmem
  · simp only [List.mem_singleton, ChallengeNote.returned.injEq] at hmem
    exact hmem.1
  · cases hmem

theorem State.Committed.step {event : Event} (hcommitted : s.Committed c)
    (hstep : Step prim s event t) :
    t.Committed c ∧ ∀ outcome, .returned c outcome ∈ noteChallenge s event →
      ∃ signature, outcome = .ok signature := by
  have hcommitted' := hcommitted
  obtain ⟨request, phase, hconn, hphase⟩ := hcommitted'
  cases hstep with
  | @accept c' request' hnew =>
      have hne : c ≠ c' := by
        intro hsame
        rw [hsame, hnew] at hconn
        cases hconn
      refine ⟨⟨request, phase, (Function.update_of_ne hne _ _).trans hconn, hphase⟩, ?_⟩
      exact fun outcome hmem => (nomatch hmem)
  | @call c' conn event _ hconn' hcall =>
      by_cases hsame : c = c'
      · subst hsame
        exact hcommitted.call hconn' hcall
      · obtain ⟨-, -, -, next, hconnections⟩ := hcall.frame
        refine ⟨⟨request, phase, ?_, hphase⟩, fun outcome hmem => ?_⟩
        · rw [hconnections, Function.update_of_ne hsame]
          exact hconn
        · exact absurd (call_of_mem_noteChallenge hmem) hsame
  | loop hloop =>
      refine ⟨⟨request, phase, ?_, hphase⟩, fun outcome hmem => (nomatch hmem)⟩
      rw [hloop.connections_eq]
      exact hconn

/-- Whatever a call returns after it has changed a cache is Ok. -/
theorem returned_of_committed {final : State} {events : List Event} (hcommitted : s.Committed c)
    (hrun : (daemon prim).run s events = some final) {outcome : ChallengeOutcome}
    (hmem : .returned c outcome ∈ (daemon prim).trace noteChallenge s events) :
    ∃ signature, outcome = .ok signature := by
  have hstart : s.Committed c ∧ ∀ outcome, .returned c outcome ∈ ([] : List ChallengeNote) →
      ∃ signature, outcome = .ok signature := ⟨hcommitted, fun _ hnil => (nomatch hnil)⟩
  have hinv := (daemon prim).run_trace_invariant noteChallenge
    (fun seen state => state.Committed c ∧ ∀ outcome, .returned c outcome ∈ seen →
      ∃ signature, outcome = .ok signature) ?_ hstart hrun
  · exact hinv.2 outcome hmem
  · intro seen state event next hinv hnext
    obtain ⟨hnow, hshown⟩ := hinv.1.step (step_sound hnext)
    refine ⟨hnow, fun outcome hmem => ?_⟩
    rcases List.mem_append.mp hmem with hold | hnew
    · exact hinv.2 outcome hold
    · exact hshown outcome hnew

/-! ## The promise to a peer entry -/

/-- What a run shows of the caches: each is the window on the nonces of its entry's
challenges that returned Ok and of the one that is about to. -/
structure KeepsOkNonces (prim : Primitives) (initial : State) (events : List Event)
    (final : State) : Prop where
  window : ∀ cell, ∃ last, NonceWindow
    (.ofNotes ((daemon prim).trace noteChallenge initial events)) final cell last
  settled : ∀ cell, (∀ c, ¬ final.Accepted c cell) → final.nonces cell =
    ((ChallengeLog.ofNotes ((daemon prim).trace noteChallenge initial events)).ok cell).rtake
      nonceLruCap
  distinct : ∀ cell, (final.nonces cell).Nodup
  unchanged : ∀ before c event after s t, events = before ++ .call c event :: after →
    (daemon prim).run initial before = some s →
      (daemon prim).step s (.call c event) = some t → ∀ outcome,
        .returned c outcome ∈ (daemon prim).trace noteChallenge t after →
          (∀ signature, outcome ≠ .ok signature) → t.nonces = s.nonces

theorem nonceCache_keeps_ok_nonces {initial final : State} {events : List Event}
    (hstart : (daemon prim).start initial)
    (hrun : (daemon prim).run initial events = some final) :
    KeepsOkNonces prim initial events final := by
  have hinv := nonceHistory_run hstart hrun
  refine ⟨hinv.windows, fun cell hnone => ?_, fun cell => ?_, ?_⟩
  · obtain ⟨last, hwindow⟩ := hinv.windows cell
    cases hwindow.unreturned with
    | none _ =>
        have hnonces := hwindow.window
        rwa [List.append_nil] at hnonces
    | one c nonce haccepted _ => exact absurd haccepted (hnone c)
  · obtain ⟨last, hwindow⟩ := hinv.windows cell
    rw [hwindow.window]
    exact hwindow.spaced.nodup_rtake
  · intro before c event after s t hevents hbefore hstep outcome hmem hrefused
    subst hevents
    obtain ⟨s', hs, hrest⟩ := (daemon prim).run_append_eq_some.mp hrun
    obtain rfl := Option.some.inj (hbefore.symm.trans hs)
    obtain ⟨t', ht, hafter⟩ := (daemon prim).run_cons_eq_some.mp hrest
    obtain rfl := Option.some.inj (hstep.symm.trans ht)
    by_contra hchanged
    cases step_sound hstep with
    | call hconn hcall =>
        obtain ⟨signature, hok⟩ :=
          returned_of_committed (committed_of_nonces_ne hcall hchanged) hafter hmem
        exact hrefused signature hok

/-- Two challenges are answered, and a third one that draws the first nonce again is a
replay. -/
def repeatedNonce : List Event :=
  exchangeOf 0 KnownAnswer.nonce KnownAnswer.signature ++
    exchangeOf 1 KnownAnswer.secondNonce KnownAnswer.secondSignature ++
    exchangeOf 2 KnownAnswer.nonce KnownAnswer.signature

theorem nonceCache_keeps_ok_nonces_repeatedNonce :
    ∃ final, (daemon KnownAnswer.twicePrimitives).run knownInitial repeatedNonce = some final ∧
      final.nonces 0 = [KnownAnswer.nonce, KnownAnswer.secondNonce] ∧
      .returned 2 .replay ∈
        (daemon KnownAnswer.twicePrimitives).trace noteChallenge knownInitial repeatedNonce ∧
      KeepsOkNonces KnownAnswer.twicePrimitives knownInitial repeatedNonce final := by
  have hnonces : ((daemon KnownAnswer.twicePrimitives).run knownInitial repeatedNonce).map
      (fun final => final.nonces 0) = some [KnownAnswer.nonce, KnownAnswer.secondNonce] := by
    decide
  obtain ⟨final, hrun, hfinal⟩ := Option.map_eq_some_iff.mp hnonces
  exact ⟨final, hrun, hfinal, by decide, nonceCache_keeps_ok_nonces ⟨_, _, _, _, rfl⟩ hrun⟩

end Syauth.Presenced
