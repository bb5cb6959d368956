import Syauth.Presenced.Soundness

/-! # Which nonce an accepting answer is bound to

Every call is observed at most once at each stage of its challenge, so the nonce it
drew and the entry it looked up are determined by its answer.  The signature it sends
back covers the drawn nonce; the nonce of the request is read by nobody.
-/

namespace Syauth.Presenced

open Transport

variable {prim : Primitives} {seen : List Observation} {s t : State} {c : CallId}

/-! ## Stages of a call -/

namespace Observation

def call : Observation → CallId
  | .lookedUp c _ _ | .drew c _ | .notified c _ _ | .waitCalled c _ | .waitReturned c _ _
  | .sent c _ _ => c

/-- The place of an observation in the course of its call. -/
def stage : Observation → Nat
  | .lookedUp _ _ _ => 0
  | .drew _ _ => 1
  | .notified _ _ _ => 2
  | .waitCalled _ _ => 3
  | .waitReturned _ _ _ => 4
  | .sent _ _ _ => 5

end Observation

/-- The first stage that a task in this phase can still be observed at. -/
def Phase.stage : Phase → Nat
  | .decoded | .looking _ => 0
  | .acquiring _ _ | .stamping _ _ | .drawing _ _ => 1
  | .notifying _ => 2
  | .waiting _ => 4
  | .checking _ _ | .auditing _ _ | .returning _ => 5
  | .answered _ => 6

/-- What one step of a call shows: observations of that call, at different stages, none of
them before the phase the step leaves and all before the one it reaches. -/
structure Staged (c : CallId) (phase phase' : Phase) (shown : List Observation) : Prop where
  le : phase.stage ≤ phase'.stage
  between : ∀ o ∈ shown, o.call = c ∧ phase.stage ≤ o.stage ∧ o.stage < phase'.stage
  nodup : (shown.map Observation.stage).Nodup

theorem Staged.nil {phase phase' : Phase} (hle : phase.stage ≤ phase'.stage) :
    Staged c phase phase' [] :=
  ⟨hle, fun _ hmem => (nomatch hmem), List.nodup_nil⟩

theorem Staged.single {phase phase' : Phase} {o : Observation} (hcall : o.call = c)
    (hge : phase.stage ≤ o.stage) (hlt : o.stage < phase'.stage) :
    Staged c phase phase' [o] := by
  refine ⟨Nat.le_of_lt (Nat.lt_of_le_of_lt hge hlt), ?_, List.nodup_singleton _⟩
  intro o' hmem
  rw [List.mem_singleton.mp hmem]
  exact ⟨hcall, hge, hlt⟩

theorem State.answer_advance {conn : Connection} {phase : Phase}
    (hphase : ∀ response, phase ≠ .answered response) : (s.advance c conn phase).answer c = [] := by
  unfold State.answer
  rw [State.connections_advance, Function.update_self]
  split
  · next heq =>
      obtain ⟨-, hanswered⟩ := Connection.mk.inj (Option.some.inj heq)
      exact absurd hanswered (hphase _)
  · rfl

theorem State.answer_answered {conn : Connection} {response : Response} :
    (s.advance c conn (.answered response)).answer c =
      [Observation.sent c conn.request response] := by
  unfold State.answer
  rw [State.connections_advance, Function.update_self]

/-- A step into a phase without an answer shows what `observeCall` writes down. -/
theorem staged_advance {conn : Connection} {phase phase' : Phase} {shown : List Observation}
    (hphase : ∀ response, phase' ≠ .answered response) (hstaged : Staged c phase phase' shown) :
    Staged c phase phase' (shown ++ (s.advance c conn phase').answer c) := by
  rw [State.answer_advance hphase, List.append_nil]
  exact hstaged

theorem staged_drawPhase {peerId : String} {nonce : Bytes} {tStartMs : Nat} {peer : PeerState}
    (random : Except String Nonce) (now : SystemTime) :
    Staged c (.drawing tStartMs peer) (drawPhase prim peerId tStartMs peer random now)
      (observeCall s c (.challenge peerId nonce) (.drawing tStartMs peer) (.draw random now)) := by
  cases random with
  | error err => exact .nil (Nat.le_of_ble_eq_true rfl)
  | ok nonce =>
      simp only [drawPhase, buildChallenge_eq]
      exact .single rfl (Nat.le_refl 1) (Nat.lt_succ_self 1)

theorem staged_notifiedPhase {peerId : String} {nonce : Bytes} {tx : Transaction}
    (result : Except PeripheralError Unit) (now : SystemTime) :
    Staged c (.notifying tx) (notifiedPhase peerId tx result now)
      (observeCall s c (.challenge peerId nonce) (.notifying tx) (.notified result now)) := by
  cases result with
  | error err => exact .nil (Nat.le_of_ble_eq_true rfl)
  | ok value =>
      refine ⟨Nat.le_of_ble_eq_true rfl, ?_, ?_⟩
      · simp [observeCall, notifiedPhase, Observation.call, Observation.stage, Phase.stage]
      · simp [observeCall, Observation.stage]

theorem staged_respondedPhase {peerId : String} {nonce : Bytes} {tx : Transaction}
    (result : Except PeripheralError Bytes) (now : SystemTime) :
    Staged c (.waiting tx) (respondedPhase prim peerId tx result now)
      (observeCall s c (.challenge peerId nonce) (.waiting tx) (.responded result now)) := by
  cases result with
  | error err => cases err <;> exact .nil (Nat.le_of_ble_eq_true rfl)
  | ok response =>
      have hstage : (respondedPhase prim peerId tx (.ok response) now).stage = 5 := by
        unfold respondedPhase
        simp only
        split <;> rfl
      refine .single rfl (Nat.le_refl 4) ?_
      rw [hstage]
      exact Nat.lt_succ_self 4

theorem CallStep.staged {request request' : Request} {phase phase' : Phase} {event : CallEvent}
    (hcall : CallStep prim s c ⟨request, phase⟩ event t)
    (hnext : t.connections c = some ⟨request', phase'⟩) :
    Staged c phase phase' (observeCall s c request phase event ++ t.answer c) := by
  cases hcall with
  | answer queue response hanswer =>
      obtain rfl := State.phase_of_advance hnext
      rw [State.answer_answered]
      cases request <;> exact .single rfl (Nat.zero_le _) (Nat.lt_succ_self 5)
  | finished | released =>
      obtain rfl := State.phase_of_advance (s := s) hnext
      change Staged c _ _ ([] ++ (s.advance c _ _).answer c)
      rw [State.answer_answered]
      exact .single rfl (Nat.le_refl 5) (Nat.lt_succ_self 5)
  | found | unknown =>
      obtain rfl := State.phase_of_advance hnext
      exact staged_advance (fun _ => Phase.noConfusion)
        (.single rfl (Nat.le_refl 0) (Nat.succ_pos _))
  | drew =>
      obtain rfl := State.phase_of_advance hnext
      exact staged_advance (fun _ => drawPhase_ne_answered.symm) (staged_drawPhase _ _)
  | notified =>
      obtain rfl := State.phase_of_advance hnext
      exact staged_advance (fun _ => notifiedPhase_ne_answered.symm) (staged_notifiedPhase _ _)
  | responded =>
      obtain rfl := State.phase_of_advance hnext
      exact staged_advance (fun _ => respondedPhase_ne_answered.symm) (staged_respondedPhase _ _)
  | _ =>
      obtain rfl := State.phase_of_advance (s := s) hnext
      exact staged_advance (fun _ => Phase.noConfusion) (.nil (Nat.le_of_ble_eq_true rfl))

/-! ## At most one observation at each stage -/

structure ObservedOnce (seen : List Observation) (s : State) : Prop where
  below : ∀ o ∈ seen, ∃ conn, s.connections o.call = some conn ∧ o.stage < conn.phase.stage
  once : ∀ o ∈ seen, ∀ o' ∈ seen, o.call = o'.call → o.stage = o'.stage → o = o'

/-- Steps that show nothing and keep every connection that was there. -/
theorem ObservedOnce.silent (honce : ObservedOnce seen s)
    (hkept : ∀ c conn, s.connections c = some conn → t.connections c = some conn) :
    ObservedOnce (seen ++ []) t := by
  rw [List.append_nil]
  refine ⟨fun o hmem => ?_, honce.once⟩
  obtain ⟨conn, hconn, hstage⟩ := honce.below o hmem
  exact ⟨conn, hkept _ conn hconn, hstage⟩

theorem ObservedOnce.append {conn : Connection} {phase' : Phase} {shown : List Observation}
    (honce : ObservedOnce seen s) (hconn : s.connections c = some conn)
    (hnext : t.connections = Function.update s.connections c (some { conn with phase := phase' }))
    (hstaged : Staged c conn.phase phase' shown) : ObservedOnce (seen ++ shown) t := by
  have hbefore : ∀ o ∈ seen, o.call = c → o.stage < conn.phase.stage := by
    intro o hmem hcall
    obtain ⟨conn', hconn', hstage⟩ := honce.below o hmem
    rw [hcall, hconn] at hconn'
    cases hconn'
    exact hstage
  -- An old observation of the call lies before everything the step shows.
  have hdistinct : ∀ o ∈ seen, ∀ o' ∈ shown, o.call = o'.call → o.stage ≠ o'.stage := by
    intro o hold o' hnew hcall
    obtain ⟨hcall', hge, -⟩ := hstaged.between o' hnew
    have hlt := hbefore o hold (hcall.trans hcall')
    omega
  constructor
  · intro o hmem
    rw [hnext]
    rcases List.mem_append.mp hmem with hold | hnew
    · by_cases hcall : o.call = c
      · rw [hcall, Function.update_self]
        exact ⟨_, rfl, Nat.lt_of_lt_of_le (hbefore o hold hcall) hstaged.le⟩
      · rw [Function.update_of_ne hcall]
        exact honce.below o hold
    · obtain ⟨hcall, -, hlt⟩ := hstaged.between o hnew
      rw [hcall, Function.update_self]
      exact ⟨_, rfl, hlt⟩
  · intro o hmem o' hmem' hcall hstage
    rcases List.mem_append.mp hmem with hold | hnew
    · rcases List.mem_append.mp hmem' with hold' | hnew'
      · exact honce.once o hold o' hold' hcall hstage
      · exact absurd hstage (hdistinct o hold o' hnew' hcall)
    · rcases List.mem_append.mp hmem' with hold' | hnew'
      · exact absurd hstage.symm (hdistinct o' hold' o hnew hcall.symm)
      · exact List.inj_on_of_nodup_map hstaged.nodup hnew hnew' hstage

theorem ObservedOnce.step (honce : ObservedOnce seen s) {event : Event}
    (hstep : (daemon prim).step s event = some t) :
    ObservedOnce (seen ++ observe prim s event) t := by
  cases step_sound hstep with
  | @accept c request hnew =>
      apply honce.silent
      intro c' conn hconn
      have hne : c' ≠ c := by
        rintro rfl
        rw [hnew] at hconn
        cases hconn
      exact (Function.update_of_ne hne _ _).trans hconn
  | loop hloop =>
      apply honce.silent
      intro c' conn hconn
      rw [hloop.connections_eq]
      exact hconn
  | @call c conn callEvent _ hconn hcall =>
      rw [observe_call hconn hstep]
      obtain ⟨-, -, -, phase', hnext⟩ := hcall.frame
      apply honce.append hconn hnext
      apply hcall.staged
      rw [hnext, Function.update_self]

theorem observedOnce_run {initial : State} {events : List Event}
    (hrun : (daemon prim).run initial events = some s) :
    ObservedOnce ((daemon prim).trace (observe prim) initial events) s := by
  have hinitial : ObservedOnce [] initial :=
    ⟨fun _ hmem => (nomatch hmem), fun _ hmem => (nomatch hmem)⟩
  exact (daemon prim).run_trace_invariant (observe prim) ObservedOnce
    (fun _ _ _ _ honce hstep => honce.step hstep) hinitial hrun

/-! ## The nonce under the signature -/

/-- A signature verifies under a key for one body only. -/
def OneBodyOnly (prim : Primitives) : Prop :=
  ∀ pubkey body body' signature, prim.verifyStrict pubkey body signature = true →
    prim.verifyStrict pubkey body' signature = true → body = body'

/-- The signature verifies, under the key the call found registered for the peer, over a
frame that carries the nonce. -/
def SignsNonce (prim : Primitives) (seen : List Observation) (c : CallId) (peerId : String)
    (nonce signature : Bytes) : Prop :=
  ∃ (entry : PeerEntry) (pubkey : VerifyingKey prim) (frame : Frame) (sig : Signature),
    Observation.lookedUp c peerId (some entry) ∈ seen ∧ entry.phonePubkey = some pubkey.val ∧
      sig.val = signature ∧ frame.nonce.val = nonce ∧ verifyFrame prim pubkey frame sig = .ok ()

theorem verifyFrame_eq_ok {pubkey : VerifyingKey prim} {frame : Frame} {sig : Signature}
    (hverify : verifyFrame prim pubkey frame sig = .ok ()) :
    prim.verifyStrict pubkey.val (frame.version :: (frame.nonce.val ++ frame.payload)) sig =
      true := by
  unfold verifyFrame Frame.bodyBytes at hverify
  split at hverify
  · cases hverify
  · next body hbody =>
      split at hbody
      · cases hbody
      · cases hbody
        split at hverify
        · assumption
        · cases hverify

/-- A signature that verifies over two frames verifies over two with the same nonce. -/
theorem OneBodyOnly.nonce_eq (hone : OneBodyOnly prim) {pubkey : VerifyingKey prim}
    {frame frame' : Frame} {sig : Signature}
    (hverify : verifyFrame prim pubkey frame sig = .ok ())
    (hverify' : verifyFrame prim pubkey frame' sig = .ok ()) : frame.nonce = frame'.nonce := by
  have hbody := hone _ _ _ _ (verifyFrame_eq_ok hverify) (verifyFrame_eq_ok hverify')
  have hrest := (List.cons.inj hbody).2
  have hlength : frame.nonce.val.length = frame'.nonce.val.length :=
    frame.nonce.property.trans frame'.nonce.property.symm
  exact Subtype.ext (List.append_inj hrest hlength).1

theorem DispatchAnswer.not_ok {request : Request} {signature : Option Bytes} {reason : String}
    (hanswer : DispatchAnswer s request (.challenge true signature reason)) : False := by
  cases hanswer

/-- The daemon sets `ok` together with the accepting reason only. -/
theorem reason_of_sent_ok {initial : State} {events : List Event}
    (hrun : (daemon prim).run initial events = some s) {request : Request}
    {signature : Option Bytes} {reason : String}
    (hsent : Observation.sent c request (.challenge true signature reason) ∈
      (daemon prim).trace (observe prim) initial events) :
    reason = ChallengeOutcome.reasonOk := by
  refine (daemon prim).forall_mem_trace (observe prim)
    (fun o => ∀ c request signature reason,
      o = .sent c request (.challenge true signature reason) → reason = ChallengeOutcome.reasonOk)
    ?_ hrun _ hsent c request signature reason rfl
  rintro state event next hstep o hmem c request signature reason rfl
  cases step_sound hstep with
  | accept | loop => cases hmem
  | @call c' conn callEvent _ hconn hcall =>
      rw [observe_call hconn hstep] at hmem
      rcases List.mem_append.mp hmem with hshown | hanswer
      · exact absurd hshown sent_notMem_observeCall
      · obtain ⟨rfl, hanswered, -⟩ := mem_answer hanswer
        rcases hcall.answered hanswered with hgiven | ⟨_, _, ending, _, _, hresponse⟩
        · exact hgiven.not_ok.elim
        · obtain ⟨hok, -, hreason⟩ := Response.challenge.inj hresponse
          cases houtcome : ending.outcome with
          | ok sig =>
              rw [houtcome] at hreason
              exact hreason
          | _ =>
              rw [houtcome] at hok
              cases hok

/-- Behind an accepting answer stand one lookup, one draw and a verified frame with the
drawn nonce. -/
theorem exchange_of_sent_ok {initial : State} {events : List Event}
    (hstart : (daemon prim).start initial) (hrun : (daemon prim).run initial events = some s)
    {peerId reason : String} {nonce signature : Bytes}
    (hsent : Observation.sent c (.challenge peerId nonce)
      (.challenge true (some signature) reason) ∈
        (daemon prim).trace (observe prim) initial events) :
    ∃ (entry : PeerEntry) (pubkey : VerifyingKey prim) (frame : Frame) (sig : Signature),
      Observation.lookedUp c peerId (some entry) ∈
        (daemon prim).trace (observe prim) initial events ∧
      Observation.drew c frame.nonce ∈ (daemon prim).trace (observe prim) initial events ∧
      entry.phonePubkey = some pubkey.val ∧ sig.val = signature ∧
      verifyFrame prim pubkey frame sig = .ok () := by
  obtain rfl := reason_of_sent_ok hrun hsent
  rcases (tracking_run hstart hrun).granted c _ _ hsent with hrefuses | hgranted
  · exact absurd rfl (hrefuses _ _)
  · obtain ⟨peer, _, tx, sig, hrequest, hresponse, hbuilt, hverified, hseen⟩ := hgranted
    obtain ⟨rfl, -⟩ := Request.challenge.inj hrequest
    obtain ⟨pubkey, hkey, hverify⟩ := hverified
    have hsignature : sig.val = signature :=
      (Option.some.inj (Response.challenge.inj hresponse).2.1).symm
    have hnonce : tx.challenge.nonce = tx.nonce := by
      rw [hbuilt.1]
      rfl
    have hmem := hseen.subset
    refine ⟨tx.peer.entry, pubkey, tx.challenge, sig, hmem ?_, hmem ?_, ?_, hsignature, hverify⟩
    · simp [acceptedHistory, notifiedHistory, drawnHistory]
    · rw [hnonce]
      simp [acceptedHistory, notifiedHistory, drawnHistory]
    · rw [hkey]
      rfl

/-- An accepting answer signs the nonce of its request exactly when the daemon happens to
draw that nonce. -/
theorem answer_signs_request_nonce_iff (hone : OneBodyOnly prim) {initial : State}
    {events : List Event} (hstart : (daemon prim).start initial)
    (hrun : (daemon prim).run initial events = some s)
    {peerId reason : String} {nonce signature : Bytes}
    (hsent : Observation.sent c (.challenge peerId nonce)
      (.challenge true (some signature) reason) ∈
        (daemon prim).trace (observe prim) initial events) :
    SignsNonce prim ((daemon prim).trace (observe prim) initial events) c peerId nonce signature ↔
      ∀ drawn, Observation.drew c drawn ∈ (daemon prim).trace (observe prim) initial events →
        drawn.val = nonce := by
  obtain ⟨entry, pubkey, frame, sig, hlooked, hdrew, hkey, hsignature, hverify⟩ :=
    exchange_of_sent_ok hstart hrun hsent
  have honce := (observedOnce_run hrun).once
  constructor
  · rintro ⟨entry', pubkey', frame', sig', hlooked', hkey', hsignature', hnonce, hverify'⟩
      drawn hdrawn
    have hentry := honce _ hlooked _ hlooked' rfl rfl
    obtain ⟨-, -, hentry⟩ := Observation.lookedUp.inj hentry
    obtain rfl := Option.some.inj hentry
    obtain rfl : pubkey = pubkey' := Subtype.ext (Option.some.inj (hkey.symm.trans hkey'))
    obtain rfl : sig = sig' := Subtype.ext (hsignature.trans hsignature'.symm)
    have hdraw := honce _ hdrawn _ hdrew rfl rfl
    rw [(Observation.drew.inj hdraw).2, hone.nonce_eq hverify hverify']
    exact hnonce
  · intro hdraws
    exact ⟨entry, pubkey, frame, sig, hlooked, hkey, hsignature, hdraws _ hdrew, hverify⟩

theorem oneBodyOnly_knownAnswer : OneBodyOnly KnownAnswer.primitives := by
  intro pubkey body body' signature hverify hverify'
  simp only [KnownAnswer.primitives, Bool.and_eq_true, beq_iff_eq] at hverify hverify'
  rw [hverify.1.2, hverify'.1.2]

example :
    SignsNonce KnownAnswer.primitives
      ((daemon KnownAnswer.primitives).trace (observe KnownAnswer.primitives) knownInitial
        knownExchange) 0 KnownAnswer.peerId KnownAnswer.nonce.val KnownAnswer.signature.val ↔
      ∀ drawn, Observation.drew 0 drawn ∈
        (daemon KnownAnswer.primitives).trace (observe KnownAnswer.primitives) knownInitial
          knownExchange → drawn.val = KnownAnswer.nonce.val := by
  have hsome : ((daemon KnownAnswer.primitives).run knownInitial knownExchange).isSome = true := by
    decide
  obtain ⟨final, hrun⟩ := Option.isSome_iff_exists.mp hsome
  have hsent : Observation.sent 0 (.challenge KnownAnswer.peerId KnownAnswer.nonce.val)
      (.challenge true (some KnownAnswer.signature.val) "ok") ∈
        (daemon KnownAnswer.primitives).trace (observe KnownAnswer.primitives) knownInitial
          knownExchange := by
    decide
  exact answer_signs_request_nonce_iff oneBodyOnly_knownAnswer ⟨_, _, _, _, rfl⟩ hrun hsent

end Syauth.Presenced
