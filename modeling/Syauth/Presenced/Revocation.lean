import Syauth.Presenced.Steps

/-! # Revocation

A reload from a store without an active record of a peer puts the peer on its
list of removals; the entry goes away when the peripheral confirms the removal.
From then on lookups of the peer fail until a reload reads an active record.
-/

namespace Syauth.Presenced

open Transport

variable {prim : Primitives} {s t : State} {c : CallId} {peerId : String} {event : Event}

/-- The store holds a record of the peer that is not revoked. -/
def BondedIn (store : BondStore) (peerId : String) : Prop :=
  ∃ bond, ActiveRecord store peerId bond

/-- If the step is the result of removing this peer, the peripheral succeeded. -/
def RemovalSucceeds (peerId : String) (s : State) : Event → Prop
  | .loop (.removed result) =>
      ∀ task, s.reload = some task → task.toRemove.head? = some peerId → result = .ok ()
  | _ => True

/-- If the step begins a reload, the store it reads has no active record of this peer. -/
def NotRebonded (prim : Primitives) (peerId : String) (_ : State) : Event → Prop
  | .loop (.reloadBegin read _ _) =>
      ∀ store, BondStore.load prim read = .ok store → ¬ BondedIn store peerId
  | _ => True

/-- The call has not reached its lookup of the peer. -/
def State.NotLookedUp (s : State) (c : CallId) : Prop :=
  ∀ conn, s.connections c = some conn →
    conn.phase = .decoded ∨ ∃ tStartMs, conn.phase = .looking tStartMs

/-- The challenge for this peer has returned with the accepting outcome. -/
def State.ReturnsOk (s : State) (c : CallId) (peerId : String) : Prop :=
  ∃ nonce signature, s.connections c =
    some ⟨.challenge peerId nonce, .answered (.ofOutcome (.ok signature))⟩

/-! ## A reload drains the peer -/

/-- The reload under way reads an active record, or the peer is absent or due for removal. -/
def Draining (peerId : String) (s : State) : Prop :=
  ∀ task, s.reload = some task → BondedIn task.store peerId ∨
    peerId ∉ task.toAdd ∧ (peerId ∈ s.live.peers → peerId ∈ task.toRemove)

theorem mem_addFromSet {store : BondStore} {newSet : KeySet} {live : Live} {added : String}
    {result : Except PeripheralError Unit} (hne : peerId ≠ added) :
    peerId ∈ (addFromSet store newSet live added result).peers ↔ peerId ∈ live.peers := by
  rw [← AList.lookup_isSome, ← AList.lookup_isSome, lookup_addFromSet_ne hne]

theorem mem_doRemovePeer {live : Live} {removed : String} {result : Except PeripheralError Unit}
    (hmem : peerId ∈ (doRemovePeer live removed result).peers) : peerId ∈ live.peers := by
  cases result with
  | error err => exact hmem
  | ok value => exact (AList.mem_erase.mp hmem).2

theorem Draining.step (hdrain : Draining peerId s) (hok : RemovalSucceeds peerId s event)
    (hstep : Step prim s event t) : Draining peerId t := by
  intro task htask
  cases hstep with
  | accept hnew => exact hdrain task htask
  | call hconn hcall =>
      obtain ⟨hpeers, -, hreload, -⟩ := hcall.frame
      rw [hreload] at htask
      rw [hpeers]
      exact hdrain task htask
  | loop hloop =>
      cases hloop with
      | queued => exact hdrain task htask
      | skipped queue hload => exact hdrain task htask
      | @began _ _ _ store trigger queue hidle hload =>
          obtain rfl := Option.some.inj htask
          -- a peer that the store does not bond is never added, and removed if it is live
          by_cases hbonded : BondedIn store peerId
          · exact .inl hbonded
          · refine .inr ⟨fun hadd => hbonded (mem_toAdd.mp hadd).1.1, fun hmem => ?_⟩
            exact mem_toRemove.mpr ⟨hmem, fun heligible => hbonded heligible.1⟩
      | @removed result _ _ _ removed _ _ hreload =>
          obtain rfl := Option.some.inj htask
          rcases hdrain _ hreload with hbonded | ⟨hadd, hremove⟩
          · exact .inl hbonded
          · refine .inr ⟨hadd, fun hmem => ?_⟩
            have hbefore := hremove (mem_doRemovePeer hmem)
            rcases List.mem_cons.mp hbefore with rfl | hrest
            · -- the peer was next in turn, and its removal succeeded
              have hresult := hok _ hreload rfl
              subst hresult
              exact absurd rfl (AList.mem_erase.mp hmem).1
            · exact hrest
      | @added result _ _ _ added _ hreload =>
          obtain rfl := Option.some.inj htask
          rcases hdrain _ hreload with hbonded | ⟨hadd, hremove⟩
          · exact .inl hbonded
          · have hne : peerId ≠ added := List.ne_of_not_mem_cons hadd
            refine .inr ⟨List.not_mem_of_not_mem_cons hadd, fun hmem => ?_⟩
            exact hremove ((mem_addFromSet hne).mp hmem)
      | ended hreload =>
          rw [State.reload_rotateOnce] at htask
          cases htask
      | ticked hidle =>
          rw [State.reload_rotateOnce, hidle] at htask
          cases htask

/-! ## An absent peer stays absent -/

structure Absent (peerId : String) (s : State) : Prop where
  notLive : peerId ∉ s.live.peers
  notPending : ∀ task, s.reload = some task → peerId ∉ task.toAdd

theorem Absent.step (habsent : Absent peerId s) (hlater : NotRebonded prim peerId s event)
    (hstep : Step prim s event t) : Absent peerId t := by
  cases hstep with
  | accept hnew => exact ⟨habsent.notLive, habsent.notPending⟩
  | call hconn hcall =>
      obtain ⟨hpeers, -, hreload, -⟩ := hcall.frame
      refine ⟨?_, ?_⟩
      · rw [hpeers]
        exact habsent.notLive
      · rw [hreload]
        exact habsent.notPending
  | loop hloop =>
      cases hloop with
      | queued => exact ⟨habsent.notLive, habsent.notPending⟩
      | skipped queue hload => exact ⟨habsent.notLive, habsent.notPending⟩
      | began trigger queue hidle hload =>
          refine ⟨habsent.notLive, fun task htask hadd => ?_⟩
          obtain rfl := Option.some.inj htask
          exact hlater _ hload (mem_toAdd.mp hadd).1.1
      | removed hreload =>
          have hadd := habsent.notPending _ hreload
          refine ⟨fun hmem => habsent.notLive (mem_doRemovePeer hmem), fun task htask => ?_⟩
          obtain rfl := Option.some.inj htask
          exact hadd
      | added hreload =>
          have hadd := habsent.notPending _ hreload
          refine ⟨fun hmem => habsent.notLive ?_, fun task htask => ?_⟩
          · exact (mem_addFromSet (List.ne_of_not_mem_cons hadd)).mp hmem
          · obtain rfl := Option.some.inj htask
            exact List.not_mem_of_not_mem_cons hadd
      | ended hreload =>
          refine ⟨by rw [State.live_rotateOnce]; exact habsent.notLive, fun task htask => ?_⟩
          rw [State.reload_rotateOnce] at htask
          cases htask
      | ticked hidle =>
          refine ⟨by rw [State.live_rotateOnce]; exact habsent.notLive, fun task htask => ?_⟩
          rw [State.reload_rotateOnce] at htask
          exact habsent.notPending task htask

/-! ## Calls for an absent peer -/

/-- The positions of a call whose lookup is to come or has failed. -/
def Phase.TurnedAway : Phase → Prop
  | .decoded | .looking _ => True
  | .auditing _ ending | .returning ending => ending.outcome = .unknownPeer
  | .answered response => response.Refuses
  | _ => False

def State.TurnsAway (s : State) (c : CallId) (peerId : String) : Prop :=
  ∀ nonce phase, s.connections c = some ⟨.challenge peerId nonce, phase⟩ → phase.TurnedAway

theorem State.NotLookedUp.turnsAway (hnew : s.NotLookedUp c) : s.TurnsAway c peerId := by
  intro nonce phase hconn
  rcases hnew _ hconn with hphase | ⟨tStartMs, hphase⟩
  · change phase = .decoded at hphase
    subst hphase
    trivial
  · change phase = .looking tStartMs at hphase
    subst hphase
    trivial

theorem CallStep.turnedAway {nonce : Bytes} {phase phase' : Phase} {event : CallEvent}
    (hcall : CallStep prim s c ⟨.challenge peerId nonce, phase⟩ event t)
    (habsent : peerId ∉ s.live.peers) (haway : phase.TurnedAway)
    (hnext : t.connections c = some ⟨.challenge peerId nonce, phase'⟩) : phase'.TurnedAway := by
  cases hcall with
  | answer queue response hanswer =>
      obtain rfl := State.phase_of_advance hnext
      exact hanswer.refuses
  | enter =>
      obtain rfl := State.phase_of_advance hnext
      trivial
  | found hpeer =>
      rw [lookupPeer_eq_none habsent] at hpeer
      cases hpeer
  | unknown hpeer =>
      obtain rfl := State.phase_of_advance hnext
      rfl
  | audited =>
      obtain rfl := State.phase_of_advance hnext
      exact haway
  | finished | released =>
      obtain rfl := State.phase_of_advance (s := s) hnext
      refine Response.ofOutcome_refuses fun signature hok => ?_
      rw [show _ = ChallengeOutcome.unknownPeer from haway] at hok
      cases hok
  | _ =>
      -- the remaining positions come after a lookup that found the peer
      exact absurd haway id

theorem State.TurnsAway.step (haway : s.TurnsAway c peerId) (habsent : peerId ∉ s.live.peers)
    (hstep : Step prim s event t) : t.TurnsAway c peerId := by
  intro nonce phase' hnext
  cases hstep with
  | @accept c' request hnew =>
      simp only [Function.update_apply] at hnext
      split at hnext
      · obtain ⟨-, rfl⟩ := Connection.mk.inj (Option.some.inj hnext)
        trivial
      · exact haway nonce phase' hnext
  | @call c' conn _ _ hconn hcall =>
      by_cases hsame : c' = c
      · subst hsame
        obtain ⟨request, phase⟩ := conn
        have hrequest : Request.challenge peerId nonce = request := hcall.request_eq hnext
        subst hrequest
        exact hcall.turnedAway habsent (haway nonce phase hconn) hnext
      · obtain ⟨-, -, -, phase, hconnections⟩ := hcall.frame
        rw [hconnections, Function.update_of_ne (Ne.symm hsame)] at hnext
        exact haway nonce phase' hnext
  | loop hloop =>
      rw [hloop.connections_eq] at hnext
      exact haway nonce phase' hnext

/-! ## Revocation safety -/

/-- After a reload from a store without an active record of the peer has ended, a
call that had not looked the peer up does not return the accepting outcome until a
reload reads an active record again. -/
def RevocationSafe (prim : Primitives) (peerId : String) (initial : State) (before : List Event)
    (ending : LoopEvent) (after : List Event) : Prop :=
  ∀ s task ended final c,
    (daemon prim).run initial before = some s → s.reload = some task →
    ¬ BondedIn task.store peerId → (daemon prim).step s (.loop ending) = some ended →
    ended.reload = none → ended.NotLookedUp c →
    (daemon prim).AllSteps (NotRebonded prim peerId) ended after →
    (daemon prim).run ended after = some final → ¬ final.ReturnsOk c peerId

theorem LoopStep.absent_of_ended {ending : LoopEvent} {task : ReloadTask} {ended : State}
    (hloop : LoopStep prim s ending ended) (hdrain : Draining peerId s)
    (htask : s.reload = some task) (hrevoked : ¬ BondedIn task.store peerId)
    (hidle : ended.reload = none) : Absent peerId ended := by
  cases hloop with
  | ended hreload =>
      have hsame := Option.some.inj (htask.symm.trans hreload)
      subst hsame
      rcases hdrain _ hreload with hbonded | ⟨-, hremove⟩
      · exact absurd hbonded hrevoked
      · refine ⟨fun hmem => ?_, fun task htask => ?_⟩
        · rw [State.live_rotateOnce] at hmem
          exact List.not_mem_nil (hremove hmem)
        · rw [State.reload_rotateOnce] at htask
          cases htask
  | ticked hnone =>
      rw [hnone] at htask
      cases htask
  | queued =>
      change s.reload = none at hidle
      rw [hidle] at htask
      cases htask
  | skipped queue hload =>
      change s.reload = none at hidle
      rw [hidle] at htask
      cases htask
  | began => cases hidle
  | removed => cases hidle
  | added => cases hidle

/-- In every run in which the peripheral confirms the removals of the peer that the
reloads ask for, revocation is safe. -/
theorem revocation_safe {initial : State} {before : List Event} {ending : LoopEvent}
    {after : List Event} (hstart : (daemon prim).start initial)
    (hremovals : (daemon prim).AllSteps (RemovalSucceeds peerId) initial before) :
    RevocationSafe prim peerId initial before ending after := by
  intro s task ended final c hbefore htask hrevoked hend hidle hnew hlater hafter
  have hinitial : Draining peerId initial := by
    obtain ⟨seed, audited, orchestrated, startedAt, rfl⟩ := hstart
    intro task htask
    cases htask
  have hdrain : Draining peerId s :=
    (daemon prim).run_invariant_of_allSteps (RemovalSucceeds peerId) (Draining peerId)
      (fun _ _ _ hdrain hok hstep => hdrain.step hok (step_sound hstep)) hinitial hremovals hbefore
  have habsent : Absent peerId ended := by
    cases step_sound hend with
    | loop hloop => exact hloop.absent_of_ended hdrain htask hrevoked hidle
  have hfinal : Absent peerId final ∧ final.TurnsAway c peerId :=
    (daemon prim).run_invariant_of_allSteps (NotRebonded prim peerId)
      (fun state => Absent peerId state ∧ state.TurnsAway c peerId)
      (fun _ _ _ hinv hguard hstep =>
        ⟨hinv.1.step hguard (step_sound hstep),
          hinv.2.step hinv.1.notLive (step_sound hstep)⟩)
      ⟨habsent, hnew.turnsAway⟩ hlater hafter
  rintro ⟨nonce, signature, hconn⟩
  exact hfinal.2 nonce _ hconn true (some signature.val) rfl

/-! ## A removal that the peripheral refuses -/

def revokedFile : BondFileRead :=
  .parsed ⟨1, [{ knownBond with status := .revoked "phone lost" }]⟩

/-- The reload after the operator revoked the phone, up to the result of its removal. -/
def revokingReload (result : Except PeripheralError Unit) : List Event :=
  [.loop (.signal .sighup),
    .loop (.reloadBegin revokedFile (fun _ => .error "not read") .declared),
    .loop (.removed result)]

theorem refused_removal_unlocks :
    ¬ RevocationSafe KnownAnswer.primitives KnownAnswer.peerId knownInitial
      (revokingReload (.error (.backend "dbus"))) (.reloadEnd 0 (.ok ())) knownExchange := by
  intro hsafe
  have hstore : (((daemon KnownAnswer.primitives).run knownInitial
      (revokingReload (.error (.backend "dbus")))).bind (·.reload)).map (·.store) =
        some ⟨[{ knownBond with status := .revoked "phone lost" }]⟩ := by
    decide
  have hended : ((daemon KnownAnswer.primitives).run knownInitial
      (revokingReload (.error (.backend "dbus")) ++ [.loop (.reloadEnd 0 (.ok ()))])).map
        (fun ended => (ended.reload.isSome, ended.connections 0)) = some (false, none) := by
    decide
  have hfinal : ((daemon KnownAnswer.primitives).run knownInitial
      (revokingReload (.error (.backend "dbus")) ++
        (.loop (.reloadEnd 0 (.ok ())) :: knownExchange))).bind (·.connections 0) =
      some ⟨.challenge KnownAnswer.peerId KnownAnswer.nonce.val,
        .answered (.ofOutcome (.ok KnownAnswer.signature))⟩ := by
    decide
  obtain ⟨final, hrun, hconn⟩ := Option.bind_eq_some_iff.mp hfinal
  obtain ⟨s, hs, hrest⟩ := (Transition.System.run_append_eq_some _).mp hrun
  obtain ⟨ended, hend, hafter⟩ := (Transition.System.run_cons_eq_some _).mp hrest
  rw [hs, Option.bind_some] at hstore
  obtain ⟨task, htask, htaskStore⟩ := Option.map_eq_some_iff.mp hstore
  rw [Transition.System.run_append, hs, Option.bind_some, Transition.System.run_cons,
    hend] at hended
  obtain ⟨hidle, hnone⟩ := Prod.mk.inj (Option.some.inj hended)
  refine hsafe s task ended final 0 hs htask ?_ hend ?_ ?_ ?_ hafter ⟨_, _, hconn⟩
  · rintro ⟨bond, hmem, hactive, -⟩
    rw [htaskStore] at hmem
    obtain rfl := List.mem_singleton.mp hmem
    exact absurd hactive (by decide)
  · exact Option.not_isSome_iff_eq_none.mp (by rw [hidle]; exact Bool.false_ne_true)
  · intro conn hnew
    rw [show ended.connections 0 = none from hnone] at hnew
    cases hnew
  · refine Transition.System.allSteps_of_forall _ ?_ ended
    simp [knownExchange, exchangeOf, NotRebonded]

theorem revocation_safe_confirmed_removal :
    RevocationSafe KnownAnswer.primitives KnownAnswer.peerId knownInitial
      (revokingReload (.ok ())) (.reloadEnd 0 (.ok ())) knownExchange := by
  refine revocation_safe ⟨_, _, _, _, rfl⟩ ?_
  refine Transition.System.allSteps_of_forall _ ?_ knownInitial
  simp [revokingReload, RemovalSucceeds]

end Syauth.Presenced
