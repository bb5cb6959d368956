import Syauth.Transport.Operations

/-! # What a waiting challenge holds up

`wait_for_response` keeps the lock of the peers map while it waits for a frame.  The
other operations of the peripheral can go on without it as long as they do not come
after it at that lock.
-/

namespace Syauth.Transport

open Transition.FifoLock

variable {prim : Primitives} {s s' : State} {t : TaskId} {phase phase' : Phase} {answer : Answer}

/-! ## Runs in which some tasks do not take part -/

variable (prim) in
/-- The second state can follow the first without a step of the quiet tasks. -/
def Reaches (quiet : List TaskId) (s s' : State) : Prop :=
  ∃ events, (∀ e ∈ events, ∀ t ∈ quiet, e.task ≠ some t) ∧
    (concurrent prim).run s events = some s'

variable (prim) in
/-- A task can take its next step before the other takes one. -/
def CanMoveWithout (other t : TaskId) (s : State) : Prop :=
  ∃ s', Reaches prim [other, t] s s' ∧ ∃ answer next, step prim s' (.move t answer) = some next

section Reaches

variable {quiet : List TaskId} {s'' : State}

theorem Reaches.refl (quiet : List TaskId) (s : State) : Reaches prim quiet s s :=
  ⟨[], fun _ hmem => (nomatch hmem), rfl⟩

theorem Reaches.trans (hfirst : Reaches prim quiet s s') (hsecond : Reaches prim quiet s' s'') :
    Reaches prim quiet s s'' := by
  obtain ⟨first, hquiet, hrun⟩ := hfirst
  obtain ⟨second, hquiet', hrun'⟩ := hsecond
  refine ⟨first ++ second, ?_, (concurrent prim).run_append_eq_some.mpr ⟨s', hrun, hrun'⟩⟩
  intro e he
  rcases List.mem_append.mp he with hold | hnew
  · exact hquiet e hold
  · exact hquiet' e hnew

theorem Reaches.mono {fewer : List TaskId} (hreach : Reaches prim quiet s s')
    (hsub : fewer ⊆ quiet) : Reaches prim fewer s s' := by
  obtain ⟨events, hquiet, hrun⟩ := hreach
  exact ⟨events, fun e he t ht => hquiet e he t (hsub ht), hrun⟩

theorem Reaches.consistent (hreach : Reaches prim quiet s s')
    (hcons : Consistent s.queues s.locks) : Consistent s'.queues s'.locks := by
  obtain ⟨events, -, hrun⟩ := hreach
  exact consistent_run hcons hrun

/-- A move of a task that is not quiet. -/
theorem reaches_goTo {next : Phase × Shared} (ht : t ∉ quiet) (htask : s.tasks t = some phase)
    (hholds : Holds s.queues t phase.locks)
    (hadvance : advance prim s.shared phase answer = some next) :
    Reaches prim quiet s (s.goTo t next.1 next.2) := by
  refine ⟨[.move t answer], ?_, ?_⟩
  · intro e he q hq htaskq
    rw [List.mem_singleton.mp he] at htaskq
    cases htaskq
    exact ht hq
  · refine (concurrent prim).run_cons_eq_some.mpr ⟨_, ?_, rfl⟩
    exact step_move_eq_some htask hholds hadvance

theorem Reaches.tasks_eq (hreach : Reaches prim quiet s s') (ht : t ∈ quiet) :
    s'.tasks t = s.tasks t := by
  obtain ⟨events, hquiet, hrun⟩ := hreach
  induction events generalizing s with
  | nil =>
      cases hrun
      rfl
  | cons e events ih =>
      obtain ⟨next, hstep, hrest⟩ := (concurrent prim).run_cons_eq_some.mp hrun
      have hnext : s'.tasks t = next.tasks t :=
        ih (fun e' he' => hquiet e' (List.mem_cons_of_mem e he')) hrest
      rw [hnext]
      obtain ⟨mover, phase, shared, htask, -, -, rfl⟩ | ⟨-, -, htasks⟩ := step_cases hstep
      · have hne : t ≠ mover := by
          rintro rfl
          exact hquiet e List.mem_cons_self t ht htask
        exact Function.update_of_ne hne _ _
      · rw [htasks]

theorem Reaches.locks_eq (hreach : Reaches prim quiet s s') (ht : t ∈ quiet) :
    s'.locks t = s.locks t := by
  rw [State.locks, State.locks, hreach.tasks_eq ht]

/-- The order of two quiet tasks in a queue does not change. -/
theorem Reaches.precedes {first second : TaskId} {l : Lock} (hreach : Reaches prim quiet s s')
    (hcons : Consistent s.queues s.locks) (hfirst : first ∈ quiet) (hsecond : second ∈ quiet)
    (hprec : Precedes (s.queues l) first second) : Precedes (s'.queues l) first second := by
  obtain ⟨events, hquiet, hrun⟩ := hreach
  induction events generalizing s with
  | nil =>
      cases hrun
      exact hprec
  | cons e events ih =>
      obtain ⟨next, hstep, hrest⟩ := (concurrent prim).run_cons_eq_some.mp hrun
      refine ih (consistent_step hcons hstep) ?_
        (fun e' he' => hquiet e' (List.mem_cons_of_mem e he')) hrest
      obtain ⟨mover, phase, shared, htask, hholds, -, rfl⟩ | ⟨-, hqueues, -⟩ := step_cases hstep
      · have hne : ∀ q ∈ quiet, mover ≠ q := by
          rintro q hq rfl
          exact hquiet e List.mem_cons_self mover hq htask
        obtain ⟨hmem, hbefore⟩ := hprec
        refine ⟨?_, mem_before_move hbefore hholds (hne first hfirst) (hne second hsecond) hmem⟩
        exact (mem_move_of_ne hholds (hne second hsecond).symm).mpr hmem
      · rw [hqueues]
        exact hprec

end Reaches

/-- A task behind another in the queue of one of its locks waits for it. -/
theorem not_canMoveWithout_of_precedes {other : TaskId} {l : Lock}
    (hcons : Consistent s.queues s.locks) (hprec : Precedes (s.queues l) other t) :
    ¬ CanMoveWithout prim other t s := by
  rintro ⟨s', hreach, answer, next, hstep⟩
  have hlater : Precedes (s'.queues l) other t :=
    hreach.precedes hcons (List.mem_cons_self) (List.mem_cons_of_mem _ List.mem_cons_self) hprec
  have hmem : l ∈ s'.locks t := ((hreach.consistent hcons).mem_iff l t).mp hlater.1
  obtain ⟨mover, phase, shared, htask, hholds, -, -⟩ | ⟨htask, -, -⟩ := step_cases hstep
  · cases htask
    exact not_holder_of_mem_before hlater.2 (hholds l hmem)
  · cases htask

/-! ## Progress -/

theorem Phase.locks_of_appHandle (hmem : .appHandle ∈ phase.locks) :
    ∃ held, phase.locks = held ++ [.appHandle] := by
  cases phase with
  | addDropHandle | addStoreHandle => exact ⟨[], rfl⟩
  | removeDropHandle => exact ⟨[.peers], rfl⟩
  | _ => simp [Phase.locks] at hmem

/-- A receiver is only asked for with the peers map in hand. -/
theorem Phase.locks_of_responseRx {peerId : String} (hmem : .responseRx peerId ∈ phase.locks) :
    phase.locks = [.peers] ++ [.responseRx peerId] := by
  cases phase with
  | notifyDrain _ frame | waitRecv _ deadlineMs =>
      simp only [Phase.locks, List.mem_cons, reduceCtorEq, Lock.responseRx.injEq, List.not_mem_nil,
        or_false, false_or] at hmem
      rw [hmem]
      rfl
  | _ => simp [Phase.locks] at hmem

theorem Phase.pending_of_mem {l : Lock} (hmem : l ∈ phase.locks) : phase.Pending := by
  cases phase with
  | returned result => cases hmem
  | _ => exact Nat.succ_pos _

theorem exists_phase {l : Lock} (hmem : l ∈ s.locks t) :
    ∃ phase, s.tasks t = some phase ∧ l ∈ phase.locks := by
  unfold State.locks at hmem
  split at hmem
  · cases hmem
  · next phase htask => exact ⟨phase, htask, hmem⟩

/-- The application handle is the last lock a task asks for. -/
theorem holds_of_appHandle (hcons : Consistent s.queues s.locks) (htask : s.tasks t = some phase)
    (hphase : .appHandle ∈ phase.locks) (hholder : (s.queues .appHandle).head? = some t) :
    Holds s.queues t phase.locks := by
  obtain ⟨held, hlocks⟩ := Phase.locks_of_appHandle hphase
  rw [← locks_of_task htask] at hlocks ⊢
  exact hcons.holds hlocks hholder

/-- A task that still waits for the peers map has not asked for the handle. -/
theorem peers_held_of_appHandle (hcons : Consistent s.queues s.locks)
    (hhandle : .appHandle ∈ s.locks t) (hmem : .peers ∈ s.locks t) :
    (s.queues .peers).head? = some t := by
  apply hcons.held t .peers
  obtain ⟨phase, htask, hphase⟩ := exists_phase hhandle
  obtain ⟨held, hlocks⟩ := Phase.locks_of_appHandle hphase
  rw [locks_of_task htask, hlocks, List.mem_append] at hmem
  rw [locks_of_task htask, hlocks, List.dropLast_concat]
  exact hmem.resolve_right (fun hlast => nomatch List.mem_singleton.mp hlast)

variable (prim) in
/-- A task that holds its locks moves on. -/
theorem exists_reaches_goTo (htask : s.tasks t = some phase) (hpending : phase.Pending)
    (hholds : Holds s.queues t phase.locks) :
    ∃ phase' shared', phase'.remaining < phase.remaining ∧
      (.appHandle ∈ phase.locks →
        .appHandle ∉ phase'.locks ∧ (.peers ∈ phase'.locks ↔ .peers ∈ phase.locks)) ∧
      ∀ quiet, t ∉ quiet → Reaches prim quiet s (s.goTo t phase' shared') := by
  obtain ⟨answer, ⟨phase', shared'⟩, hadvance⟩ := exists_advance hpending
  obtain ⟨-, hremaining, hhandle⟩ := advance_spec hadvance
  exact ⟨phase', shared', hremaining, hhandle,
    fun quiet ht => reaches_goTo ht htask hholds hadvance⟩

variable (prim) in
/-- The application handle comes round to each task that asked for it. -/
theorem reaches_appHandle {quiet : List TaskId} (hcons : Consistent s.queues s.locks)
    (hmem : .appHandle ∈ s.locks t) (hquiet : ∀ q ∈ quiet, q = t ∨ .appHandle ∉ s.locks q) :
    ∃ s', Reaches prim (t :: quiet) s s' ∧ (s'.queues .appHandle).head? = some t ∧
      s'.queues .peers = s.queues .peers := by
  have hqueue : t ∈ s.queues .appHandle := (hcons.mem_iff .appHandle t).mpr hmem
  generalize hcount : (before (s.queues .appHandle) t).length = count
  induction count generalizing s with
  | zero =>
      have hholder := holder_of_before_eq_nil hqueue (List.length_eq_zero_iff.mp hcount)
      exact ⟨s, Reaches.refl _ s, hholder, rfl⟩
  | succ count ih =>
      obtain ⟨holder, hholder, hother⟩ := exists_holder_of_before_ne_nil
        (List.ne_nil_of_length_eq_add_one hcount)
      -- The holder waits for nothing else, so it gives the handle up in its next move.
      have hholderMem := hcons.mem_locks_of_holder hholder
      obtain ⟨phase, htask, hphase⟩ := exists_phase hholderMem
      have hholds := holds_of_appHandle hcons htask hphase hholder
      obtain ⟨phase', shared', -, hhandle, hmoves⟩ :=
        exists_reaches_goTo prim htask (Phase.pending_of_mem hphase) hholds
      obtain ⟨hreleased, hpeers⟩ := hhandle hphase
      rw [← locks_of_task htask] at hholds hpeers
      have hloud : holder ∉ t :: quiet := by
        intro hcase
        rcases List.mem_cons.mp hcase with heq | hq
        · exact hother heq
        · exact (hquiet holder hq).elim hother (fun hnot => hnot hholderMem)
      have hreach := hmoves (t :: quiet) hloud
      have hlocksEq : ∀ q ∈ t :: quiet, (s.goTo holder phase' shared').locks q = s.locks q :=
        fun q hq => hreach.locks_eq hq
      have hshorter := before_move_of_released hholds hother hholderMem hreleased
      rw [hshorter, List.length_cons] at hcount
      obtain ⟨s', hreach', hhead, hsame⟩ := ih (s := s.goTo holder phase' shared')
        (hreach.consistent hcons)
        (by rw [hlocksEq t List.mem_cons_self]; exact hmem)
        (fun q hq => by rw [hlocksEq q (List.mem_cons_of_mem t hq)]; exact hquiet q hq)
        ((mem_move_of_ne hholds hother.symm).mpr hqueue)
        (Nat.succ.inj hcount)
      exact ⟨s', hreach.trans hreach', hhead, hsame.trans (move_of_mem_iff hpeers)⟩

variable (prim) in
/-- A task that is not kept from the peers map comes to hold all its locks. -/
theorem reaches_holds (quiet : List TaskId) (hcons : Consistent s.queues s.locks)
    (htask : s.tasks t = some phase)
    (hpeers : .peers ∈ phase.locks → (s.queues .peers).head? = some t)
    (hquiet : ∀ q ∈ quiet, q = t ∨ .appHandle ∉ s.locks q) :
    ∃ s', Reaches prim (t :: quiet) s s' ∧ Holds s'.queues t phase.locks ∧
      s'.queues .peers = s.queues .peers := by
  by_cases hhandle : .appHandle ∈ phase.locks
  · rw [← locks_of_task htask] at hhandle
    obtain ⟨s', hreach, hhead, hsame⟩ := reaches_appHandle prim hcons hhandle hquiet
    have htask' : s'.tasks t = some phase := (hreach.tasks_eq List.mem_cons_self).trans htask
    rw [locks_of_task htask] at hhandle
    exact ⟨s', hreach, holds_of_appHandle (hreach.consistent hcons) htask' hhandle hhead, hsame⟩
  · refine ⟨s, Reaches.refl _ s, ?_, rfl⟩
    intro l hl
    cases l with
    | peers => exact hpeers hl
    | appHandle => exact absurd hl hhandle
    | responseRx peerId =>
        -- Whoever has the receiver has the peers map, and only this task does.
        have hmem : t ∈ s.queues (.responseRx peerId) := by
          rw [hcons.mem_iff, locks_of_task htask]
          exact hl
        obtain ⟨holder, hholder⟩ := Option.isSome_iff_exists.mp
          (List.isSome_head?.mpr (List.ne_nil_of_mem hmem))
        obtain ⟨other, hother, hotherLock⟩ := exists_phase (hcons.mem_locks_of_holder hholder)
        have hheld := hcons.held holder .peers (by
          rw [locks_of_task hother, Phase.locks_of_responseRx hotherLock, List.dropLast_concat]
          exact List.mem_singleton_self _)
        have hown := hpeers (by
          rw [Phase.locks_of_responseRx hl]
          exact List.mem_cons_self)
        rw [hown] at hheld
        rw [hholder, Option.some.inj hheld]

variable (prim) in
/-- The holder of the peers map gives it up. -/
theorem reaches_release (quiet : List TaskId) {holder : TaskId}
    (hcons : Consistent s.queues s.locks) (hholder : (s.queues .peers).head? = some holder)
    (hloud : holder ∉ quiet) (hquiet : ∀ q ∈ quiet, .appHandle ∉ s.locks q) :
    ∃ s', Reaches prim quiet s s' ∧ s'.queues .peers = (s.queues .peers).tail := by
  obtain ⟨phase, htask, hphase⟩ := exists_phase (hcons.mem_locks_of_holder hholder)
  generalize hbudget : phase.remaining = budget
  induction budget using Nat.strong_induction_on generalizing s phase with
  | _ budget ih =>
      obtain ⟨s₁, hreach₁, hholds, hsame⟩ := reaches_holds prim quiet hcons htask
        (fun _ => hholder) (fun q hq => .inr (hquiet q hq))
      have htask₁ := (hreach₁.tasks_eq List.mem_cons_self).trans htask
      obtain ⟨phase', shared', hless, -, hmoves⟩ :=
        exists_reaches_goTo prim htask₁ (Phase.pending_of_mem hphase) hholds
      have hreach : Reaches prim quiet s (s₁.goTo holder phase' shared') :=
        (hreach₁.mono (List.subset_cons_self holder quiet)).trans (hmoves quiet hloud)
      rw [← locks_of_task htask₁] at hphase
      by_cases hkept : .peers ∈ phase'.locks
      · have hqueue : (s₁.goTo holder phase' shared').queues .peers = s.queues .peers :=
          (move_kept hphase hkept).trans hsame
        obtain ⟨s', hreach', htail⟩ := ih phase'.remaining (hbudget ▸ hless)
          (hreach.consistent hcons) (by rw [hqueue]; exact hholder)
          (fun q hq => by rw [hreach.locks_eq hq]; exact hquiet q hq)
          phase' (Function.update_self holder _ _) hkept rfl
        exact ⟨s', hreach.trans hreach', by rw [htail, hqueue]⟩
      · exact ⟨_, hreach, by rw [← hsame]; exact move_released hphase hkept⟩

variable (prim) in
/-- A task that is not behind the other one gets the peers map. -/
theorem reaches_peers {other : TaskId} (hcons : Consistent s.queues s.locks)
    (hother : .appHandle ∉ s.locks other) (hmem : .peers ∈ s.locks t)
    (hfree : other ∉ before (s.queues .peers) t) :
    ∃ s', Reaches prim [other, t] s s' ∧ (s'.queues .peers).head? = some t := by
  have hqueue : t ∈ s.queues .peers := (hcons.mem_iff .peers t).mpr hmem
  generalize hcount : (before (s.queues .peers) t).length = count
  induction count generalizing s with
  | zero =>
      exact ⟨s, Reaches.refl _ s,
        holder_of_before_eq_nil hqueue (List.length_eq_zero_iff.mp hcount)⟩
  | succ count ih =>
      obtain ⟨holder, hholder, hne⟩ := exists_holder_of_before_ne_nil
        (List.ne_nil_of_length_eq_add_one hcount)
      have hotherNe : holder ≠ other := by
        rintro rfl
        exact hfree (holder_mem_before hholder hne)
      have hwaiting : .appHandle ∉ s.locks t := by
        intro hhandle
        have hheld := peers_held_of_appHandle hcons hhandle hmem
        rw [hholder] at hheld
        exact hne (Option.some.inj hheld)
      obtain ⟨s₁, hreach, htail⟩ := reaches_release prim [other, t] hcons hholder
        (by simp [hotherNe, hne]) (by simp [hother, hwaiting])
      have hbefore := before_eq_cons_tail hholder hne
      rw [hbefore, List.length_cons] at hcount
      rw [hbefore, List.mem_cons, not_or] at hfree
      rw [← htail] at hcount hfree
      have hlocks : ∀ q ∈ [other, t], s₁.locks q = s.locks q := fun q hq => hreach.locks_eq hq
      obtain ⟨s', hreach', hhead⟩ := ih (s := s₁) (hreach.consistent hcons)
        (by rw [hlocks other List.mem_cons_self]; exact hother)
        (by rw [hlocks t (List.mem_cons_of_mem _ List.mem_cons_self)]; exact hmem) hfree.2
        (by
          rw [(hreach.consistent hcons).mem_iff,
            hlocks t (List.mem_cons_of_mem _ List.mem_cons_self)]
          exact hmem)
        (Nat.succ.inj hcount)
      exact ⟨s', hreach.trans hreach', hhead⟩

variable (prim) in
theorem canMoveWithout_of_not_precedes {other : TaskId} (hcons : Consistent s.queues s.locks)
    (hother : .appHandle ∉ s.locks other) (htask : s.tasks t = some phase)
    (hpending : phase.Pending) (hfree : ¬ Precedes (s.queues .peers) other t) :
    CanMoveWithout prim other t s := by
  obtain ⟨s₁, hreach₁, hpeers⟩ : ∃ s₁, Reaches prim [other, t] s s₁ ∧
      (.peers ∈ phase.locks → (s₁.queues .peers).head? = some t) := by
    by_cases hmem : .peers ∈ phase.locks
    · rw [← locks_of_task htask] at hmem
      have hbefore : other ∉ before (s.queues .peers) t :=
        fun hbefore => hfree ⟨(hcons.mem_iff .peers t).mpr hmem, hbefore⟩
      obtain ⟨s₁, hreach, hhead⟩ := reaches_peers prim hcons hother hmem hbefore
      exact ⟨s₁, hreach, fun _ => hhead⟩
    · exact ⟨s, Reaches.refl _ s, fun hmem' => absurd hmem' hmem⟩
  have ht : t ∈ [other, t] := List.mem_cons_of_mem _ List.mem_cons_self
  have htask₁ := (hreach₁.tasks_eq ht).trans htask
  obtain ⟨s₂, hreach₂, hholds, -⟩ := reaches_holds prim [other]
    (hreach₁.consistent hcons) htask₁ hpeers (by
      intro q hq
      rw [List.mem_singleton.mp hq, hreach₁.locks_eq List.mem_cons_self]
      exact .inr hother)
  have htask₂ := (hreach₂.tasks_eq List.mem_cons_self).trans htask₁
  obtain ⟨answer, next, hadvance⟩ := exists_advance hpending
  refine ⟨s₂, hreach₁.trans (hreach₂.mono ?_), answer, _,
    step_move_eq_some htask₂ hholds hadvance⟩
  exact List.cons_subset.mpr ⟨List.mem_cons_of_mem _ List.mem_cons_self,
    List.cons_subset.mpr ⟨List.mem_cons_self, List.nil_subset _⟩⟩

/-- The phases of a pending `wait_for_response`. -/
def Phase.WaitsFor (peerId : String) (phase : Phase) : Prop :=
  ∃ deadlineMs, phase = .waitLookup peerId deadlineMs ∨ phase = .waitRecv peerId deadlineMs

/-- While a `wait_for_response` is pending, another operation can take its next step without
it exactly when the wait is not ahead of it at the lock of the peers map.  An operation that
is only now called can always be. -/
theorem wait_isolated_iff_not_precedes (prim : Primitives) (s₀ s : State) (events : List Event)
    (hstart : (concurrent prim).start s₀) (hrun : (concurrent prim).run s₀ events = some s)
    (waiter : TaskId) (peerId : String) (waiting : Phase) (hwaiter : s.tasks waiter = some waiting)
    (hwaits : waiting.WaitsFor peerId) :
    (∀ t phase, t ≠ waiter → s.tasks t = some phase → phase.Pending →
      (CanMoveWithout prim waiter t s ↔ ¬ Precedes (s.queues .peers) waiter t)) ∧
    (∀ t op, s.tasks t = none → ∃ s', step prim s (.call t op) = some s') := by
  have hcons : Consistent s.queues s.locks := consistent_run (consistent_start hstart) hrun
  constructor
  · intro t phase _ htask hpending
    constructor
    · intro hmove hprec
      exact not_canMoveWithout_of_precedes hcons hprec hmove
    · have hhandle : .appHandle ∉ s.locks waiter := by
        rw [locks_of_task hwaiter]
        obtain ⟨deadlineMs, rfl | rfl⟩ := hwaits <;> simp [Phase.locks]
      exact canMoveWithout_of_not_precedes prim hcons hhandle htask hpending
  · intro t op hnone
    exact ⟨s.goTo t op.enter s.shared, by simp only [step, hnone]⟩

/-! ## Two phones, one of them waited for -/

open PersistentPeripheral (fresh twoPhonePrimitives)

def idle : State := ⟨⟨fresh, fun _ => []⟩, fun _ => [], fun _ => none⟩

theorem idle_start : (concurrent twoPhonePrimitives).start idle :=
  ⟨⟨.ok KnownAnswer.otherPubkey, .ok (), rfl⟩, fun _ => rfl, fun _ => rfl⟩

def addEvents (t : TaskId) (peerId : String) (bondKey : BondKey) : List Event :=
  [.call t (.addPeer peerId bondKey), .move t .proceed, .move t .proceed, .move t .proceed,
    .move t (.result (.ok ())), .move t .proceed, .move t .proceed, .move t .proceed]

/-- Both phones are added, task 2 waits for the first one, and task 3 is to challenge the
second. -/
def waitThenNotify : List Event :=
  addEvents 0 KnownAnswer.peerId KnownAnswer.bondKey ++
    addEvents 1 KnownAnswer.otherPeerId KnownAnswer.derivedKey ++
    [.call 2 (.waitForResponse KnownAnswer.peerId 30000), .move 2 .proceed,
      .call 3 (.notifyChallenge KnownAnswer.otherPeerId [])]

theorem run_waitThenNotify :
    ∃ s, (concurrent twoPhonePrimitives).run idle waitThenNotify = some s ∧
      s.tasks 2 = some (.waitRecv KnownAnswer.peerId 30000) ∧
      s.tasks 3 = some (.notifyLookup KnownAnswer.otherPeerId []) ∧
      KnownAnswer.otherPeerId ∈ s.shared.peripheral.peers ∧
      s.queues .peers = [2, 3] :=
  ⟨_, rfl, rfl, rfl, by decide, rfl⟩

theorem wait_isolated_iff_not_precedes_twoPhones :
    ∃ s, (concurrent twoPhonePrimitives).run idle waitThenNotify = some s ∧
      (CanMoveWithout twoPhonePrimitives 2 3 s ↔ ¬ Precedes (s.queues .peers) 2 3) := by
  obtain ⟨s, hrun, hwait, hnotify, -, -⟩ := run_waitThenNotify
  have hisolated := wait_isolated_iff_not_precedes twoPhonePrimitives idle s waitThenNotify
    idle_start hrun 2 KnownAnswer.peerId _ hwait ⟨30000, .inr rfl⟩
  exact ⟨s, hrun, hisolated.1 3 _ (by decide) hnotify (Nat.succ_pos 2)⟩

/-- While the first phone is waited for, the challenge to the second cannot start. -/
theorem waiting_phone_delays_other :
    ∃ s, (concurrent twoPhonePrimitives).start idle ∧
      (concurrent twoPhonePrimitives).run idle waitThenNotify = some s ∧
      s.tasks 2 = some (.waitRecv KnownAnswer.peerId 30000) ∧
      s.tasks 3 = some (.notifyLookup KnownAnswer.otherPeerId []) ∧
      KnownAnswer.otherPeerId ∈ s.shared.peripheral.peers ∧
      ¬ CanMoveWithout twoPhonePrimitives 2 3 s := by
  obtain ⟨s, hrun, hwait, hnotify, hmem, hqueue⟩ := run_waitThenNotify
  refine ⟨s, idle_start, hrun, hwait, hnotify, hmem, ?_⟩
  have hcons := consistent_run (consistent_start idle_start) hrun
  refine not_canMoveWithout_of_precedes (l := .peers) hcons ?_
  rw [hqueue]
  exact ⟨by decide, by decide⟩

end Syauth.Transport
