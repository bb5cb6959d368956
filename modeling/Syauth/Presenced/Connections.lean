import Syauth.Presenced.AcceptLoop

/-! # Connections of the accept loop

What the loop does for its connections over runs: in which order they get their tasks, and when
the loop waits for a client.
-/

namespace Syauth.Presenced.AcceptLoop

variable {s t : Server}

/-! ## The order of the tasks -/

inductive Turn where
  | arrived (c : CallId)
  | started (c : CallId)

/-- A connection enters the listen queue, or gets its task. -/
def turns (s : Server) : Event → List Turn
  | .connect c => [.arrived c]
  | .acquire => s.pending.toList.map .started
  | _ => []

def arrivals (seen : List Turn) : List CallId :=
  seen.filterMap fun
    | .arrived c => some c
    | .started _ => none

def starts (seen : List Turn) : List CallId :=
  seen.filterMap fun
    | .arrived _ => none
    | .started c => some c

theorem arrivals_append (seen more : List Turn) :
    arrivals (seen ++ more) = arrivals seen ++ arrivals more := List.filterMap_append

theorem starts_append (seen more : List Turn) :
    starts (seen ++ more) = starts seen ++ starts more := List.filterMap_append

/-- Nothing is lost on the way from the listen queue to a task. -/
structure InOrder (seen : List Turn) (s : Server) : Prop where
  queue : s.running = true → arrivals seen = starts seen ++ s.pending.toList ++ s.backlog
  returned : s.running = false → s.pending = none ∧ starts seen <+: arrivals seen
  nodup : (arrivals seen).Nodup
  mem : ∀ c ∈ arrivals seen, s.place c ≠ .unborn
  tasks : s.tasks.Sublist (starts seen)

theorem InOrder.starts_prefix {seen : List Turn} (horder : InOrder seen s) :
    starts seen <+: arrivals seen := by
  cases hrunning : s.running with
  | true =>
      rw [horder.queue hrunning, List.append_assoc]
      exact List.prefix_append _ _
  | false => exact (horder.returned hrunning).2

/-- A step in which no connection arrives or gets its task. -/
theorem InOrder.silent {seen : List Turn} (horder : InOrder seen s)
    (hrunning : t.running = s.running) (hpending : t.pending = s.pending)
    (hbacklog : t.backlog = s.backlog) (hplace : ∀ c, s.place c ≠ .unborn → t.place c ≠ .unborn)
    (htasks : t.tasks.Sublist s.tasks) : InOrder (seen ++ []) t := by
  rw [List.append_nil]
  refine ⟨?_, ?_, horder.nodup, fun c hmem => hplace c (horder.mem c hmem),
    htasks.trans horder.tasks⟩
  · rw [hrunning, hpending, hbacklog]
    exact horder.queue
  · rw [hrunning, hpending]
    exact horder.returned

theorem place_move_ne_unborn (c : CallId) (place : Place) (hborn : place ≠ .unborn)
    (d : CallId) (hplace : s.place d ≠ .unborn) : (s.move c place).place d ≠ .unborn := by
  rw [s.place_move]
  split
  · exact hborn
  · exact hplace

theorem place_drop_ne_unborn {connections : List CallId} (d : CallId)
    (hplace : s.place d ≠ .unborn) : (s.drop connections).place d ≠ .unborn := by
  rw [s.place_drop]
  split
  · exact nofun
  · exact hplace

theorem InOrder.step {seen : List Turn} {event : Event} (horder : InOrder seen s)
    (hstep : server.step s event = some t) : InOrder (seen ++ turns s event) t := by
  have hcases := step_sound hstep
  cases hcases with
  | @connect c hrunning hunborn =>
      have hnew : c ∉ arrivals seen := fun hmem => horder.mem c hmem hunborn
      have harrivals : arrivals (seen ++ [.arrived c]) = arrivals seen ++ [c] := arrivals_append ..
      have hstarts : starts (seen ++ [.arrived c]) = starts seen := by
        rw [starts_append]
        exact List.append_nil _
      change InOrder (seen ++ [.arrived c]) _
      refine ⟨fun _ => ?_, fun hreturned => ?_, ?_, ?_, ?_⟩
      · rw [harrivals, hstarts, horder.queue hrunning, List.append_assoc]
        rfl
      · exact absurd (hrunning.symm.trans hreturned) nofun
      · rw [harrivals]
        exact List.nodup_append.mpr ⟨horder.nodup, List.nodup_singleton c, fun d hd e he => by
          rw [List.mem_singleton.mp he]
          rintro rfl
          exact hnew hd⟩
      · intro d hmem
        rw [harrivals] at hmem
        change (s.move c .queued).place d ≠ .unborn
        rcases List.mem_append.mp hmem with hold | hlast
        · exact place_move_ne_unborn c .queued nofun d (horder.mem d hold)
        · rw [s.place_move, if_pos (List.mem_singleton.mp hlast)]
          exact nofun
      · rw [hstarts]
        exact horder.tasks
  | @accept c backlog hrunning hbacklog hpending =>
      have hqueue := horder.queue hrunning
      change InOrder (seen ++ []) _
      rw [List.append_nil]
      refine ⟨fun _ => ?_, fun hreturned => absurd (hrunning.symm.trans hreturned) nofun,
        horder.nodup, fun d hmem =>
          place_move_ne_unborn c .accepted nofun d (horder.mem d hmem), horder.tasks⟩
      rw [hqueue, hpending, hbacklog, Option.toList_none, List.append_nil]
      exact List.append_cons (starts seen) c backlog
  | acceptFails => exact horder.silent rfl rfl rfl (fun _ hplace => hplace) (List.Sublist.refl _)
  | @acquire c permits hpending hpermits =>
      have hturns : turns s .acquire = [.started c] := by rw [turns, hpending]; rfl
      have hstarts : starts (seen ++ [.started c]) = starts seen ++ [c] := starts_append ..
      have harrivals : arrivals (seen ++ [.started c]) = arrivals seen := by
        rw [arrivals_append]
        exact List.append_nil _
      have hrunning : s.running = true := by
        by_contra hreturned
        have hnone := (horder.returned (Bool.eq_false_iff.mpr hreturned)).1
        rw [hpending] at hnone
        cases hnone
      rw [hturns]
      refine ⟨fun _ => ?_, fun hreturned => absurd (hrunning.symm.trans hreturned) nofun, ?_, ?_,
        ?_⟩
      · rw [harrivals, hstarts, horder.queue hrunning, hpending, Option.toList_none,
          List.append_nil]
        rfl
      · rw [harrivals]
        exact horder.nodup
      · intro d hmem
        rw [harrivals] at hmem
        exact place_move_ne_unborn c .reading nofun d (horder.mem d hmem)
      · rw [hstarts]
        exact horder.tasks.append_right [c]
  | request hplace =>
      exact horder.silent rfl rfl rfl (place_move_ne_unborn _ _ nofun) (List.Sublist.refl _)
  | dispatched hplace =>
      exact horder.silent rfl rfl rfl (place_move_ne_unborn _ _ nofun) (List.Sublist.refl _)
  | requestFails hplace | written hplace =>
      exact horder.silent rfl rfl rfl (place_move_ne_unborn _ _ nofun) List.erase_sublist
  | shutdown => exact horder.silent rfl rfl rfl (fun _ hplace => hplace) (List.Sublist.refl _)
  | halt hrunning hpending =>
      change InOrder (seen ++ []) _
      rw [List.append_nil]
      exact ⟨nofun, fun _ => ⟨hpending, horder.starts_prefix⟩, horder.nodup,
        fun d hmem => place_drop_ne_unborn d (horder.mem d hmem), horder.tasks⟩
  | exit hreturned =>
      exact horder.silent rfl rfl rfl place_drop_ne_unborn (List.nil_sublist _)

/-- In every run the connections get their tasks in the order in which they arrived, each of
them once, and none is passed over; no more than four have one at a time, and while the loop
runs all others wait in the listen queue but for one. -/
theorem served_in_order {events : List Event} (hrun : server.run .new events = some t) :
    let seen := server.trace turns .new events
    starts seen <+: arrivals seen ∧ (starts seen).Nodup ∧
      (t.running = true → arrivals seen = starts seen ++ t.pending.toList ++ t.backlog) ∧
      t.tasks.Sublist (starts seen) ∧ t.tasks.length ≤ concurrentAcceptCap := by
  have hstart : InOrder [] .new :=
    ⟨fun _ => rfl, nofun, List.nodup_nil, fun _ hmem => (nomatch hmem), List.Sublist.refl _⟩
  have horder := server.run_trace_invariant turns InOrder
    (fun _ _ _ _ horder hstep => horder.step hstep) hstart hrun
  rw [List.nil_append] at horder
  have hpermits := (sound_run hrun).permits_add
  exact ⟨horder.starts_prefix, horder.nodup.sublist horder.starts_prefix.sublist, horder.queue,
    horder.tasks, by omega⟩

/-- Five clients; the fifth waits for a permit. -/
def fiveClients : List Event :=
  [.connect 0, .connect 1, .connect 2, .connect 3, .connect 4, .accept, .acquire, .accept,
    .acquire, .accept, .acquire, .accept, .acquire, .accept]

theorem served_in_order_five :
    ∃ t, server.run .new fiveClients = some t ∧ t.pending = some 4 ∧
      t.tasks.length ≤ concurrentAcceptCap :=
  ⟨_, rfl, rfl, (@served_in_order _ fiveClients rfl).2.2.2.2⟩

/-! ## When the loop waits for a client -/

/-- What happens without the clients and the signals. -/
def Event.own : Event → Bool
  | .accept | .acquire | .dispatched _ _ | .written _ _ | .halt => true
  | _ => false

/-- The loop holds a connection for which there is no permit, and every task reads. -/
structure Server.Stuck (s : Server) : Prop where
  pending : s.pending.isSome = true
  full : s.tasks.length = concurrentAcceptCap
  reads : ∀ c ∈ s.tasks, s.place c = .reading

theorem Server.Stuck.no_own_step (hstuck : s.Stuck) (hsound : s.Sound) {event : Event}
    (hown : event.own = true) : server.step s event ≠ some t := by
  intro hstep
  have hpermits := hsound.permits_add
  rw [hstuck.full] at hpermits
  have hreads : ∀ c, (s.place c).served = true → s.place c = .reading :=
    fun c hserved => hstuck.reads c ((hsound.mem_tasks c).mpr hserved)
  have hpending := hstuck.pending
  have hcases := step_sound hstep
  cases hcases with
  | accept hrunning hbacklog hnone | halt hrunning hnone =>
      rw [hnone] at hpending
      cases hpending
  | acquire hsome hpositive => omega
  | @dispatched c response hplace | @written c response ok hplace =>
      have hread := hreads c (by rw [hplace]; rfl)
      rw [hplace] at hread
      cases hread
  | _ => cases hown

theorem Server.Stuck.run_eq (hstuck : s.Stuck) (hsound : s.Sound) {own : List Event}
    (hown : ∀ event ∈ own, event.own = true) (hrun : server.run s own = some t) : t = s := by
  cases own with
  | nil => exact (Option.some.inj hrun).symm
  | cons event own =>
      obtain ⟨next, hstep, -⟩ := server.run_cons_eq_some.mp hrun
      exact absurd hstep (hstuck.no_own_step hsound (hown event List.mem_cons_self))

/-- Own steps lead from one state to another, between which neither the shutdown nor the
return of the loop lies. -/
def Reaches (s t : Server) : Prop :=
  ∃ own, (∀ event ∈ own, event.own = true) ∧ server.run s own = some t ∧
    t.running = s.running ∧ t.stopping = s.stopping

theorem Reaches.refl (s : Server) : Reaches s s :=
  ⟨[], fun _ hmem => (nomatch hmem), rfl, rfl, rfl⟩

theorem Reaches.cons {next : Server} {event : Event} (hstep : server.step s event = some next)
    (hown : event.own = true) (hrunning : next.running = s.running)
    (hstopping : next.stopping = s.stopping) (hreaches : Reaches next t) : Reaches s t := by
  obtain ⟨own, howns, hrun, hend, hstop⟩ := hreaches
  refine ⟨event :: own, ?_, server.run_cons_eq_some.mpr ⟨next, hstep, hrun⟩,
    hend.trans hrunning, hstop.trans hstopping⟩
  intro other hmem
  rcases List.mem_cons.mp hmem with rfl | hrest
  · exact hown
  · exact howns other hrest

theorem reaches_of_permit {c : CallId} (hpending : s.pending = some c) (hpermits : 0 < s.permits) :
    ∃ t, Reaches s t ∧ t.pending = none := by
  obtain ⟨permits, hpermits⟩ := Nat.exists_eq_add_one.mpr hpermits
  have hstep : server.step s .acquire =
      some { s.move c .reading with pending := none, permits, tasks := s.tasks ++ [c] } := by
    simp only [server, step]
    rw [hpending, hpermits]
  exact ⟨_, .cons hstep rfl rfl rfl (.refl _), rfl⟩

theorem reaches_of_writing {c d : CallId} {response : Response} (hpending : s.pending = some c)
    (hplace : s.place d = .writing response) : ∃ t, Reaches s t ∧ t.pending = none := by
  have hstep : server.step s (.written d true) = some (s.finish d) := by
    simp only [server, step, hplace]
  obtain ⟨t, hreaches, hfree⟩ := @reaches_of_permit (s.finish d) c hpending (Nat.succ_pos _)
  exact ⟨t, hreaches.cons hstep rfl rfl rfl, hfree⟩

theorem reaches_of_dispatching {c d : CallId} (hpending : s.pending = some c)
    (hplace : s.place d = .dispatching) : ∃ t, Reaches s t ∧ t.pending = none := by
  have hstep : server.step s (.dispatched d .stub) = some (s.move d (.writing .stub)) :=
    if_pos hplace
  have hwriting : (s.move d (.writing .stub)).place d = .writing .stub :=
    Function.update_self d _ _
  obtain ⟨t, hreaches, hfree⟩ :=
    @reaches_of_writing (s.move d (.writing .stub)) c d .stub hpending hwriting
  exact ⟨t, hreaches.cons hstep rfl rfl rfl, hfree⟩

theorem reaches_of_not_stuck (hsound : s.Sound) (hstuck : ¬ s.Stuck) :
    ∃ t, Reaches s t ∧ t.pending = none := by
  cases hpending : s.pending with
  | none => exact ⟨s, .refl s, hpending⟩
  | some c =>
      by_cases hpermits : 0 < s.permits
      · exact reaches_of_permit hpending hpermits
      · have hadd := hsound.permits_add
        have hbusy : ∃ d ∈ s.tasks, s.place d ≠ .reading := by
          by_contra hnone
          refine hstuck ⟨by rw [hpending]; rfl, by omega, fun d hmem => ?_⟩
          by_contra hother
          exact hnone ⟨d, hmem, hother⟩
        obtain ⟨d, hmem, hnot⟩ := hbusy
        have hserved := (hsound.mem_tasks d).mp hmem
        cases hplace : s.place d with
        | reading => exact absurd hplace hnot
        | dispatching => exact reaches_of_dispatching hpending hplace
        | writing response => exact reaches_of_writing hpending hplace
        | _ =>
            rw [hplace] at hserved
            cases hserved

/-- The loop comes back to its `select!` by itself exactly where it is not stuck, and where
the shutdown has been sent it then returns; nothing but a client gets it out, and no task gets
it in: only the accept of a fifth connection does. -/
theorem accept_loop_stuck_iff {events : List Event} (hrun : server.run .new events = some s) :
    ((∃ t, Reaches s t ∧ t.pending = none) ↔ ¬ s.Stuck) ∧
    (s.running = true → s.stopping = true →
      ((∃ own t, (∀ event ∈ own, event.own = true) ∧ server.run s own = some t ∧
        t.running = false) ↔ ¬ s.Stuck)) ∧
    ∀ event t, event.own = true → server.step s event = some t → t.Stuck → event = .accept := by
  have hsound := sound_run hrun
  refine ⟨⟨?_, reaches_of_not_stuck hsound⟩, fun hrunning hstopping => ⟨?_, fun hfree => ?_⟩, ?_⟩
  · rintro ⟨t, ⟨own, hown, hrun, -⟩, hnone⟩ hstuck
    have hpending := hstuck.pending
    rw [← hstuck.run_eq hsound hown hrun, hnone] at hpending
    cases hpending
  · rintro ⟨own, t, hown, hrun, hreturned⟩ hstuck
    rw [hstuck.run_eq hsound hown hrun, hrunning] at hreturned
    cases hreturned
  · obtain ⟨t, ⟨own, hown, hrun, hrun', hstop⟩, hnone⟩ := reaches_of_not_stuck hsound hfree
    have hhalt : server.step t .halt =
        some { t.drop t.backlog with backlog := [], running := false } :=
      if_pos ⟨hrun'.trans hrunning, hstop.trans hstopping, hnone⟩
    refine ⟨own ++ [.halt], _, fun event hmem => ?_, server.run_append_eq_some.mpr
      ⟨t, hrun, server.run_cons_eq_some.mpr ⟨_, hhalt, rfl⟩⟩, rfl⟩
    rcases List.mem_append.mp hmem with hold | hlast
    · exact hown event hold
    · rw [List.mem_singleton.mp hlast]
      rfl
  · intro event t hown hstep hstuck
    have hcases := step_sound hstep
    cases hcases with
    | accept => rfl
    | acquire => cases hstuck.pending
    | halt hrunning hpending =>
        have hsome : s.pending.isSome = true := hstuck.pending
        rw [hpending] at hsome
        cases hsome
    | @dispatched c response hplace =>
        have hmem : c ∈ s.tasks := (hsound.mem_tasks c).mpr (by rw [hplace]; rfl)
        have hread := hstuck.reads c hmem
        rw [s.place_move, if_pos rfl] at hread
        cases hread
    | @written c response ok hplace =>
        have hmem : c ∈ s.tasks := (hsound.mem_tasks c).mpr (by rw [hplace]; rfl)
        have hfull : (s.tasks.erase c).length = concurrentAcceptCap := hstuck.full
        have hlen := List.length_erase_of_mem hmem
        have hpos := List.length_pos_of_mem hmem
        have hadd := hsound.permits_add
        omega
    | _ => cases hown

theorem accept_loop_stuck_iff_five :
    ∃ s, server.run .new (fiveClients ++ [.shutdown]) = some s ∧ s.Stuck ∧
      ¬ ∃ own t, (∀ event ∈ own, event.own = true) ∧ server.run s own = some t ∧
        t.running = false := by
  refine ⟨_, rfl, ⟨rfl, rfl, by decide⟩, fun hreturns => ?_⟩
  exact ((@accept_loop_stuck_iff _ (fiveClients ++ [.shutdown]) rfl).2.1 rfl rfl).mp hreturns
    ⟨rfl, rfl, by decide⟩

end Syauth.Presenced.AcceptLoop
