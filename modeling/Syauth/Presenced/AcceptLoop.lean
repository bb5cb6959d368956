import Syauth.Presenced.Rpc
import Syauth.Presenced.Peers
import Syauth.Transition.System
import Mathlib.Data.List.Infix

/-! # The accept loop

`serve`, `spawn_connection` and `handle_connection` of `server.rs`: the listen queue of the
kernel, the loop with its semaphore, and one task for each connection that has a permit.
What the clients send, what `dispatch` answers and when the shutdown is sent stands in the
labels.  A response fits into the buffer of its socket, so that only the read of a request
waits for the client.
-/

namespace Syauth.Presenced.AcceptLoop

def concurrentAcceptCap : Nat := 4

inductive HandlerError where
  | peerCredentials
  | frame
  deriving DecidableEq

/-- Where a connection stands. -/
inductive Place where
  | unborn
  /-- In the listen queue. -/
  | queued
  /-- Accepted, while the loop waits for a permit. -/
  | accepted
  | reading
  | dispatching
  | writing (response : Response)
  | closed
  deriving DecidableEq

structure Server where
  place : CallId → Place
  backlog : List CallId
  /-- The stream for which the loop waits in `acquire_owned`. -/
  pending : Option CallId
  permits : Nat
  tasks : List CallId
  /-- The shutdown has been sent. -/
  stopping : Bool
  /-- `serve` has not returned. -/
  running : Bool

def Server.new : Server where
  place _ := .unborn
  backlog := []
  pending := none
  permits := concurrentAcceptCap
  tasks := []
  stopping := false
  running := true

inductive Event where
  | connect (c : CallId)
  | accept
  | acceptFails
  | acquire
  /-- The credentials and the frame of the client, which the task awaits. -/
  | request (c : CallId) (result : Except HandlerError Request)
  | dispatched (c : CallId) (response : Response)
  | written (c : CallId) (ok : Bool)
  | shutdown
  /-- The loop sees the shutdown and returns; the listener is dropped. -/
  | halt
  /-- The runtime is dropped, and the tasks with it. -/
  | exit
  deriving DecidableEq

namespace Server

variable (s : Server)

def move (c : CallId) (place : Place) : Server :=
  { s with place := Function.update s.place c place }

/-- The task of a connection ends, and its permit is given back. -/
def finish (c : CallId) : Server :=
  { s.move c .closed with tasks := s.tasks.erase c, permits := s.permits + 1 }

/-- Connections that nobody serves any more. -/
def drop (connections : List CallId) : Server :=
  { s with place := fun c => if c ∈ connections then .closed else s.place c }

end Server

def step (s : Server) : Event → Option Server
  | .connect c =>
      if s.running ∧ s.place c = .unborn then
        some { s.move c .queued with backlog := s.backlog ++ [c] }
      else none
  | .accept =>
      -- `biased`: the shutdown is polled first
      if s.running ∧ !s.stopping ∧ s.pending = none then
        match s.backlog with
        | c :: backlog => some { s.move c .accepted with backlog, pending := some c }
        | [] => none
      else none
  | .acceptFails => if s.running ∧ !s.stopping ∧ s.pending = none then some s else none
  | .acquire =>
      match s.pending, s.permits with
      | some c, permits + 1 =>
          some { s.move c .reading with pending := none, permits, tasks := s.tasks ++ [c] }
      | _, _ => none
  | .request c result =>
      if s.place c = .reading then
        match result with
        | .ok _ => some (s.move c .dispatching)
        | .error _ => some (s.finish c)
      else none
  | .dispatched c response =>
      if s.place c = .dispatching then some (s.move c (.writing response)) else none
  | .written c _ =>
      match s.place c with
      | .writing _ => some (s.finish c)
      | _ => none
  | .shutdown => some { s with stopping := true }
  | .halt =>
      if s.running ∧ s.stopping ∧ s.pending = none then
        some { s.drop s.backlog with backlog := [], running := false }
      else none
  | .exit =>
      if s.running then none
      else some { s.drop s.tasks with tasks := [], permits := concurrentAcceptCap }

def server : Transition.System Server Event where
  start s := s = .new
  step := step

/-! ## What a step does -/

variable {s t : Server}

inductive Step (s : Server) : Event → Server → Prop where
  | connect {c} (hrunning : s.running = true) (hunborn : s.place c = .unborn) :
      Step s (.connect c) { s.move c .queued with backlog := s.backlog ++ [c] }
  | accept {c backlog} (hrunning : s.running = true) (hbacklog : s.backlog = c :: backlog)
      (hpending : s.pending = none) :
      Step s .accept { s.move c .accepted with backlog, pending := some c }
  | acceptFails : Step s .acceptFails s
  | acquire {c permits} (hpending : s.pending = some c) (hpermits : s.permits = permits + 1) :
      Step s .acquire { s.move c .reading with pending := none, permits, tasks := s.tasks ++ [c] }
  | request {c request} (hplace : s.place c = .reading) :
      Step s (.request c (.ok request)) (s.move c .dispatching)
  | requestFails {c err} (hplace : s.place c = .reading) :
      Step s (.request c (.error err)) (s.finish c)
  | dispatched {c response} (hplace : s.place c = .dispatching) :
      Step s (.dispatched c response) (s.move c (.writing response))
  | written {c response ok} (hplace : s.place c = .writing response) :
      Step s (.written c ok) (s.finish c)
  | shutdown : Step s .shutdown { s with stopping := true }
  | halt (hrunning : s.running = true) (hpending : s.pending = none) :
      Step s .halt { s.drop s.backlog with backlog := [], running := false }
  | exit (hreturned : s.running = false) :
      Step s .exit { s.drop s.tasks with tasks := [], permits := concurrentAcceptCap }

theorem step_sound {event : Event} (hstep : server.step s event = some t) : Step s event t := by
  change step s event = some t at hstep
  unfold step at hstep
  split at hstep
  next c =>
    split at hstep
    next hready => exact Option.some.inj hstep ▸ .connect hready.1 hready.2
    next => cases hstep
  next =>
    split at hstep
    next hready =>
      split at hstep
      next c backlog hbacklog =>
        exact Option.some.inj hstep ▸ .accept hready.1 hbacklog hready.2.2
      next => cases hstep
    next => cases hstep
  next =>
    split at hstep
    next => exact Option.some.inj hstep ▸ .acceptFails
    next => cases hstep
  next =>
    split at hstep
    next c permits hpending hpermits => exact Option.some.inj hstep ▸ .acquire hpending hpermits
    next => cases hstep
  next c result =>
    split at hstep
    next hplace =>
      split at hstep
      next => exact Option.some.inj hstep ▸ .request hplace
      next => exact Option.some.inj hstep ▸ .requestFails hplace
    next => cases hstep
  next c response =>
    split at hstep
    next hplace => exact Option.some.inj hstep ▸ .dispatched hplace
    next => cases hstep
  next c ok =>
    split at hstep
    next response hplace => exact Option.some.inj hstep ▸ .written hplace
    next => cases hstep
  next => exact Option.some.inj hstep ▸ .shutdown
  next =>
    split at hstep
    next hready => exact Option.some.inj hstep ▸ .halt hready.1 hready.2.2
    next => cases hstep
  next =>
    split at hstep
    next => cases hstep
    next hreturned => exact Option.some.inj hstep ▸ .exit (Bool.eq_false_iff.mpr hreturned)

/-! ## The lists and the places -/

/-- A task has the connection. -/
def Place.served : Place → Bool
  | .reading | .dispatching | .writing _ => true
  | .unborn | .queued | .accepted | .closed => false

/-- Each connection is where the lists say, and each task has one of the permits. -/
structure Server.Sound (s : Server) : Prop where
  mem_backlog : ∀ c, c ∈ s.backlog ↔ s.place c = .queued
  pending_eq : ∀ c, s.pending = some c ↔ s.place c = .accepted
  mem_tasks : ∀ c, c ∈ s.tasks ↔ (s.place c).served = true
  nodup_backlog : s.backlog.Nodup
  nodup_tasks : s.tasks.Nodup
  permits_add : s.permits + s.tasks.length = concurrentAcceptCap

theorem sound_new : Server.new.Sound where
  mem_backlog c := by simp [Server.new]
  pending_eq c := by simp [Server.new]
  mem_tasks c := by simp [Server.new, Place.served]
  nodup_backlog := List.nodup_nil
  nodup_tasks := List.nodup_nil
  permits_add := rfl

theorem Server.place_move (s : Server) (c d : CallId) (place : Place) :
    (s.move c place).place d = if d = c then place else s.place d :=
  Function.update_apply s.place c place d

/-- A move between two places of a task. -/
theorem Server.Sound.move (hsound : s.Sound) {c : CallId} {place : Place}
    (hfrom : (s.place c).served = true) (hto : place.served = true) : (s.move c place).Sound := by
  have hplaces : ∀ other : Place, other.served = false → other ≠ place ∧ other ≠ s.place c := by
    intro other hother
    constructor
    · rintro rfl
      rw [hother] at hto
      cases hto
    · rintro rfl
      rw [hother] at hfrom
      cases hfrom
  have hkept : ∀ d other, other.served = false →
      (s.place d = other ↔ (s.move c place).place d = other) := by
    intro d other hother
    obtain ⟨hnew, hold⟩ := hplaces other hother
    rw [s.place_move]
    split
    next heq => rw [heq]; exact iff_of_false hold.symm hnew.symm
    next => rfl
  constructor
  · exact fun d => (hsound.mem_backlog d).trans (hkept d .queued rfl)
  · exact fun d => (hsound.pending_eq d).trans (hkept d .accepted rfl)
  · intro d
    rw [s.place_move]
    split
    next heq => rw [heq]; exact iff_of_true ((hsound.mem_tasks c).mpr hfrom) hto
    next => exact hsound.mem_tasks d
  · exact hsound.nodup_backlog
  · exact hsound.nodup_tasks
  · exact hsound.permits_add

theorem Server.Sound.finish (hsound : s.Sound) {c : CallId} (hfrom : (s.place c).served = true) :
    (s.finish c).Sound := by
  have hmem : c ∈ s.tasks := (hsound.mem_tasks c).mpr hfrom
  have hplace : ∀ d, (s.finish c).place d = if d = c then .closed else s.place d :=
    fun d => s.place_move c d .closed
  constructor
  · intro d
    rw [hplace]
    split
    next heq =>
      rw [heq]
      refine iff_of_false (fun hqueued => ?_) nofun
      rw [(hsound.mem_backlog c).mp hqueued] at hfrom
      cases hfrom
    next => exact hsound.mem_backlog d
  · intro d
    rw [hplace]
    split
    next heq =>
      rw [heq]
      refine iff_of_false (fun hpending => ?_) nofun
      rw [(hsound.pending_eq c).mp hpending] at hfrom
      cases hfrom
    next => exact hsound.pending_eq d
  · intro d
    rw [hplace]
    change d ∈ s.tasks.erase c ↔ _
    rw [hsound.nodup_tasks.mem_erase_iff]
    split
    next heq => exact iff_of_false (fun h => h.1 heq) nofun
    next hne => rw [← hsound.mem_tasks d]; exact and_iff_right hne
  · exact hsound.nodup_backlog
  · exact hsound.nodup_tasks.erase c
  · have hlen := List.length_erase_of_mem hmem
    have hpos := List.length_pos_of_mem hmem
    have hpermits := hsound.permits_add
    change s.permits + 1 + (s.tasks.erase c).length = _
    omega

/-- The places of the connections that are dropped are closed, the other ones stay. -/
theorem Server.place_drop (s : Server) (connections : List CallId) (d : CallId) :
    (s.drop connections).place d = if d ∈ connections then .closed else s.place d := rfl

theorem Server.Sound.connect (hsound : s.Sound) {c : CallId} (hunborn : s.place c = .unborn) :
    ({ s.move c .queued with backlog := s.backlog ++ [c] } : Server).Sound := by
  have hplace : ∀ d, (s.move c .queued).place d = if d = c then .queued else s.place d :=
    fun d => s.place_move c d .queued
  have hfresh : c ∉ s.backlog ∧ s.pending ≠ some c ∧ c ∉ s.tasks := by
    rw [hsound.mem_backlog, ne_eq, hsound.pending_eq, hsound.mem_tasks, hunborn]
    exact ⟨nofun, nofun, nofun⟩
  constructor
  · intro d
    change d ∈ s.backlog ++ [c] ↔ (s.move c .queued).place d = .queued
    rw [hplace, List.mem_append, List.mem_singleton]
    split
    next heq => exact iff_of_true (.inr heq) rfl
    next hne => rw [or_iff_left hne]; exact hsound.mem_backlog d
  · intro d
    change s.pending = some d ↔ (s.move c .queued).place d = .accepted
    rw [hplace]
    split
    next heq => rw [heq]; exact iff_of_false hfresh.2.1 nofun
    next => exact hsound.pending_eq d
  · intro d
    change d ∈ s.tasks ↔ ((s.move c .queued).place d).served = true
    rw [hplace]
    split
    next heq => rw [heq]; exact iff_of_false hfresh.2.2 nofun
    next => exact hsound.mem_tasks d
  · exact List.nodup_append.mpr ⟨hsound.nodup_backlog, List.nodup_singleton c, fun d hd e he => by
      rw [List.mem_singleton.mp he]
      rintro rfl
      exact hfresh.1 hd⟩
  · exact hsound.nodup_tasks
  · exact hsound.permits_add

theorem Server.Sound.accept (hsound : s.Sound) {c : CallId} {backlog : List CallId}
    (hbacklog : s.backlog = c :: backlog) (hpending : s.pending = none) :
    ({ s.move c .accepted with backlog, pending := some c } : Server).Sound := by
  have hplace : ∀ d, (s.move c .accepted).place d = if d = c then .accepted else s.place d :=
    fun d => s.place_move c d .accepted
  have hnodup := hsound.nodup_backlog
  rw [hbacklog, List.nodup_cons] at hnodup
  have hqueued : s.place c = .queued := by
    rw [← hsound.mem_backlog, hbacklog]
    exact List.mem_cons_self
  have hnone : ∀ d, s.place d ≠ .accepted := fun d haccepted => by
    rw [← hsound.pending_eq, hpending] at haccepted
    cases haccepted
  constructor
  · intro d
    change d ∈ backlog ↔ (s.move c .accepted).place d = .queued
    rw [hplace]
    split
    next heq => rw [heq]; exact iff_of_false hnodup.1 nofun
    next hne => rw [← hsound.mem_backlog, hbacklog, List.mem_cons, or_iff_right hne]
  · intro d
    change some c = some d ↔ (s.move c .accepted).place d = .accepted
    rw [hplace, Option.some.injEq]
    split
    next heq => exact iff_of_true heq.symm rfl
    next hne => exact iff_of_false (fun heq => hne heq.symm) (hnone d)
  · intro d
    change d ∈ s.tasks ↔ ((s.move c .accepted).place d).served = true
    rw [hplace, hsound.mem_tasks]
    split
    next heq => rw [heq, hqueued]; exact iff_of_false nofun nofun
    next => rfl
  · exact hnodup.2
  · exact hsound.nodup_tasks
  · exact hsound.permits_add

theorem Server.Sound.acquire (hsound : s.Sound) {c : CallId} {permits : Nat}
    (hpending : s.pending = some c) (hpermits : s.permits = permits + 1) :
    ({ s.move c .reading with pending := none, permits, tasks := s.tasks ++ [c] } :
      Server).Sound := by
  have hplace : ∀ d, (s.move c .reading).place d = if d = c then .reading else s.place d :=
    fun d => s.place_move c d .reading
  have haccepted : s.place c = .accepted := (hsound.pending_eq c).mp hpending
  have hidle : c ∉ s.tasks := by
    rw [hsound.mem_tasks, haccepted]
    exact nofun
  constructor
  · intro d
    change d ∈ s.backlog ↔ (s.move c .reading).place d = .queued
    rw [hplace, hsound.mem_backlog]
    split
    next heq => rw [heq, haccepted]; exact iff_of_false nofun nofun
    next => rfl
  · intro d
    change none = some d ↔ (s.move c .reading).place d = .accepted
    rw [hplace]
    split
    next => exact iff_of_false nofun nofun
    next hne =>
      refine iff_of_false nofun fun hother => hne ?_
      rw [← hsound.pending_eq, hpending] at hother
      exact (Option.some.inj hother).symm
  · intro d
    change d ∈ s.tasks ++ [c] ↔ ((s.move c .reading).place d).served = true
    rw [hplace, List.mem_append, List.mem_singleton]
    split
    next heq => exact iff_of_true (.inr heq) rfl
    next hne => rw [or_iff_left hne, hsound.mem_tasks]
  · exact hsound.nodup_backlog
  · exact List.nodup_append.mpr ⟨hsound.nodup_tasks, List.nodup_singleton c, fun d hd e he => by
      rw [List.mem_singleton.mp he]
      rintro rfl
      exact hidle hd⟩
  · have hadd := hsound.permits_add
    change permits + (s.tasks ++ [c]).length = _
    rw [List.length_append, List.length_singleton]
    omega

theorem Server.Sound.halt (hsound : s.Sound) :
    ({ s.drop s.backlog with backlog := [], running := false } : Server).Sound := by
  have hkept : ∀ d, s.place d ≠ .queued → (s.drop s.backlog).place d = s.place d := fun d hplace =>
    if_neg fun hmem => hplace ((hsound.mem_backlog d).mp hmem)
  have hclosed : ∀ d, s.place d = .queued → (s.drop s.backlog).place d = .closed :=
    fun d hplace => if_pos ((hsound.mem_backlog d).mpr hplace)
  constructor
  · intro d
    refine iff_of_false List.not_mem_nil fun hqueued => ?_
    change (s.drop s.backlog).place d = .queued at hqueued
    by_cases hplace : s.place d = .queued
    · rw [hclosed d hplace] at hqueued
      cases hqueued
    · exact hplace ((hkept d hplace).symm.trans hqueued)
  · intro d
    change s.pending = some d ↔ (s.drop s.backlog).place d = .accepted
    rw [hsound.pending_eq]
    by_cases hplace : s.place d = .queued
    · rw [hclosed d hplace, hplace]
      exact iff_of_false nofun nofun
    · rw [hkept d hplace]
  · intro d
    change d ∈ s.tasks ↔ ((s.drop s.backlog).place d).served = true
    rw [hsound.mem_tasks]
    by_cases hplace : s.place d = .queued
    · rw [hclosed d hplace, hplace]
      exact iff_of_false nofun nofun
    · rw [hkept d hplace]
  · exact List.nodup_nil
  · exact hsound.nodup_tasks
  · exact hsound.permits_add

theorem Server.Sound.exit (hsound : s.Sound) :
    ({ s.drop s.tasks with tasks := [], permits := concurrentAcceptCap } : Server).Sound := by
  have hkept : ∀ d, (s.place d).served = false → (s.drop s.tasks).place d = s.place d :=
    fun d hplace => if_neg fun hmem => by
      rw [hsound.mem_tasks, hplace] at hmem
      cases hmem
  have hclosed : ∀ d, (s.place d).served = true → (s.drop s.tasks).place d = .closed :=
    fun d hplace => if_pos ((hsound.mem_tasks d).mpr hplace)
  have hiff : ∀ d (place : Place), place.served = false → place ≠ .closed →
      (s.place d = place ↔ (s.drop s.tasks).place d = place) := by
    intro d place hplace hopen
    cases hserved : (s.place d).served with
    | false => rw [hkept d hserved]
    | true =>
        rw [hclosed d hserved]
        refine iff_of_false (fun heq => ?_) hopen.symm
        rw [heq, hplace] at hserved
        cases hserved
  constructor
  · exact fun d => (hsound.mem_backlog d).trans (hiff d .queued rfl nofun)
  · exact fun d => (hsound.pending_eq d).trans (hiff d .accepted rfl nofun)
  · intro d
    refine iff_of_false List.not_mem_nil fun htask => ?_
    change ((s.drop s.tasks).place d).served = true at htask
    cases hserved : (s.place d).served with
    | false =>
        rw [hkept d hserved, hserved] at htask
        cases htask
    | true =>
        rw [hclosed d hserved] at htask
        cases htask
  · exact hsound.nodup_backlog
  · exact List.nodup_nil
  · rfl

theorem Server.Sound.step (hsound : s.Sound) {event : Event}
    (hstep : server.step s event = some t) : t.Sound := by
  have hcases := step_sound hstep
  cases hcases with
  | connect hrunning hunborn => exact hsound.connect hunborn
  | accept hrunning hbacklog hpending => exact hsound.accept hbacklog hpending
  | acceptFails => exact hsound
  | acquire hpending hpermits => exact hsound.acquire hpending hpermits
  | request hplace => exact hsound.move (by rw [hplace]; rfl) rfl
  | requestFails hplace => exact hsound.finish (by rw [hplace]; rfl)
  | dispatched hplace => exact hsound.move (by rw [hplace]; rfl) rfl
  | written hplace => exact hsound.finish (by rw [hplace]; rfl)
  | shutdown => exact ⟨hsound.1, hsound.2, hsound.3, hsound.4, hsound.5, hsound.6⟩
  | halt => exact hsound.halt
  | exit => exact hsound.exit

theorem sound_run {events : List Event} (hrun : server.run .new events = some t) : t.Sound :=
  server.run_invariant Server.Sound (fun _ _ _ hsound => hsound.step) sound_new hrun

end Syauth.Presenced.AcceptLoop
