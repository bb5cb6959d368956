import Syauth.Presenced.Lifecycle
import Mathlib.Tactic.Tauto

/-! # The socket file of the daemons

`serve` binds the socket by its path, and its guard unlinks the path.  A `bind` is refused
where any file is, so the file itself keeps two daemons apart, and a file whose owner died
without its guard keeps all of them away.  A daemon that could not bind its socket notices it
only when it is told to stop, and holds the pidfile lock until then.
-/

namespace Syauth.Presenced.Lifecycle

open Transition PidFileLock

variable {config : Pid → Config} {s t : State} {event : Event}

/-! ## The owner of a socket file -/

/-- The process has bound the path and has neither returned nor died. -/
def State.Binds (config : Pid → Config) (s : State) (p : Pid) (path : Path) : Prop :=
  (s.serve p).binds = true ∧ (config p).socket = path

/-- Nobody but the daemons removes the socket file of the path. -/
def KeepsSocket (path : Path) (_ : State) (event : Event) : Prop := event ≠ .removeSocket path

/-- A process that has bound the path owns the file there. -/
def State.Owned (config : Pid → Config) (path : Path) (s : State) : Prop :=
  ∀ p, s.Binds config p path → s.sockets path = some p

/-- The socket file of the path has outlived the task that bound it. -/
def State.Stale (config : Pid → Config) (path : Path) (s : State) : Prop :=
  ∃ p, s.sockets path = some p ∧ ¬ s.Binds config p path

/-- The step ends the task that has bound the path and leaves its file behind. -/
def Leaves (config : Pid → Config) (path : Path) (s : State) : Event → Prop
  | .kill p => s.Binds config p path
  | .setSocketMode p false | .halt p false => (config p).socket = path
  | _ => False

variable {path : Path}

theorem State.binds_of_update {p q : Pid} {serve : Serve}
    (hserve : t.serve = Function.update s.serve p serve)
    (hback : serve.binds = true → (s.serve p).binds = true) (hbinds : t.Binds config q path) :
    s.Binds config q path := by
  refine ⟨?_, hbinds.2⟩
  have hq := hbinds.1
  rw [hserve] at hq
  by_cases hsame : q = p
  · subst hsame
    rw [Function.update_self] at hq
    exact hback hq
  · rwa [Function.update_of_ne hsame] at hq

theorem State.binds_update_of_ne {p q : Pid} {serve : Serve}
    (hserve : t.serve = Function.update s.serve p serve) (hne : q ≠ p)
    (hbinds : s.Binds config q path) : t.Binds config q path := by
  refine ⟨?_, hbinds.2⟩
  rw [hserve, Function.update_of_ne hne]
  exact hbinds.1

theorem State.Owned.unique (howned : s.Owned config path) {p q : Pid}
    (hp : s.Binds config p path) (hq : s.Binds config q path) : p = q :=
  Option.some.inj ((howned p hp).symm.trans (howned q hq))

theorem State.Owned.not_binds_of_stale (howned : s.Owned config path)
    (hstale : s.Stale config path) (p : Pid) : ¬ s.Binds config p path := by
  obtain ⟨owner, hsocket, hunbound⟩ := hstale
  intro hbinds
  obtain rfl := Option.some.inj (hsocket.symm.trans (howned p hbinds))
  exact hunbound hbinds

theorem State.Owned.of_frame (howned : s.Owned config path)
    (hsockets : t.sockets path = s.sockets path)
    (hback : ∀ p, t.Binds config p path → s.Binds config p path) : t.Owned config path :=
  fun p hbinds => hsockets.trans (howned p (hback p hbinds))

/-- The file that a guard unlinks is its own. -/
theorem State.Owned.sockets_halted (howned : s.Owned config path) {p owner : Pid}
    (hserve : s.serve p = .listening) (hsocket : s.sockets path = some owner)
    (hne : owner ≠ p) : (config p).socket ≠ path := by
  rintro rfl
  have hbinds : s.Binds config p (config p).socket := ⟨by rw [hserve]; rfl, rfl⟩
  exact hne (Option.some.inj (hsocket.symm.trans (howned p hbinds)))

theorem State.Owned.step (howned : s.Owned config path) (hkeeps : KeepsSocket path s event)
    (hstep : Step config s event t) : t.Owned config path := by
  cases hstep with
  | @bound p hserve hfree =>
      intro q hbinds
      by_cases hsame : q = p
      · subst hsame
        obtain rfl : (config q).socket = path := hbinds.2
        exact Function.update_self _ _ _
      · have hbefore : s.Binds config q path := by
          refine ⟨?_, hbinds.2⟩
          have hq := hbinds.1
          change (Function.update s.serve p .bound q).binds = true at hq
          rwa [Function.update_of_ne hsame] at hq
        have hsocket := howned q hbefore
        have hpath : path ≠ (config p).socket := by
          rintro rfl
          rw [hfree] at hsocket
          cases hsocket
        exact (Function.update_of_ne hpath _ _).trans hsocket
  | @halted p hmain hserve =>
      intro q hbinds
      have hbefore : s.Binds config q path := by
        refine State.binds_of_update rfl ?_ hbinds
        exact fun hreturned => nomatch hreturned
      have hne : q ≠ p := by
        rintro rfl
        have hq := hbinds.1
        change (Function.update s.serve q (.returned true) q).binds = true at hq
        rw [Function.update_self] at hq
        cases hq
      have hsocket := howned q hbefore
      have hpath := (howned.sockets_halted hserve hsocket hne).symm
      exact (Function.update_of_ne hpath _ _).trans hsocket
  | @removed other =>
      have hpath : path ≠ other := fun heq => hkeeps (heq ▸ rfl)
      exact howned.of_frame (Function.update_of_ne hpath _ _) fun _ hbinds => hbinds
  | listens hserve =>
      refine howned.of_frame rfl fun q hbinds => State.binds_of_update rfl ?_ hbinds
      intro _
      rw [hserve]
      rfl
  | guarded | notLocked | notWritten | notBound | modeFailed | haltedLeaving | exited | killed =>
      refine howned.of_frame rfl fun q hbinds => State.binds_of_update rfl ?_ hbinds
      exact fun hended => nomatch hended
  | opened | locked | signalled | dropping => exact howned

/-- Whether a file is stale is decided where its owner's task is. -/
theorem State.stale_congr (hsockets : t.sockets path = s.sockets path)
    (hbinds : ∀ p, s.sockets path = some p → (t.Binds config p path ↔ s.Binds config p path)) :
    t.Stale config path ↔ s.Stale config path := by
  unfold State.Stale
  rw [hsockets]
  refine exists_congr fun p => and_congr_right fun hsocket => not_congr ?_
  exact hbinds p hsocket

/-- A task that ends while it owns the file leaves the file stale. -/
theorem State.Owned.stale_ended (howned : s.Owned config path) {p : Pid} (serve : Serve)
    (hserve : t.serve = Function.update s.serve p serve) (hended : serve.binds = false)
    (hsockets : t.sockets = s.sockets) {left : Prop} (hleft : s.Binds config p path ↔ left) :
    t.Stale config path ↔ s.Stale config path ∨ left := by
  rw [← hleft]
  have hself : ¬ t.Binds config p path := by
    rintro ⟨hbinds, -⟩
    rw [hserve, Function.update_self, hended] at hbinds
    cases hbinds
  by_cases hbound : s.Binds config p path
  · have hstale : t.Stale config path := ⟨p, hsockets ▸ howned p hbound, hself⟩
    exact iff_of_true hstale (.inr hbound)
  · rw [or_iff_left hbound]
    refine State.stale_congr (congrFun hsockets path) fun q _ => ?_
    by_cases hsame : q = p
    · subst hsame
      exact iff_of_false hself hbound
    · refine ⟨State.binds_of_update hserve ?_, State.binds_update_of_ne hserve hsame⟩
      rw [hended]
      exact fun hfalse => nomatch hfalse

theorem State.Agrees.not_binds (hagrees : s.Agrees config) {p : Pid}
    (hmain : s.main p ≠ .waiting ∧ s.main p ≠ .draining) : ¬ s.Binds config p path := by
  rintro ⟨hbinds, -⟩
  have hruns : (s.serve p).runs = true := by
    cases hserve : s.serve p <;> simp_all [Serve.binds, Serve.runs]
  exact ((hagrees p).serving hruns).1.elim hmain.1 hmain.2

theorem State.not_binds_of_serve {p : Pid} (hserve : (s.serve p).binds = false) :
    ¬ s.Binds config p path := by
  rintro ⟨hbinds, -⟩
  rw [hserve] at hbinds
  cases hbinds

/-- A bound socket is not stale, and binding it does not touch the other paths. -/
theorem State.stale_bound {p : Pid} (hserve : s.serve p = .spawned)
    (hfree : s.sockets (config p).socket = none)
    (hsockets : t.sockets = Function.update s.sockets (config p).socket (some p))
    (htasks : t.serve = Function.update s.serve p .bound) :
    t.Stale config path ↔ s.Stale config path := by
  by_cases hpath : (config p).socket = path
  · subst hpath
    have hbinds : t.Binds config p (config p).socket := by
      refine ⟨?_, rfl⟩
      rw [htasks, Function.update_self]
      rfl
    refine iff_of_false ?_ ?_
    · rintro ⟨owner, hsocket, hunbound⟩
      rw [hsockets, Function.update_self] at hsocket
      obtain rfl := Option.some.inj hsocket
      exact hunbound hbinds
    · rintro ⟨owner, hsocket, -⟩
      rw [hfree] at hsocket
      cases hsocket
  · refine State.stale_congr ?_ fun q _ => ?_
    · rw [hsockets, Function.update_of_ne (Ne.symm hpath)]
    · by_cases hsame : q = p
      · subst hsame
        exact iff_of_false (fun hbinds => hpath hbinds.2) (fun hbinds => hpath hbinds.2)
      · refine ⟨fun hbinds => ⟨?_, hbinds.2⟩, State.binds_update_of_ne htasks hsame⟩
        have hq := hbinds.1
        rwa [htasks, Function.update_of_ne hsame] at hq

/-- A listening task that unlinks its socket leaves nothing there. -/
theorem State.Owned.stale_halted (howned : s.Owned config path) {p : Pid}
    (hserve : s.serve p = .listening)
    (hsockets : t.sockets = Function.update s.sockets (config p).socket none)
    (htasks : t.serve = Function.update s.serve p (.returned true)) :
    t.Stale config path ↔ s.Stale config path := by
  have hbinds : (s.serve p).binds = true := by
    rw [hserve]
    rfl
  by_cases hpath : (config p).socket = path
  · subst hpath
    refine iff_of_false ?_ fun hstale => howned.not_binds_of_stale hstale p ⟨hbinds, rfl⟩
    rintro ⟨owner, hsocket, -⟩
    rw [hsockets, Function.update_self] at hsocket
    cases hsocket
  · refine State.stale_congr ?_ fun q _ => ?_
    · rw [hsockets, Function.update_of_ne (Ne.symm hpath)]
    · by_cases hsame : q = p
      · subst hsame
        exact iff_of_false (fun hbinds => hpath hbinds.2) (fun hbinds => hpath hbinds.2)
      · refine ⟨State.binds_of_update htasks ?_, State.binds_update_of_ne htasks hsame⟩
        exact fun hfalse => nomatch hfalse

/-- A stale file stays, and a file becomes stale where its owner's task ends without it. -/
theorem Step.stale_iff (howned : s.Owned config path) (hagrees : s.Agrees config)
    (hkeeps : KeepsSocket path s event) (hstep : Step config s event t) :
    t.Stale config path ↔ s.Stale config path ∨ Leaves config path s event := by
  cases hstep with
  | opened | locked | signalled | dropping => exact (or_iff_left id).symm
  | guarded hmain =>
      refine howned.stale_ended .spawned (by rfl) rfl (by rfl) (iff_of_false ?_ id)
      exact hagrees.not_binds (by rw [hmain]; decide)
  | notLocked hmain | notWritten hmain | exited hmain =>
      refine howned.stale_ended .unborn (by rfl) rfl (by rfl) (iff_of_false ?_ id)
      exact hagrees.not_binds (by rw [hmain]; decide)
  | bound hserve hfree =>
      rw [State.stale_bound hserve hfree rfl rfl]
      exact (or_iff_left id).symm
  | notBound hserve =>
      refine howned.stale_ended (.returned false) (by rfl) rfl (by rfl) (iff_of_false ?_ id)
      exact State.not_binds_of_serve (by rw [hserve]; rfl)
  | @listens p hserve =>
      have hstale : (s.setServe p .listening).Stale config path ↔ s.Stale config path := by
        refine State.stale_congr rfl fun q _ => ⟨State.binds_of_update rfl ?_, ?_⟩
        · rw [hserve]
          exact id
        · by_cases hsame : q = p
          · subst hsame
            refine fun hbinds => ⟨?_, hbinds.2⟩
            change (Function.update s.serve q .listening q).binds = true
            rw [Function.update_self]
            rfl
          · exact State.binds_update_of_ne rfl hsame
      rw [hstale]
      exact (or_iff_left id).symm
  | modeFailed hserve =>
      refine howned.stale_ended (.returned false) (by rfl) rfl (by rfl) ⟨fun hbinds => hbinds.2, ?_⟩
      exact fun hpath => ⟨by rw [hserve]; rfl, hpath⟩
  | halted hmain hserve =>
      rw [howned.stale_halted hserve rfl rfl]
      exact (or_iff_left id).symm
  | haltedLeaving hmain hserve =>
      refine howned.stale_ended (.returned true) (by rfl) rfl (by rfl) ⟨fun hbinds => hbinds.2, ?_⟩
      exact fun hpath => ⟨by rw [hserve]; rfl, hpath⟩
  | killed => exact howned.stale_ended .unborn (by rfl) rfl (by rfl) Iff.rfl
  | @removed other =>
      have hpath : path ≠ other := by
        rintro rfl
        exact hkeeps rfl
      have hsocket : (s.setSocket other none).sockets path = s.sockets path :=
        Function.update_of_ne hpath _ _
      rw [State.stale_congr hsocket fun _ _ => Iff.rfl]
      exact (or_iff_left id).symm

/-! ## Runs -/

/-- What runs without outside removals keep about a socket path. -/
structure State.Sound (config : Pid → Config) (path : Path) (s : State) : Prop where
  agrees : s.Agrees config
  owned : s.Owned config path

theorem State.Sound.step (hsound : s.Sound config path) (hkeeps : KeepsSocket path s event)
    (hstep : (daemons config).step s event = some t) : t.Sound config path :=
  ⟨hsound.agrees.step (step_sound hstep), hsound.owned.step hkeeps (step_sound hstep)⟩

theorem State.Quiet.sound (hquiet : s.Quiet) : s.Sound config path := by
  refine ⟨hquiet.agrees, fun p hbinds => ?_⟩
  have hunborn := hbinds.1
  rw [hquiet.2.2 p] at hunborn
  cases hunborn

/-- A file that is stale at the end of a run was so before, or a step left it behind. -/
theorem State.Sound.stale_run {events : List Event} (hsound : s.Sound config path)
    (hkeeps : (daemons config).AllSteps (KeepsSocket path) s events)
    (hrun : (daemons config).run s events = some t) :
    t.Stale config path ↔ s.Stale config path ∨
      ¬ (daemons config).AllSteps (fun state event => ¬ Leaves config path state event)
        s events := by
  induction events generalizing s with
  | nil =>
      cases hrun
      exact (or_iff_left fun hno => hno trivial).symm
  | cons event events ih =>
      obtain ⟨next, hstep, hrest⟩ := (daemons config).run_cons_eq_some.mp hrun
      obtain ⟨hhead, htail⟩ := hkeeps
      rw [ih (hsound.step hhead hstep) (htail next hstep) hrest,
        (step_sound hstep).stale_iff hsound.owned hsound.agrees hhead, or_assoc]
      rw [(daemons config).allSteps_cons_of_step hstep, not_and_or, not_not]

theorem State.Sound.run {events : List Event} (hsound : s.Sound config path)
    (hkeeps : (daemons config).AllSteps (KeepsSocket path) s events)
    (hrun : (daemons config).run s events = some t) : t.Sound config path :=
  (daemons config).run_invariant_of_allSteps (KeepsSocket path) (State.Sound config path)
    (fun _ _ _ hsound hkeeps hstep => hsound.step hkeeps hstep) hsound hkeeps hrun

/-- In a run of any number of daemons in which nobody else removes the socket file, the file
is stale at the end exactly when there was one at the start or some step left it behind: a
daemon was killed while it had the socket bound, or its mode could not be set, or its unlink
failed. -/
theorem stale_socket_iff {initial final : State} {events : List Event}
    (hstart : (daemons config).start initial)
    (hkeeps : (daemons config).AllSteps (KeepsSocket path) initial events)
    (hrun : (daemons config).run initial events = some final) :
    final.Stale config path ↔ (initial.sockets path).isSome ∨
      ¬ (daemons config).AllSteps (fun state event => ¬ Leaves config path state event)
        initial events := by
  have hsound : initial.Sound config path := State.Quiet.sound hstart
  have hinitial : initial.Stale config path ↔ (initial.sockets path).isSome := by
    rw [Option.isSome_iff_exists]
    refine exists_congr fun p => and_iff_left ?_
    exact hsound.agrees.not_binds (by rw [hstart.2.1 p]; decide)
  rw [hsound.stale_run hkeeps hrun, hinitial]

/-- A task whose `bind` nothing else prevents gets the socket where there is no file. -/
theorem binds_of_bind_iff {p : Pid} (hpath : (config p).socket = path)
    (hstep : (daemons config).step s (.bind p false) = some t) :
    t.Binds config p path ↔ s.sockets path = none := by
  subst hpath
  cases step_sound hstep with
  | bound _ hfree =>
      refine iff_of_true ⟨?_, rfl⟩ hfree
      change (Function.update s.serve p .bound p).binds = true
      rw [Function.update_self]
      rfl
  | notBound _ hfails =>
      refine iff_of_false (State.not_binds_of_serve ?_) fun hfree => nomatch hfails hfree
      change (Function.update s.serve p (.returned false) p).binds = false
      rw [Function.update_self]
      rfl

theorem State.Owned.sockets_eq_none_iff (howned : s.Owned config path) :
    s.sockets path = none ↔ ¬ s.Stale config path ∧ ∀ p, ¬ s.Binds config p path := by
  constructor
  · intro hfree
    refine ⟨?_, fun p hbinds => ?_⟩
    · rintro ⟨p, hsocket, -⟩
      rw [hfree] at hsocket
      cases hsocket
    · rw [howned p hbinds] at hfree
      cases hfree
  · rintro ⟨hfresh, hunbound⟩
    by_contra hsome
    obtain ⟨p, hsocket⟩ := Option.ne_none_iff_exists'.mp hsome
    exact hfresh ⟨p, hsocket, hunbound p⟩

/-- What daemons may rely on about a socket path, in the state they are in. -/
structure SocketLaw (config : Pid → Config) (path : Path) (s : State) : Prop where
  /-- One daemon at a time has the socket, even where the pidfile lock let two of them in. -/
  exclusive : ∀ p q, s.Binds config p path → s.Binds config q path → p = q
  /-- A daemon gets the socket exactly where nobody has it and no stale file is left. -/
  binds_iff : ∀ p next, (config p).socket = path →
    (daemons config).step s (.bind p false) = some next →
      (next.Binds config p path ↔ ¬ s.Stale config path ∧ ∀ q, ¬ s.Binds config q path)
  /-- Once a stale file is left, no daemon serves the path until somebody removes it. -/
  unserved : s.Stale config path → ∀ events final,
    (daemons config).AllSteps (KeepsSocket path) s events →
      (daemons config).run s events = some final → ∀ p, ¬ final.Binds config p path

theorem socket_law {initial final : State} {events : List Event}
    (hstart : (daemons config).start initial)
    (hkeeps : (daemons config).AllSteps (KeepsSocket path) initial events)
    (hrun : (daemons config).run initial events = some final) : SocketLaw config path final := by
  have hsound : final.Sound config path := (State.Quiet.sound hstart).run hkeeps hrun
  refine ⟨fun _ _ => hsound.owned.unique, fun p next hpath hstep => ?_, ?_⟩
  · rw [binds_of_bind_iff hpath hstep, hsound.owned.sockets_eq_none_iff]
  · intro hstale more later hkeeps hrun
    have hlater : later.Stale config path := (hsound.stale_run hkeeps hrun).mpr (.inl hstale)
    exact (hsound.run hkeeps hrun).owned.not_binds_of_stale hlater

/-! ## A daemon that is killed and started again -/

def State.empty : State := ⟨PidFileLock.State.empty, fun _ => none, fun _ => .out, fun _ => .unborn⟩

theorem State.empty_quiet : State.empty.Quiet :=
  ⟨PidFileLock.State.empty_quiet, fun _ => rfl, fun _ => rfl⟩

def runtimeDir : Pid → Config := fun _ => ⟨"syauth/presenced.pid", "syauth/auth.sock"⟩

/-- A daemon is killed while it serves, and the next one takes the lock. -/
def killedAndRestarted : List Event :=
  [.openPidfile 1, .tryLockExclusive 1 false, .writePid 1 true, .bind 1 false,
    .setSocketMode 1 true, .kill 1, .openPidfile 2, .tryLockExclusive 2 false, .writePid 2 true,
    .bind 2 false]

instance decidableBinds (config : Pid → Config) (s : State) (p : Pid) (path : Path) :
    Decidable (s.Binds config p path) :=
  inferInstanceAs (Decidable (_ ∧ _))

instance decidableLeaves (config : Pid → Config) (path : Path) (s : State) :
    ∀ event, Decidable (Leaves config path s event)
  | .kill p => inferInstanceAs (Decidable (s.Binds config p path))
  | .setSocketMode p false => inferInstanceAs (Decidable ((config p).socket = path))
  | .halt p false => inferInstanceAs (Decidable ((config p).socket = path))
  | .setSocketMode _ true | .halt _ true => .isFalse id
  | .openPidfile _ | .tryLockExclusive _ _ | .writePid _ _ | .bind _ _ | .signal _
  | .dropLock _ _ | .exit _ | .removeSocket _ => .isFalse id

theorem keepsSocket_killedAndRestarted (state : State) :
    (daemons config).AllSteps (KeepsSocket path) state killedAndRestarted :=
  (daemons config).allSteps_of_forall (by simp [KeepsSocket, killedAndRestarted]) state

theorem stale_socket_iff_killed : ∃ final,
    (daemons runtimeDir).run .empty killedAndRestarted = some final ∧
      final.Stale runtimeDir "syauth/auth.sock" := by
  obtain ⟨final, hrun⟩ : ∃ final,
      (daemons runtimeDir).run .empty killedAndRestarted = some final := ⟨_, rfl⟩
  refine ⟨final, hrun, ?_⟩
  rw [stale_socket_iff State.empty_quiet (keepsSocket_killedAndRestarted _) hrun]
  exact .inr (by decide)

theorem socket_law_killed : ∃ final,
    (daemons runtimeDir).run .empty killedAndRestarted = some final ∧
      SocketLaw runtimeDir "syauth/auth.sock" final := by
  obtain ⟨final, hrun⟩ : ∃ final,
      (daemons runtimeDir).run .empty killedAndRestarted = some final := ⟨_, rfl⟩
  exact ⟨final, hrun, socket_law State.empty_quiet (keepsSocket_killedAndRestarted _) hrun⟩

/-! ## A daemon that could not bind -/

/-- A process that tries the lock still has the file that its path names. -/
def TriesNamed (s : State) : Event → Prop
  | .tryLockExclusive p fails => TriesNamedInode s.lock (.tryLockExclusive p fails)
  | _ => True

/-- The process is neither signalled nor killed. -/
def Spares (p : Pid) (_ : State) (event : Event) : Prop := event ≠ .signal p ∧ event ≠ .kill p

theorem afterAcquire_lock (s : State) (p : Pid) (lock : PidFileLock.State) :
    (afterAcquire s p lock).lock = lock := by
  unfold afterAcquire
  split <;> rfl

/-- A step leaves the lock alone or is one of its steps. -/
theorem lock_step (hguard : TriesNamed s event)
    (hstep : (daemons config).step s event = some t) :
    t.lock = s.lock ∨
      ∃ inner, TriesNamedInode s.lock inner ∧ PidFileLock.step s.lock inner = some t.lock := by
  cases event with
  | openPidfile p =>
      simp only [daemons, step] at hstep
      split at hstep
      · obtain ⟨lock, hlock, rfl⟩ := Option.map_eq_some_iff.mp hstep
        exact .inr ⟨.openPidfile p (config p).pidfile, trivial, hlock⟩
      · cases hstep
  | tryLockExclusive p fails =>
      simp only [daemons, step] at hstep
      split at hstep
      · obtain ⟨lock, hlock, rfl⟩ := Option.map_eq_some_iff.mp hstep
        exact .inr ⟨.tryLockExclusive p fails, hguard,
          hlock.trans (congrArg some (afterAcquire_lock s p lock).symm)⟩
      · cases hstep
  | writePid p ok =>
      simp only [daemons, step] at hstep
      split at hstep
      · obtain ⟨lock, hlock, rfl⟩ := Option.map_eq_some_iff.mp hstep
        exact .inr ⟨.writePid p ok, trivial,
          hlock.trans (congrArg some (afterAcquire_lock s p lock).symm)⟩
      · cases hstep
  | dropLock p unlinked =>
      simp only [daemons, step] at hstep
      split at hstep
      · obtain ⟨lock, hlock, rfl⟩ := Option.map_eq_some_iff.mp hstep
        exact .inr ⟨.removeFile p unlinked, trivial, hlock⟩
      · cases hstep
  | exit p =>
      simp only [daemons, step] at hstep
      split at hstep
      · obtain ⟨lock, hlock, rfl⟩ := Option.map_eq_some_iff.mp hstep
        exact .inr ⟨.close p, trivial, hlock⟩
      · cases hstep
  | kill p =>
      simp only [daemons, step] at hstep
      split at hstep
      · cases hstep
      · obtain ⟨lock, hlock, rfl⟩ := Option.map_eq_some_iff.mp hstep
        exact .inr ⟨.crash p, trivial, hlock⟩
  | bind p fails =>
      cases step_sound hstep with
      | bound | notBound => exact .inl rfl
  | setSocketMode p ok =>
      cases step_sound hstep with
      | listens | modeFailed => exact .inl rfl
  | signal p =>
      cases step_sound hstep with
      | signalled => exact .inl rfl
  | halt p unlinked =>
      cases step_sound hstep with
      | halted | haltedLeaving => exact .inl rfl
  | removeSocket path =>
      cases step_sound hstep with
      | removed => exact .inl rfl

theorem exclusive_run {initial final : State} {events : List Event}
    (hexclusive : Exclusive initial.lock)
    (hguard : (daemons config).AllSteps TriesNamed initial events)
    (hrun : (daemons config).run initial events = some final) : Exclusive final.lock := by
  refine (daemons config).run_invariant_of_allSteps TriesNamed (fun state => Exclusive state.lock)
    ?_ hexclusive hguard hrun
  intro state event next hexclusive hguard hstep
  rcases lock_step hguard hstep with hsame | ⟨inner, hinner, hlock⟩
  · rw [hsame]
    exact hexclusive
  · exact hexclusive.step hinner hlock

/-- The main task waits for a signal behind a serving task that has failed. -/
def State.Idles (s : State) (p : Pid) : Prop := s.main p = .waiting ∧ s.serve p = .returned false

theorem State.Idles.step {p : Pid} (hidles : s.Idles p) (hspares : Spares p s event)
    (hstep : Step config s event t) : t.Idles p := by
  obtain ⟨hmain, hserve⟩ := hidles
  have hother : ∀ {q : Pid} {stage : Main}, s.main q = stage → stage ≠ .waiting → p ≠ q := by
    rintro q stage hq hne rfl
    exact hne (hq.symm.trans hmain)
  have htask : ∀ {q : Pid} {stage : Serve}, s.serve q = stage → stage.runs = true → p ≠ q := by
    rintro q stage hq hruns rfl
    rw [← hq, hserve] at hruns
    cases hruns
  cases hstep with
  | opened hq =>
      have hne := hother hq (by decide)
      exact ⟨(Function.update_of_ne hne _ _).trans hmain, hserve⟩
  | locked | removed => exact ⟨hmain, hserve⟩
  | guarded hq | notLocked hq | notWritten hq =>
      have hne := hother hq (by decide)
      exact ⟨(Function.update_of_ne hne _ _).trans hmain,
        (Function.update_of_ne hne _ _).trans hserve⟩
  | exited hq =>
      have hne := hother hq (by decide)
      exact ⟨(Function.update_of_ne hne _ _).trans hmain,
        (Function.update_of_ne hne _ _).trans hserve⟩
  | bound hq | notBound hq | listens hq | modeFailed hq =>
      exact ⟨hmain, (Function.update_of_ne (htask hq rfl) _ _).trans hserve⟩
  | halted _ hq | haltedLeaving _ hq =>
      exact ⟨hmain, (Function.update_of_ne (htask hq rfl) _ _).trans hserve⟩
  | dropping hq =>
      exact ⟨(Function.update_of_ne (hother hq (by decide)) _ _).trans hmain, hserve⟩
  | @signalled q =>
      have hne : p ≠ q := by
        rintro rfl
        exact hspares.1 rfl
      exact ⟨(Function.update_of_ne hne _ _).trans hmain, hserve⟩
  | @killed q =>
      have hne : p ≠ q := by
        rintro rfl
        exact hspares.2 rfl
      exact ⟨(Function.update_of_ne hne _ _).trans hmain,
        (Function.update_of_ne hne _ _).trans hserve⟩

theorem Agrees.waiting {c : Config} {main : Main} {stage : Stage} {serve : Serve}
    (hagrees : Agrees c main stage serve) (hmain : main = .waiting ∨ main = .draining) :
    ∃ inode, stage = .holding c.pidfile inode := by
  rcases hmain with rfl | rfl
  all_goals
    cases stage with
    | holding path inode => exact ⟨inode, by rw [hagrees.1]⟩
    | _ => exact absurd hagrees id

/-- A daemon that could not bind its socket stays, without serving, until it is signalled or
killed; and for as long it keeps the pidfile lock, so that no other daemon with its pidfile
comes to serve either. -/
theorem failed_bind_blocks {initial s final : State} {before after : List Event} {p : Pid}
    (hstart : (daemons config).start initial)
    (hnamed : (daemons config).AllSteps TriesNamed initial (before ++ after))
    (hbefore : (daemons config).run initial before = some s) (hidles : s.Idles p)
    (hspares : (daemons config).AllSteps (Spares p) s after)
    (hafter : (daemons config).run s after = some final) :
    final.Idles p ∧ ∀ q, q ≠ p → (config q).pidfile = (config p).pidfile →
      (final.serve q).runs = false := by
  have hrun : (daemons config).run initial (before ++ after) = some final :=
    (daemons config).run_append_eq_some.mpr ⟨s, hbefore, hafter⟩
  have hfinal : final.Idles p :=
    (daemons config).run_invariant_of_allSteps (Spares p) (fun state => state.Idles p)
      (fun _ _ _ hidles hspares hstep => hidles.step hspares (step_sound hstep)) hidles hspares
      hafter
  have hagrees : final.Agrees config := agrees_run hstart hrun
  have hexclusive : Exclusive final.lock := exclusive_run (.of_quiet hstart.1) hnamed hrun
  refine ⟨hfinal, fun q hne hpidfile => ?_⟩
  by_contra hruns
  obtain ⟨-, inode, hq⟩ := (hagrees q).serving (by simpa using hruns)
  obtain ⟨inode', hp⟩ := (hagrees p).waiting (.inl hfinal.1)
  have hclaim : (final.lock.stages q).claim = some ((config p).pidfile, inode) := by
    rw [hq, hpidfile]
    rfl
  have hclaim' : (final.lock.stages p).claim = some ((config p).pidfile, inode') := by
    rw [hp]
    rfl
  exact hne (hexclusive.claim_unique hclaim hclaim')

instance decidableTriesNamed (s : State) : ∀ event, Decidable (TriesNamed s event)
  | .tryLockExclusive p fails =>
      inferInstanceAs (Decidable (TriesNamedInode s.lock (.tryLockExclusive p fails)))
  | .openPidfile _ | .writePid _ _ | .bind _ _ | .setSocketMode _ _ | .signal _ | .halt _ _
  | .dropLock _ _ | .exit _ | .kill _ | .removeSocket _ => .isTrue trivial

/-- The third start finds the lock taken by the second, which does not serve. -/
theorem failed_bind_blocks_restart : ∃ s final,
    (daemons runtimeDir).run .empty killedAndRestarted = some s ∧
      (daemons runtimeDir).run s [.openPidfile 3, .tryLockExclusive 3 false] = some final ∧
        final.Idles 2 ∧ ∀ q, q ≠ 2 → (final.serve q).runs = false := by
  have hnamed : (daemons runtimeDir).AllSteps TriesNamed .empty
      (killedAndRestarted ++ [.openPidfile 3, .tryLockExclusive 3 false]) := by
    decide
  have hspares : ∀ s, (daemons runtimeDir).AllSteps (Spares 2) s
      [.openPidfile 3, .tryLockExclusive 3 false] :=
    (daemons runtimeDir).allSteps_of_forall (by simp [Spares])
  have hblocks := failed_bind_blocks State.empty_quiet hnamed rfl ⟨rfl, rfl⟩ (hspares _) rfl
  exact ⟨_, _, rfl, rfl, hblocks.1, fun q hne => hblocks.2 q hne rfl⟩

end Syauth.Presenced.Lifecycle
