import Syauth.Presenced.Connections
import Syauth.Presenced.Soundness

/-! # The accept loop with the daemon behind it

`handle_connection` reads a request, awaits `dispatch` for it and writes what it returns.  Here
`dispatch` is the daemon itself: its task of a connection begins when the request has been read,
runs as long as the connection is being dispatched, and the loop goes on with its answer.
-/

namespace Syauth.Presenced.AcceptLoop

variable {prim : Primitives}

structure Hosted where
  listener : Server
  tasks : State

inductive HostedEvent where
  | server (event : Event)
  | call (c : CallId) (event : CallEvent)
  | loop (event : LoopEvent)

namespace Hosted

def step (prim : Primitives) (h : Hosted) : HostedEvent → Option Hosted
  | .server (.request c (.ok request)) =>
      match server.step h.listener (.request c (.ok request)),
        (daemon prim).step h.tasks (.accept c request) with
      | some listener, some tasks => some ⟨listener, tasks⟩
      | _, _ => none
  | .server (.dispatched c response) =>
      match h.tasks.connections c with
      | some ⟨_, .answered returned⟩ =>
          if returned = response then
            (server.step h.listener (.dispatched c response)).map fun listener =>
              ⟨listener, h.tasks⟩
          else none
      | _ => none
  | .server event => (server.step h.listener event).map fun listener => ⟨listener, h.tasks⟩
  | .call c event =>
      if h.listener.place c = .dispatching then
        ((daemon prim).step h.tasks (.call c event)).map fun tasks => ⟨h.listener, tasks⟩
      else none
  | .loop event =>
      ((daemon prim).step h.tasks (.loop event)).map fun tasks => ⟨h.listener, tasks⟩

end Hosted

/-- The steps of the accept loop in which the daemon has no part. -/
def Event.alone : Event → Bool
  | .request _ (.ok _) | .dispatched _ _ => false
  | _ => true

def hosted (prim : Primitives) : Transition.System Hosted HostedEvent where
  start h := server.start h.listener ∧ (daemon prim).start h.tasks
  step := Hosted.step prim

/-! ## What a step does -/

variable {h t : Hosted}

inductive Hosted.Step (prim : Primitives) (h : Hosted) : HostedEvent → Hosted → Prop where
  | heard {c request s d} (hserver : server.step h.listener (.request c (.ok request)) = some s)
      (hdaemon : (daemon prim).step h.tasks (.accept c request) = some d) :
      Step prim h (.server (.request c (.ok request))) ⟨s, d⟩
  | returned {c request response s}
      (hanswered : h.tasks.connections c = some ⟨request, .answered response⟩)
      (hserver : server.step h.listener (.dispatched c response) = some s) :
      Step prim h (.server (.dispatched c response)) ⟨s, h.tasks⟩
  | server {event s} (halone : event.alone = true)
      (hserver : server.step h.listener event = some s) : Step prim h (.server event) ⟨s, h.tasks⟩
  | call {c event d} (hplace : h.listener.place c = .dispatching)
      (hdaemon : (daemon prim).step h.tasks (.call c event) = some d) :
      Step prim h (.call c event) ⟨h.listener, d⟩
  | loop {event d} (hdaemon : (daemon prim).step h.tasks (.loop event) = some d) :
      Step prim h (.loop event) ⟨h.listener, d⟩

theorem Hosted.server_sound {event : Event} (halone : event.alone = true)
    (hstep : (server.step h.listener event).map (fun listener => ⟨listener, h.tasks⟩) = some t) :
    Hosted.Step prim h (.server event) t := by
  obtain ⟨s, hserver, rfl⟩ := Option.map_eq_some_iff.mp hstep
  exact .server halone hserver

theorem Hosted.step_sound {event : HostedEvent} (hstep : (hosted prim).step h event = some t) :
    Hosted.Step prim h event t := by
  change Hosted.step prim h event = some t at hstep
  unfold Hosted.step at hstep
  split at hstep
  next c request =>
    split at hstep
    next s d hserver hdaemon => exact Option.some.inj hstep ▸ .heard hserver hdaemon
    next => cases hstep
  next c response =>
    split at hstep
    next request returned hanswered =>
      split at hstep
      next hsame =>
        subst hsame
        obtain ⟨s, hserver, rfl⟩ := Option.map_eq_some_iff.mp hstep
        exact .returned hanswered hserver
      next => cases hstep
    next => cases hstep
  next event hrequest hdispatched =>
    refine Hosted.server_sound ?_ hstep
    unfold Event.alone
    split
    next c request => exact absurd rfl (hrequest c request)
    next c response => exact absurd rfl (hdispatched c response)
    next => rfl
  next c event =>
    split at hstep
    next hplace =>
      obtain ⟨d, hdaemon, rfl⟩ := Option.map_eq_some_iff.mp hstep
      exact .call hplace hdaemon
    next => cases hstep
  next event =>
    obtain ⟨d, hdaemon, rfl⟩ := Option.map_eq_some_iff.mp hstep
    exact .loop hdaemon

/-! ## The two parts of a run -/

/-- What the accept loop does of it. -/
def serverEvents (events : List HostedEvent) : List Event :=
  events.filterMap fun
    | .server event => some event
    | _ => none

/-- What the daemon does of it: the read of a request is the start of its task. -/
def daemonEvents (events : List HostedEvent) : List Presenced.Event :=
  events.filterMap fun
    | .server (.request c (.ok request)) => some (.accept c request)
    | .server _ => none
    | .call c event => some (.call c event)
    | .loop event => some (.loop event)

/-- A run of the two is a run of the accept loop and one of the daemon, so that what holds of
every run of either holds of its part. -/
theorem run_parts {events : List HostedEvent} (hrun : (hosted prim).run h events = some t) :
    server.run h.listener (serverEvents events) = some t.listener ∧
      (daemon prim).run h.tasks (daemonEvents events) = some t.tasks := by
  induction events generalizing h with
  | nil =>
      obtain rfl := Option.some.inj hrun
      exact ⟨rfl, rfl⟩
  | cons event events ih =>
      obtain ⟨next, hstep, hrest⟩ := (hosted prim).run_cons_eq_some.mp hrun
      obtain ⟨hserver, hdaemon⟩ := ih hrest
      have hcases := Hosted.step_sound hstep
      cases hcases with
      | heard hread haccept =>
          exact ⟨server.run_cons_eq_some.mpr ⟨_, hread, hserver⟩,
            (daemon prim).run_cons_eq_some.mpr ⟨_, haccept, hdaemon⟩⟩
      | returned _ hreturn => exact ⟨server.run_cons_eq_some.mpr ⟨_, hreturn, hserver⟩, hdaemon⟩
      | @server event s halone hmove =>
          refine ⟨server.run_cons_eq_some.mpr ⟨_, hmove, hserver⟩, ?_⟩
          have hnone : daemonEvents (.server event :: events) = daemonEvents events := by
            cases event with
            | request c result => cases result with
              | ok => cases halone
              | error => rfl
            | _ => rfl
          rw [hnone]
          exact hdaemon
      | call _ hmove => exact ⟨hserver, (daemon prim).run_cons_eq_some.mpr ⟨_, hmove, hdaemon⟩⟩
      | loop hmove => exact ⟨hserver, (daemon prim).run_cons_eq_some.mpr ⟨_, hmove, hdaemon⟩⟩

/-! ## What happens on a connection -/

inductive Said where
  | connected
  | read (result : Except HandlerError Request)
  /-- The task of the daemon ends with an answer. -/
  | answered (request : Request) (response : Response)
  | wrote (response : Response) (ok : Bool)
  deriving DecidableEq

/-- The answers are the ones that are observed of the daemon, and what is written is the
response that the handler holds. -/
def noteExchange (prim : Primitives) (h : Hosted) : HostedEvent → List (CallId × Said)
  | .server (.connect c) => [(c, .connected)]
  | .server (.request c result) => [(c, .read result)]
  | .server (.written c ok) =>
      match h.listener.place c with
      | .writing response => [(c, .wrote response ok)]
      | _ => []
  | .server _ => []
  | .call c event => (observe prim h.tasks (.call c event)).filterMap fun
      | .sent d request response => some (d, .answered request response)
      | _ => none
  | .loop _ => []

def saidOn (c : CallId) (seen : List (CallId × Said)) : List Said :=
  seen.filterMap fun note => if note.1 = c then some note.2 else none

theorem saidOn_append (c : CallId) (seen more : List (CallId × Said)) :
    saidOn c (seen ++ more) = saidOn c seen ++ saidOn c more := List.filterMap_append

theorem saidOn_map_self (c : CallId) (notes : List Said) :
    saidOn c (notes.map fun said => (c, said)) = notes := by
  rw [saidOn, List.filterMap_map]
  simp [Function.comp_def]

theorem saidOn_map_of_ne {c d : CallId} (hne : d ≠ c) (notes : List Said) :
    saidOn c (notes.map fun said => (d, said)) = [] := by
  rw [saidOn, List.filterMap_map]
  simp [Function.comp_def, hne]

/-- One request and one response, which is what the daemon answered. -/
def conversation (request : Request) (response : Response) (ok : Bool) : List Said :=
  [.connected, .read (.ok request), .answered request response, .wrote response ok]

/-- Where a connection stands, the task of the daemon for it, and what has happened on it. -/
inductive Exchange : Place → Option Connection → List Said → Prop where
  | unborn : Exchange .unborn none []
  | queued : Exchange .queued none [.connected]
  | accepted : Exchange .accepted none [.connected]
  | reading : Exchange .reading none [.connected]
  | dispatching {request phase} (hopen : ∀ response, phase ≠ .answered response) :
      Exchange .dispatching (some ⟨request, phase⟩) [.connected, .read (.ok request)]
  | dispatched {request response} :
      Exchange .dispatching (some ⟨request, .answered response⟩)
        [.connected, .read (.ok request), .answered request response]
  | writing {request response} :
      Exchange (.writing response) (some ⟨request, .answered response⟩)
        [.connected, .read (.ok request), .answered request response]
  | refused {err} : Exchange .closed none [.connected, .read (.error err)]
  | written {conn request response ok} :
      Exchange .closed conn (conversation request response ok)
  /-- Its queue or its task is gone. -/
  | dropped {place conn said} (hpast : Exchange place conn said) : Exchange .closed conn said

theorem Exchange.prefix_of_conversation {place : Place} {conn : Option Connection}
    {said : List Said} (hexchange : Exchange place conn said) :
    (∃ request response ok, said <+: conversation request response ok) ∨
      ∃ err, said = [.connected, .read (.error err)] := by
  induction hexchange with
  | unborn => exact .inl ⟨.status, .stub, true, List.nil_prefix⟩
  | queued | accepted | reading => exact .inl ⟨.status, .stub, true, _, rfl⟩
  | @dispatching request => exact .inl ⟨request, .stub, true, _, rfl⟩
  | @dispatched request response | @writing request response =>
      exact .inl ⟨request, response, true, _, rfl⟩
  | @refused err => exact .inr ⟨err, rfl⟩
  | @written _ request response ok => exact .inl ⟨request, response, ok, List.prefix_rfl⟩
  | dropped _ ih => exact ih

theorem Exchange.eq_none_of_reading {conn : Option Connection} {said : List Said}
    (hexchange : Exchange .reading conn said) : conn = none := by
  cases hexchange
  rfl

/-- Of all connections. -/
def Exchanged (seen : List (CallId × Said)) (h : Hosted) : Prop :=
  ∀ c, Exchange (h.listener.place c) (h.tasks.connections c) (saidOn c seen)

/-- A step of one connection, with what is noted of it. -/
theorem Exchanged.move {seen : List (CallId × Said)} (c : CallId) (notes : List Said)
    (hexchanged : Exchanged seen h)
    (hothers : ∀ d, d ≠ c → t.listener.place d = h.listener.place d ∧
      t.tasks.connections d = h.tasks.connections d)
    (hnext : ∀ said, Exchange (h.listener.place c) (h.tasks.connections c) said →
      Exchange (t.listener.place c) (t.tasks.connections c) (said ++ notes)) :
    Exchanged (seen ++ notes.map fun said => (c, said)) t := by
  intro d
  rw [saidOn_append]
  by_cases heq : d = c
  · rw [heq, saidOn_map_self]
    exact hnext _ (hexchanged c)
  · obtain ⟨hplace, hconn⟩ := hothers d heq
    rw [saidOn_map_of_ne (Ne.symm heq), List.append_nil, hplace, hconn]
    exact hexchanged d

/-- A connection moves on whatever its task is. -/
theorem Exchanged.place {seen : List (CallId × Said)} {c : CallId} {place : Place} {s : Server}
    (notes : List Said) (hexchanged : Exchanged seen h)
    (hplaces : s.place = Function.update h.listener.place c place)
    (hnext : ∀ conn said, Exchange (h.listener.place c) conn said →
      Exchange place conn (said ++ notes)) :
    Exchanged (seen ++ notes.map fun said => (c, said)) ⟨s, h.tasks⟩ := by
  refine hexchanged.move c notes (fun d hne => ⟨?_, rfl⟩) fun said hsaid => ?_
  · rw [hplaces, Function.update_of_ne hne]
  · rw [hplaces, Function.update_self]
    exact hnext _ said hsaid

/-- A step of which nothing is noted. -/
theorem Exchanged.silent {seen : List (CallId × Said)} (hexchanged : Exchanged seen h)
    (hconns : t.tasks.connections = h.tasks.connections)
    (hplace : ∀ c, t.listener.place c = h.listener.place c ∨ t.listener.place c = .closed ∨
      h.listener.place c = .queued ∧ t.listener.place c = .accepted ∨
      h.listener.place c = .accepted ∧ t.listener.place c = .reading) :
    Exchanged (seen ++ []) t := by
  intro c
  rw [List.append_nil, hconns]
  have hold := hexchanged c
  generalize saidOn c seen = said at hold ⊢
  generalize h.tasks.connections c = conn at hold ⊢
  rcases hplace c with hsame | hclosed | ⟨hqueued, haccepted⟩ | ⟨haccepted, hreading⟩
  · rwa [hsame]
  · rw [hclosed]
    exact .dropped hold
  · rw [hqueued] at hold
    rw [haccepted]
    cases hold
    exact .accepted
  · rw [haccepted] at hold
    rw [hreading]
    cases hold
    exact .reading

/-! ## The steps -/

/-- The answer of a task, once it has one. -/
def answerOf : Option Connection → List Said
  | some ⟨request, .answered response⟩ => [.answered request response]
  | _ => []

/-- Nothing but the answer is noted of a call. -/
theorem noteExchange_call {c : CallId} {conn : Connection} {event : CallEvent} {d : State}
    (hconn : h.tasks.connections c = some conn)
    (hstep : (daemon prim).step h.tasks (.call c event) = some d) :
    noteExchange prim h (.call c event) =
      (answerOf (d.connections c)).map fun said => (c, said) := by
  have hsilent : (observeCall h.tasks c conn.request conn.phase event).filterMap (fun
      | .sent d request response => some (d, Said.answered request response)
      | _ => none) = [] := by
    rw [List.filterMap_eq_nil_iff]
    intro note hmem
    cases note with
    | sent d request response => exact absurd hmem sent_notMem_observeCall
    | _ => rfl
  rw [noteExchange, observe_call hconn hstep, List.filterMap_append, hsilent, List.nil_append]
  cases hnext : d.connections c with
  | none => simp [State.answer, answerOf, hnext]
  | some next =>
      obtain ⟨request, phase⟩ := next
      cases phase <;> simp [State.answer, answerOf, hnext]

/-- The steps of the accept loop alone. -/
theorem Exchanged.server {seen : List (CallId × Said)} {event : Event} {s : Server}
    (hexchanged : Exchanged seen h) (hsound : h.listener.Sound) (halone : event.alone = true)
    (hstep : server.step h.listener event = some s) :
    Exchanged (seen ++ noteExchange prim h (.server event)) ⟨s, h.tasks⟩ := by
  have hcases := AcceptLoop.step_sound hstep
  cases hcases with
  | @connect c hrunning hunborn =>
      refine hexchanged.place [.connected] rfl fun conn said hsaid => ?_
      rw [hunborn] at hsaid
      cases hsaid
      exact .queued
  | @accept c backlog hrunning hbacklog hpending =>
      have hqueued : h.listener.place c = .queued := by
        rw [← hsound.mem_backlog, hbacklog]
        exact List.mem_cons_self
      refine hexchanged.silent rfl fun d => ?_
      by_cases heq : d = c
      · rw [heq]
        exact .inr (.inr (.inl ⟨hqueued, Function.update_self c _ _⟩))
      · exact .inl (Function.update_of_ne heq _ _)
  | acceptFails => exact hexchanged.silent rfl fun _ => .inl rfl
  | @acquire c permits hpending hpermits =>
      have haccepted : h.listener.place c = .accepted := (hsound.pending_eq c).mp hpending
      refine hexchanged.silent rfl fun d => ?_
      by_cases heq : d = c
      · rw [heq]
        exact .inr (.inr (.inr ⟨haccepted, Function.update_self c _ _⟩))
      · exact .inl (Function.update_of_ne heq _ _)
  | request hplace => cases halone
  | @requestFails c err hplace =>
      refine hexchanged.place [.read (.error err)] rfl fun conn said hsaid => ?_
      rw [hplace] at hsaid
      cases hsaid
      exact .refused
  | dispatched hplace => cases halone
  | @written c response ok hplace =>
      have hnote : noteExchange prim h (.server (.written c ok)) =
          [Said.wrote response ok].map fun said => (c, said) := by
        simp only [noteExchange, hplace, List.map_cons, List.map_nil]
      rw [hnote]
      refine hexchanged.place [.wrote response ok] rfl fun conn said hsaid => ?_
      rw [hplace] at hsaid
      cases hsaid
      exact .written
  | shutdown => exact hexchanged.silent rfl fun _ => .inl rfl
  | halt | exit =>
      refine hexchanged.silent rfl fun d => ?_
      change (if d ∈ _ then Place.closed else h.listener.place d) = h.listener.place d ∨ _
      split
      next hmem => exact .inr (.inl (if_pos hmem))
      next => exact .inl rfl

/-- The daemon answers a call once: the task of a call that is answered makes no step. -/
theorem Exchange.call {c : CallId} {conn : Connection} {event : CallEvent} {d : State}
    {said : List Said} (hexchange : Exchange .dispatching (some conn) said)
    (hcall : CallStep prim h.tasks c conn event d) :
    Exchange .dispatching (d.connections c) (said ++ answerOf (d.connections c)) := by
  obtain ⟨-, -, -, phase, hconns⟩ := hcall.frame
  rw [hconns, Function.update_self]
  cases hexchange with
  | dispatched => cases hcall
  | dispatching =>
      cases phase with
      | answered response => exact .dispatched
      | _ => exact .dispatching nofun

theorem Exchanged.step {seen : List (CallId × Said)} {event : HostedEvent}
    (hexchanged : Exchanged seen h) (hsound : h.listener.Sound)
    (hstep : (hosted prim).step h event = some t) :
    Exchanged (seen ++ noteExchange prim h event) t := by
  have hcases := Hosted.step_sound hstep
  cases hcases with
  | @heard c request s d hserver hdaemon =>
      cases AcceptLoop.step_sound hserver with
      | request hplace =>
          cases Presenced.step_sound hdaemon with
          | accept hnew =>
              refine hexchanged.move c [.read (.ok request)] (fun d hne =>
                ⟨Function.update_of_ne hne _ _, Function.update_of_ne hne _ _⟩)
                fun said hsaid => ?_
              rw [hplace, hnew] at hsaid
              change Exchange (Function.update h.listener.place c .dispatching c)
                (Function.update h.tasks.connections c (some ⟨request, .decoded⟩) c) _
              rw [Function.update_self, Function.update_self]
              cases hsaid
              exact .dispatching nofun
  | @returned c request response s hanswered hserver =>
      cases AcceptLoop.step_sound hserver with
      | dispatched hplace =>
          refine hexchanged.move c [] (fun d hne => ⟨Function.update_of_ne hne _ _, rfl⟩)
            fun said hsaid => ?_
          change Exchange (Function.update h.listener.place c (.writing response) c)
            (h.tasks.connections c) _
          rw [Function.update_self, List.append_nil]
          rw [hplace, hanswered] at hsaid
          rw [hanswered]
          cases hsaid with
          | dispatched => exact .writing
          | dispatching hopen => exact absurd rfl (hopen response)
  | server halone hserver => exact hexchanged.server hsound halone hserver
  | @call c event d hplace hdaemon =>
      cases Presenced.step_sound hdaemon with
      | @call _ conn _ _ hconn hcall =>
          obtain ⟨-, -, -, phase, hconns⟩ := hcall.frame
          rw [noteExchange_call hconn hdaemon]
          refine hexchanged.move c _ (fun d hne => ⟨rfl, ?_⟩) fun said hsaid => ?_
          · rw [hconns, Function.update_of_ne hne]
          · rw [hplace, hconn] at hsaid
            rw [hplace]
            exact hsaid.call hcall
  | loop hdaemon =>
      cases Presenced.step_sound hdaemon with
      | loop hloop => exact hexchanged.silent hloop.connections_eq fun _ => .inl rfl

theorem exchanged_run {initial : Hosted} {events : List HostedEvent}
    (hstart : (hosted prim).start initial) (hrun : (hosted prim).run initial events = some t) :
    Exchanged ((hosted prim).trace (noteExchange prim) initial events) t ∧ t.listener.Sound := by
  obtain ⟨hnew, seed, audited, orchestrated, startedAt, hinit⟩ := hstart
  have hbegin : Exchanged [] initial ∧ initial.listener.Sound := by
    obtain ⟨listener, tasks⟩ := initial
    obtain rfl : listener = .new := hnew
    obtain rfl : tasks = .init seed audited orchestrated startedAt := hinit
    exact ⟨fun _ => .unborn, sound_new⟩
  refine (hosted prim).run_trace_invariant (noteExchange prim)
    (fun seen h => Exchanged seen h ∧ h.listener.Sound) ?_ hbegin hrun
  intro seen h event next hinv hstep
  refine ⟨hinv.1.step hinv.2 hstep, ?_⟩
  have hcases := Hosted.step_sound hstep
  cases hcases with
  | heard hserver => exact hinv.2.step hserver
  | returned _ hserver => exact hinv.2.step hserver
  | server _ hserver => exact hinv.2.step hserver
  | _ => exact hinv.2

/-- On each connection, in every run of the accept loop with the daemon behind it: one request
is read at most, the daemon answers it, and what is written, once at most, is that answer; or
the read fails, and nothing is written. -/
theorem one_exchange_each {initial : Hosted} {events : List HostedEvent}
    (hstart : (hosted prim).start initial) (hrun : (hosted prim).run initial events = some t)
    (c : CallId) :
    let said := saidOn c ((hosted prim).trace (noteExchange prim) initial events)
    (∃ request response ok, said <+: conversation request response ok) ∨
      ∃ err, said = [.connected, .read (.error err)] :=
  ((exchanged_run hstart hrun).1 c).prefix_of_conversation

/-- The daemon takes every request that is read. -/
theorem heard_of_reading {initial : Hosted} {events : List HostedEvent}
    (hstart : (hosted prim).start initial) (hrun : (hosted prim).run initial events = some h)
    {c : CallId} (hplace : h.listener.place c = .reading) (request : Request) :
    ((hosted prim).step h (.server (.request c (.ok request)))).isSome = true := by
  have hnone : h.tasks.connections c = none := by
    have hexchange := (exchanged_run hstart hrun).1 c
    rw [hplace] at hexchange
    exact hexchange.eq_none_of_reading
  have hserver : server.step h.listener (.request c (.ok request)) =
      some (h.listener.move c .dispatching) := if_pos hplace
  have hdaemon : (daemon prim).step h.tasks (.accept c request) = some { h.tasks with
      connections := Function.update h.tasks.connections c (some ⟨request, .decoded⟩) } := by
    simp only [daemon, Presenced.step, hnone]
  simp only [hosted, Hosted.step, hserver, hdaemon, Option.isSome_some]

/-- One client is challenged by the daemon, another one goes away before it has asked. -/
def twoClients : List HostedEvent :=
  [.server (.connect 0), .server (.connect 1), .server .accept, .server .acquire,
    .server .accept, .server .acquire,
    .server (.request 0 (.ok (.challenge KnownAnswer.peerId KnownAnswer.nonce.val))),
    .call 0 (.dispatch 0), .call 0 .lookup, .call 0 .acquire, .call 0 (.stamp 0),
    .server (.request 1 (.error .frame)),
    .call 0 (.draw (.ok KnownAnswer.nonce) 0), .call 0 (.notified (.ok ()) 0),
    .call 0 (.responded (.ok KnownAnswer.signature.val) 0), .call 0 (.check 0),
    .call 0 (.audit true), .call 0 .finish,
    .server (.dispatched 0 (.challenge true (some KnownAnswer.signature.val) "ok")),
    .server (.written 0 true)]

theorem one_exchange_each_twoClients :
    let said c := saidOn c ((hosted KnownAnswer.primitives).trace
      (noteExchange KnownAnswer.primitives) ⟨.new, knownInitial⟩ twoClients)
    said 0 = conversation (.challenge KnownAnswer.peerId KnownAnswer.nonce.val)
        (.challenge true (some KnownAnswer.signature.val) "ok") true ∧
      said 1 = [.connected, .read (.error .frame)] ∧
      ∀ c, (∃ request response ok, said c <+: conversation request response ok) ∨
        ∃ err, said c = [.connected, .read (.error err)] := by
  have hsome : ((hosted KnownAnswer.primitives).run ⟨.new, knownInitial⟩ twoClients).isSome =
      true := by
    decide
  obtain ⟨final, hrun⟩ := Option.isSome_iff_exists.mp hsome
  exact ⟨by decide, by decide, one_exchange_each ⟨rfl, _, _, _, _, rfl⟩ hrun⟩

end Syauth.Presenced.AcceptLoop
