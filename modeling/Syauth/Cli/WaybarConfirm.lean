import Syauth.Cli.WaybarFiles
import Syauth.Transition.System
import Mathlib.Logic.Function.Basic

/-! # The code on the waybar applet

`make_waybar_confirm_handler` of `crates/syauth-cli/src/pair_backend.rs`, invoked any number
of times in any number of processes that share the directory of the applet.  An invocation
asks through the request file and polls the response file.  The applet reads the one, shows
a card, and writes the other when the card is clicked on; neither file is locked.
-/

namespace Syauth.Cli

open Text Transition

namespace WaybarConfirm

abbrev HandlerId := Nat
abbrev Inode := Nat

/-- Where an invocation of the handler stands. -/
inductive Phase where
  | idle
  /-- The identifier is chosen, and the stale response has been removed or was not there. -/
  | asking (r : ConfirmRequest)
  /-- `fs::write` has opened the request file and emptied it. -/
  | opened (r : ConfirmRequest) (inode : Inode)
  /-- In `wait_for_decision`. -/
  | waiting (r : ConfirmRequest)
  | decided (r : ConfirmRequest) (decision : Bool)
  /-- The request file has been removed, or could not be. -/
  | cleaning (r : ConfirmRequest) (decision : Bool)
  | returned (r : ConfirmRequest) (decision : Bool)
  /-- `false` without an answer of anybody. -/
  | failed
  deriving DecidableEq

/-- What an invocation that goes on asks about. -/
def Phase.request? : Phase → Option ConfirmRequest
  | .asking r | .opened r _ | .waiting r | .decided r _ | .cleaning r _ | .returned r _ => some r
  | .idle | .failed => none

def Phase.decision? : Phase → Option (ConfirmRequest × Bool)
  | .decided r decision | .cleaning r decision | .returned r decision => some (r, decision)
  | _ => none

/-- What the handler returns. -/
def Phase.result? : Phase → Option Bool
  | .returned _ decision => some decision
  | .failed => some false
  | _ => none

theorem request?_of_decision? {phase : Phase} {r : ConfirmRequest} {decision : Bool}
    (hdecision : phase.decision? = some (r, decision)) : phase.request? = some r := by
  cases phase <;> cases hdecision <;> rfl

structure Ipc where
  /-- The inode of the request file, and of the last one when there is none. -/
  requestInode : Inode
  requestFile : Option Bytes
  responseFile : Option Bytes
  cards : List ConfirmCard
  clicks : List (ConfirmCard × Bool)
  phases : HandlerId → Phase

inductive Event where
  /-- `pair_ipc_dir` has no path, or `create_dir_all` fails. -/
  | noDirectory (h : HandlerId)
  | enter (h : HandlerId) (r : ConfirmRequest) (removes : Bool)
  | openRequest (h : HandlerId) (opens : Bool)
  | writeRequest (h : HandlerId) (createdAtSecs : Nat) (writes : Bool)
  | poll (h : HandlerId) (reads : Bool)
  | deadline (h : HandlerId)
  | removeRequest (h : HandlerId) (removes : Bool)
  | removeResponse (h : HandlerId) (removes : Bool)
  /-- The applet reads the request file. -/
  | showCard
  | click (card : ConfirmCard) (accepts : Bool)
  /-- What the response file holds while or after the applet answers a click. -/
  | respond (content : Bytes)
  deriving DecidableEq

def Ipc.advance (s : Ipc) (h : HandlerId) (phase : Phase) : Ipc :=
  { s with phases := Function.update s.phases h phase }

/-- One `write` at the start of the file that was opened, wherever its name is now. -/
def Ipc.writeAt (s : Ipc) (inode : Inode) (bytes : Bytes) : Ipc :=
  if s.requestInode = inode then
    { s with requestFile := s.requestFile.map fun old => bytes ++ old.drop bytes.length }
  else s

/-- Open for writing, creating the file when there is none. -/
def Ipc.truncateRequest (s : Ipc) : Ipc :=
  match s.requestFile with
  | some _ => { s with requestFile := some [] }
  | none => { s with requestFile := some [], requestInode := s.requestInode + 1 }

@[simp]
theorem phases_writeAt (s : Ipc) (inode : Inode) (bytes : Bytes) :
    (s.writeAt inode bytes).phases = s.phases := by
  rw [Ipc.writeAt]
  split <;> rfl

@[simp]
theorem phases_truncateRequest (s : Ipc) : s.truncateRequest.phases = s.phases := by
  rw [Ipc.truncateRequest]
  split <;> rfl

@[simp]
theorem responseFile_writeAt (s : Ipc) (inode : Inode) (bytes : Bytes) :
    (s.writeAt inode bytes).responseFile = s.responseFile := by
  rw [Ipc.writeAt]
  split <;> rfl

@[simp]
theorem responseFile_truncateRequest (s : Ipc) :
    s.truncateRequest.responseFile = s.responseFile := by
  rw [Ipc.truncateRequest]
  split <;> rfl

section Step

variable (readCard : Bytes → Option ConfirmCard) (s : Ipc)

def step : Event → Option Ipc
  | .noDirectory h =>
      match s.phases h with
      | .idle => some (s.advance h .failed)
      | _ => none
  | .enter h r removes =>
      match s.phases h with
      | .idle =>
          some ({ s with responseFile := if removes then none else s.responseFile }.advance h
            (.asking r))
      | _ => none
  | .openRequest h opens =>
      match s.phases h with
      | .asking r =>
          if opens then
            some (s.truncateRequest.advance h (.opened r s.truncateRequest.requestInode))
          else some (s.advance h .failed)
      | _ => none
  | .writeRequest h createdAtSecs writes =>
      match s.phases h with
      | .opened r inode =>
          if writes then
            some ((s.writeAt inode (r.requestJson createdAtSecs)).advance h (.waiting r))
          else some (s.advance h .failed)
      | _ => none
  | .poll h reads =>
      match s.phases h with
      | .waiting r =>
          match (if reads then s.responseFile else none).bind (parseDecision · r.requestId) with
          | some decision => some (s.advance h (.decided r decision))
          | none => some s
      | _ => none
  | .deadline h =>
      match s.phases h with
      | .waiting r => some (s.advance h (.decided r false))
      | _ => none
  | .removeRequest h removes =>
      match s.phases h with
      | .decided r decision =>
          some ({ s with requestFile := if removes then none else s.requestFile }.advance h
            (.cleaning r decision))
      | _ => none
  | .removeResponse h removes =>
      match s.phases h with
      | .cleaning r decision =>
          some ({ s with responseFile := if removes then none else s.responseFile }.advance h
            (.returned r decision))
      | _ => none
  | .showCard =>
      (s.requestFile.bind readCard).map fun card => { s with cards := card :: s.cards }
  | .click card accepts =>
      if card ∈ s.cards then some { s with clicks := (card, accepts) :: s.clicks } else none
  | .respond content =>
      if ∃ p ∈ s.clicks, PartOf content (answerJson p.1 p.2) then
        some { s with responseFile := some content }
      else none

/-- Nobody has been asked yet, and the directory is empty. -/
def Start : Prop :=
  s.requestFile = none ∧ s.responseFile = none ∧ s.cards = [] ∧ s.clicks = [] ∧
    ∀ h, s.phases h = .idle

def applet : System Ipc Event where
  start := Start
  step := step readCard

end Step

/-! ## What a step does -/

inductive Step (readCard : Bytes → Option ConfirmCard) (s : Ipc) : Event → Ipc → Prop where
  | noDirectory {h} (hidle : s.phases h = .idle) :
      Step readCard s (.noDirectory h) (s.advance h .failed)
  | enter {h r removes} (hidle : s.phases h = .idle) :
      Step readCard s (.enter h r removes)
        ({ s with responseFile := if removes then none else s.responseFile }.advance h (.asking r))
  | opens {h r} (hasking : s.phases h = .asking r) :
      Step readCard s (.openRequest h true)
        (s.truncateRequest.advance h (.opened r s.truncateRequest.requestInode))
  | opensNot {h r} (hasking : s.phases h = .asking r) :
      Step readCard s (.openRequest h false) (s.advance h .failed)
  | writes {h createdAtSecs r inode} (hopened : s.phases h = .opened r inode) :
      Step readCard s (.writeRequest h createdAtSecs true)
        ((s.writeAt inode (r.requestJson createdAtSecs)).advance h (.waiting r))
  | writesNot {h createdAtSecs r inode} (hopened : s.phases h = .opened r inode) :
      Step readCard s (.writeRequest h createdAtSecs false) (s.advance h .failed)
  | finds {h reads r decision} (hwaiting : s.phases h = .waiting r)
      (hread : (if reads then s.responseFile else none).bind (parseDecision · r.requestId) =
        some decision) :
      Step readCard s (.poll h reads) (s.advance h (.decided r decision))
  | findsNot {h reads r} (hwaiting : s.phases h = .waiting r)
      (hread : (if reads then s.responseFile else none).bind (parseDecision · r.requestId) =
        none) :
      Step readCard s (.poll h reads) s
  | deadline {h r} (hwaiting : s.phases h = .waiting r) :
      Step readCard s (.deadline h) (s.advance h (.decided r false))
  | removeRequest {h removes r decision} (hdecided : s.phases h = .decided r decision) :
      Step readCard s (.removeRequest h removes)
        ({ s with requestFile := if removes then none else s.requestFile }.advance h
          (.cleaning r decision))
  | removeResponse {h removes r decision} (hcleaning : s.phases h = .cleaning r decision) :
      Step readCard s (.removeResponse h removes)
        ({ s with responseFile := if removes then none else s.responseFile }.advance h
          (.returned r decision))
  | showCard {content card} (hcontent : s.requestFile = some content)
      (hcard : readCard content = some card) :
      Step readCard s .showCard { s with cards := card :: s.cards }
  | click {card accepts} (hshown : card ∈ s.cards) :
      Step readCard s (.click card accepts) { s with clicks := (card, accepts) :: s.clicks }
  | respond {content} (hanswers : ∃ p ∈ s.clicks, PartOf content (answerJson p.1 p.2)) :
      Step readCard s (.respond content) { s with responseFile := some content }

theorem step_sound {readCard : Bytes → Option ConfirmCard} {s t : Ipc} {event : Event}
    (hstep : (applet readCard).step s event = some t) : Step readCard s event t := by
  change step readCard s event = some t at hstep
  unfold step at hstep
  split at hstep
  next h =>
    split at hstep
    next hidle => exact Option.some.inj hstep ▸ .noDirectory hidle
    next => cases hstep
  next h r removes =>
    split at hstep
    next hidle => exact Option.some.inj hstep ▸ .enter hidle
    next => cases hstep
  next h opens =>
    split at hstep
    next r hasking =>
      cases opens with
      | true => exact Option.some.inj hstep ▸ .opens hasking
      | false => exact Option.some.inj hstep ▸ .opensNot hasking
    next => cases hstep
  next h createdAtSecs writes =>
    split at hstep
    next r inode hopened =>
      cases writes with
      | true => exact Option.some.inj hstep ▸ .writes hopened
      | false => exact Option.some.inj hstep ▸ .writesNot hopened
    next => cases hstep
  next h reads =>
    split at hstep
    next r hwaiting =>
      split at hstep
      next decision hread => exact Option.some.inj hstep ▸ .finds hwaiting hread
      next hread => exact Option.some.inj hstep ▸ .findsNot hwaiting hread
    next => cases hstep
  next h =>
    split at hstep
    next r hwaiting => exact Option.some.inj hstep ▸ .deadline hwaiting
    next => cases hstep
  next h removes =>
    split at hstep
    next r decision hdecided => exact Option.some.inj hstep ▸ .removeRequest hdecided
    next => cases hstep
  next h removes =>
    split at hstep
    next r decision hcleaning => exact Option.some.inj hstep ▸ .removeResponse hcleaning
    next => cases hstep
  next =>
    obtain ⟨card, hcard, rfl⟩ := Option.map_eq_some_iff.mp hstep
    obtain ⟨content, hcontent, hread⟩ := Option.bind_eq_some_iff.mp hcard
    exact .showCard hcontent hread
  next card accepts =>
    split at hstep
    next hshown => exact Option.some.inj hstep ▸ .click hshown
    next => cases hstep
  next content =>
    split at hstep
    next hanswers => exact Option.some.inj hstep ▸ .respond hanswers
    next => cases hstep

/-! ## The wait of one invocation -/

/-- The invocation that takes a step. -/
def Event.handler? : Event → Option HandlerId
  | .noDirectory h | .enter h _ _ | .openRequest h _ | .writeRequest h _ _ | .poll h _
  | .deadline h | .removeRequest h _ | .removeResponse h _ => some h
  | .showCard | .click _ _ | .respond _ => none

section Wait

variable {readCard : Bytes → Option ConfirmCard} {s t : Ipc} {h : HandlerId} {r : ConfirmRequest}
  {decision : Bool} {event : Event} {events : List Event}

theorem phases_advance_of_ne {k : HandlerId} (s : Ipc) (hne : h ≠ k) (phase : Phase) :
    (s.advance k phase).phases h = s.phases h := Function.update_of_ne hne _ _

/-- No other invocation moves this one. -/
theorem phases_of_step (hstep : Step readCard s event t) (hother : event.handler? ≠ some h) :
    t.phases h = s.phases h := by
  have hne : ∀ k, event.handler? = some k → h ≠ k := by
    rintro k hk rfl
    exact hother hk
  cases hstep with
  | opens =>
      rw [phases_advance_of_ne _ (hne _ rfl), phases_truncateRequest]
  | writes =>
      rw [phases_advance_of_ne _ (hne _ rfl), phases_writeAt]
  | findsNot | showCard | click | respond => rfl
  | _ => exact phases_advance_of_ne _ (hne _ rfl) _

/-- What the polls of an invocation find. -/
def found (h : HandlerId) (s : Ipc) : Event → List (Option Bytes)
  | .poll other reads => if other = h then [if reads then s.responseFile else none] else []
  | _ => []

theorem found_of_other (hother : event.handler? ≠ some h) : found h s event = [] := by
  cases event with
  | poll other reads => exact if_neg fun heq : other = h => hother (heq ▸ rfl)
  | _ => rfl

/-- A poll that finds nothing leaves the invocation in its wait, one that finds a decision or
the deadline ends it. -/
theorem step_waiting (hwaiting : s.phases h = .waiting r) (hstep : Step readCard s event t) :
    (t.phases h = .waiting r ∧
        ∀ file ∈ found h s event, file.bind (parseDecision · r.requestId) = none) ∨
      (∃ file decision, found h s event = [file] ∧
        file.bind (parseDecision · r.requestId) = some decision ∧
        t.phases h = .decided r decision) ∨
      (event = .deadline h ∧ t.phases h = .decided r false) := by
  by_cases hown : event.handler? = some h
  · have hsame : ∀ {k}, k = h → s.phases k = .waiting r := fun heq => heq ▸ hwaiting
    cases hstep with
    | @finds k reads r' decision hthere hread =>
        obtain rfl : k = h := Option.some.inj hown
        obtain rfl := Phase.waiting.inj (hthere.symm.trans hwaiting)
        exact .inr (.inl ⟨_, decision, if_pos rfl, hread, Function.update_self ..⟩)
    | @findsNot k reads r' hthere hread =>
        obtain rfl : k = h := Option.some.inj hown
        obtain rfl := Phase.waiting.inj (hthere.symm.trans hwaiting)
        refine .inl ⟨hwaiting, fun file hfile => ?_⟩
        rw [found, if_pos rfl, List.mem_singleton] at hfile
        rw [hfile, hread]
    | @deadline k r' hthere =>
        obtain rfl : k = h := Option.some.inj hown
        obtain rfl := Phase.waiting.inj (hthere.symm.trans hwaiting)
        exact .inr (.inr ⟨rfl, Function.update_self ..⟩)
    | noDirectory hphase | enter hphase | opens hphase | opensNot hphase | writes hphase
    | writesNot hphase | removeRequest hphase | removeResponse hphase =>
        cases hphase.symm.trans (hsame (Option.some.inj hown))
    | showCard | click | respond => cases hown
  · refine .inl ⟨(phases_of_step hstep hown).trans hwaiting, fun file hfile => ?_⟩
    rw [found_of_other hown] at hfile
    exact absurd hfile List.not_mem_nil

theorem step_decision (hdecision : (s.phases h).decision? = some (r, decision))
    (hstep : Step readCard s event t) :
    (t.phases h).decision? = some (r, decision) ∧ found h s event = [] := by
  by_cases hown : event.handler? = some h
  · have hphase : ∀ {k phase}, s.phases k = phase → some k = some h →
        phase.decision? = some (r, decision) := by
      rintro k phase rfl hk
      obtain rfl := Option.some.inj hk
      exact hdecision
    cases hstep with
    | @removeRequest k removes _ _ hold | @removeResponse k removes _ _ hold =>
        have hkept := hphase hold hown
        obtain rfl : k = h := Option.some.inj hown
        refine ⟨?_, rfl⟩
        simp only [Ipc.advance, Function.update_self]
        exact hkept
    | noDirectory hold | enter hold | opens hold | opensNot hold | writes hold | writesNot hold
    | finds hold | findsNot hold | deadline hold => cases hphase hold hown
    | showCard | click | respond => cases hown
  · rw [phases_of_step hstep hown]
    exact ⟨hdecision, found_of_other hown⟩

/-- The wait goes on while the polls find nothing, and ends with what `wait_for_decision` makes
of all of them. -/
def Waits (h : HandlerId) (r : ConfirmRequest) (seen : List (Option Bytes)) (s : Ipc) : Prop :=
  (s.phases h = .waiting r ∧
      (seen.findSome? fun file => file.bind (parseDecision · r.requestId)) = none) ∨
    (s.phases h).decision? = some (r, waitForDecision seen r.requestId)

theorem Waits.step {seen : List (Option Bytes)} (hwaits : Waits h r seen s)
    (hstep : Step readCard s event t) : Waits h r (seen ++ found h s event) t := by
  rcases hwaits with ⟨hwaiting, hseen⟩ | hdecision
  · rcases step_waiting hwaiting hstep with ⟨hnext, hfound⟩ |
      ⟨file, decision, hfile, hread, hnext⟩ | ⟨rfl, hnext⟩
    · refine .inl ⟨hnext, ?_⟩
      rw [List.findSome?_append, hseen, Option.none_or]
      exact List.findSome?_eq_none_iff.mpr hfound
    · refine .inr ?_
      rw [hnext, waitForDecision, List.findSome?_append, hseen, Option.none_or, hfile]
      simp [hread, Phase.decision?]
    · refine .inr ?_
      have hnone : found h s (.deadline h) = [] := rfl
      rw [hnext, hnone, List.append_nil, waitForDecision, hseen]
      rfl
  · obtain ⟨hnext, hnone⟩ := step_decision hdecision hstep
    rw [hnone, List.append_nil]
    exact .inr hnext

/-- Polling step by step returns what the loop returns on everything it reads. -/
theorem decision_eq_waitForDecision (hwaiting : s.phases h = .waiting r)
    (hrun : (applet readCard).run s events = some t)
    (hdecision : (t.phases h).decision? = some (r, decision)) :
    decision =
      waitForDecision ((applet readCard).trace (found h) s events) r.requestId := by
  have hwaits : Waits h r ([] ++ (applet readCard).trace (found h) s events) t :=
    (applet readCard).run_trace_invariant (found h) (Waits h r)
      (fun _ _ _ _ hwaits hstep => hwaits.step (step_sound hstep)) (.inl ⟨hwaiting, rfl⟩) hrun
  rcases hwaits with ⟨hstill, -⟩ | hdecided
  · rw [hstill] at hdecision
    cases hdecision
  · rw [hdecided] at hdecision
    cases hdecision
    rfl

/-! ## An answer that stays -/

/-- The answer stays in the file and the invocation in its wait. -/
def KeepsAnswer (h : HandlerId) (r : ConfirmRequest) (decision : Bool) : Event → Prop
  | .enter _ _ removes => removes = false
  | .removeResponse other removes => other = h ∨ removes = false
  | .respond content => content = answerJson r.card decision
  | .deadline other => other ≠ h
  | _ => True

/-- In its wait with the answer in the file, or decided as the answer says. -/
def Holds (h : HandlerId) (r : ConfirmRequest) (decision : Bool) (s : Ipc) : Prop :=
  (s.phases h = .waiting r ∧ s.responseFile = some (answerJson r.card decision)) ∨
    (s.phases h).decision? = some (r, decision)

theorem responseFile_of_keepsAnswer (hwaiting : s.phases h = .waiting r)
    (hkeeps : KeepsAnswer h r decision event)
    (hanswer : s.responseFile = some (answerJson r.card decision))
    (hstep : Step readCard s event t) :
    t.responseFile = some (answerJson r.card decision) := by
  cases hstep with
  | @enter k other removes hidle =>
      obtain rfl : removes = false := hkeeps
      exact hanswer
  | @removeResponse k removes other word hcleaning =>
      rcases hkeeps with rfl | rfl
      · cases hcleaning.symm.trans hwaiting
      · exact hanswer
  | @respond content hanswers =>
      obtain rfl : content = answerJson r.card decision := hkeeps
      rfl
  | opens => exact (responseFile_truncateRequest s).trans hanswer
  | writes => exact (responseFile_writeAt s _ _).trans hanswer
  | _ => exact hanswer

theorem Holds.step (hholds : Holds h r decision s) (hkeeps : KeepsAnswer h r decision event)
    (hstep : Step readCard s event t) :
    Holds h r decision t ∧
      (event = .poll h true → (t.phases h).decision? = some (r, decision)) := by
  rcases hholds with ⟨hwaiting, hanswer⟩ | hdecision
  · rcases step_waiting hwaiting hstep with ⟨hnext, hfound⟩ | ⟨file, word, hfile, hread, hnext⟩ |
      ⟨rfl, -⟩
    · refine ⟨.inl ⟨hnext, responseFile_of_keepsAnswer hwaiting hkeeps hanswer hstep⟩, ?_⟩
      rintro rfl
      have hnone := hfound s.responseFile (by simp [found])
      rw [hanswer, Option.bind_some, parseDecision_answerJson] at hnone
      cases hnone
    · -- what is found is the answer, where anything is
      have hword : word = decision := by
        cases event with
        | poll k reads =>
            have hmem : file ∈ found h s (.poll k reads) := hfile ▸ List.mem_singleton_self file
            simp only [found] at hmem
            split at hmem
            · obtain rfl := List.mem_singleton.mp hmem
              split at hread
              · rw [hanswer, Option.bind_some, parseDecision_answerJson] at hread
                exact (Option.some.inj hread).symm
              · cases hread
            · cases hmem
        | _ => cases hfile
      subst hword
      have hdecided : (t.phases h).decision? = some (r, word) := by
        rw [hnext]
        rfl
      exact ⟨.inr hdecided, fun _ => hdecided⟩
    · exact absurd rfl hkeeps
  · have hnext := (step_decision hdecision hstep).1
    exact ⟨.inr hnext, fun _ => hnext⟩

theorem Holds.run (hholds : Holds h r decision s)
    (hkeeps : ∀ event ∈ events, KeepsAnswer h r decision event)
    (hrun : (applet readCard).run s events = some t) : Holds h r decision t :=
  (applet readCard).run_invariant_of_allSteps (fun _ event => KeepsAnswer h r decision event)
    (Holds h r decision)
    (fun _ _ _ hholds hkeeps hstep => (hholds.step hkeeps (step_sound hstep)).1) hholds
    ((applet readCard).allSteps_of_forall (fun event hmem _ => hkeeps event hmem) s) hrun

/-- An answer that nobody else removes or writes over is what the invocation returns, once one
of its polls has read the file before the deadline. -/
theorem answer_is_taken (hwaiting : s.phases h = .waiting r)
    (hanswer : s.responseFile = some (answerJson r.card decision))
    (hkeeps : ∀ event ∈ events, KeepsAnswer h r decision event)
    (hrun : (applet readCard).run s events = some t) (hpoll : .poll h true ∈ events) :
    (t.phases h).decision? = some (r, decision) := by
  obtain ⟨before, after, rfl⟩ := List.append_of_mem hpoll
  obtain ⟨middle, hbefore, hrest⟩ := (applet readCard).run_append_eq_some.mp hrun
  obtain ⟨next, hstep, hafter⟩ := (applet readCard).run_cons_eq_some.mp hrest
  have hholds : Holds h r decision middle := Holds.run (.inl ⟨hwaiting, hanswer⟩)
    (fun event hmem => hkeeps event (List.mem_append_left _ hmem)) hbefore
  have htaken := (hholds.step (hkeeps _ (List.mem_append_right _ List.mem_cons_self))
    (step_sound hstep)).2 rfl
  exact (applet readCard).run_invariant (fun s' => (s'.phases h).decision? = some (r, decision))
    (fun _ _ _ hdecision hlater => (step_decision hdecision (step_sound hlater)).1) htaken hafter

end Wait

/-! ## An invocation on its own -/

def loneExchange (h : HandlerId) (r : ConfirmRequest) (createdAtSecs : Nat) (decision : Bool) :
    List Event :=
  [.enter h r true, .openRequest h true, .writeRequest h createdAtSecs true, .showCard,
    .click r.card decision, .respond (answerJson r.card decision), .poll h true,
    .removeRequest h true, .removeResponse h true]

theorem run_loneExchange {readCard : Bytes → Option ConfirmCard} {s : Ipc} (hstart : Start s)
    (h : HandlerId) (r : ConfirmRequest) (createdAtSecs : Nat) (decision : Bool)
    (hcard : readCard (r.requestJson createdAtSecs) = some r.card) :
    ∃ t, (applet readCard).run s (loneExchange h r createdAtSecs decision) = some t ∧
      t.phases h = .returned r decision ∧ t.requestFile = none ∧ t.responseFile = none := by
  obtain ⟨hrequest, hresponse, hcards, hclicks, hidle⟩ := hstart
  simp [loneExchange, System.run, applet, step, hidle, Ipc.advance, Ipc.truncateRequest, hrequest,
    Ipc.writeAt, hcard, hcards, hclicks, PartOf, parseDecision_answerJson]

end WaybarConfirm

end Syauth.Cli
