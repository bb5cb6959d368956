import Syauth.Cli.WaybarConfirm

/-! # What the operator clicked on

Every answer of the response file and every card of the applet goes back to a request that
some invocation wrote.  An invocation returns `true` only for a click on the card with its own
identifier, and so with its own code.
-/

namespace Syauth.Cli.WaybarConfirm

open Text Transition

/-- The process and the clock reading of an invocation that asks. -/
def Event.stamp : Event → Option (Nat × Nat)
  | .enter _ r _ => some (r.pid, r.nanos)
  | _ => none

def Asked (past : List Event) (r : ConfirmRequest) : Prop :=
  ∃ h removes, .enter h r removes ∈ past

/-- Empty, or a request that was asked with whatever an older one has left behind it. -/
def FromRequest (past : List Event) (content : Bytes) : Prop :=
  content = [] ∨ ∃ r createdAtSecs rest, Asked past r ∧
    content = r.requestJson createdAtSecs ++ rest

/-- A click on a card with the identifier, or the deadline. -/
def Answered (past : List Event) (clicks : List (ConfirmCard × Bool)) (h : HandlerId)
    (r : ConfirmRequest) (decision : Bool) : Prop :=
  (∃ card, (card, decision) ∈ clicks ∧ card.requestId = r.requestId) ∨
    (decision = false ∧ .deadline h ∈ past)

/-- The invocation gives up before it waits. -/
def Event.GivesUp (h : HandlerId) : Event → Prop
  | .noDirectory other => other = h
  | .openRequest other opens => other = h ∧ opens = false
  | .writeRequest other _ writes => other = h ∧ writes = false
  | _ => False

/-- Everything in the files and in the hands of the applet goes back to a request. -/
structure Traced (past : List Event) (s : Ipc) : Prop where
  request : ∀ content, s.requestFile = some content → FromRequest past content
  cards : ∀ card ∈ s.cards, ∃ r, Asked past r ∧ card = r.card
  clicks : ∀ p ∈ s.clicks, .click p.1 p.2 ∈ past ∧ p.1 ∈ s.cards
  response : ∀ content, s.responseFile = some content →
    ∃ p ∈ s.clicks, PartOf content (answerJson p.1 p.2)
  asked : ∀ h r, (s.phases h).request? = some r → ∃ removes, .enter h r removes ∈ past
  answered : ∀ h r decision, (s.phases h).decision? = some (r, decision) →
    Answered past s.clicks h r decision
  failed : ∀ h, s.phases h = .failed → ∃ event ∈ past, event.GivesUp h

section Traced

variable {readCard : Bytes → Option ConfirmCard} {past : List Event} {s t : Ipc}

theorem Asked.later {r : ConfirmRequest} (hasked : Asked past r) (event : Event) :
    Asked (past ++ [event]) r := by
  obtain ⟨h, removes, hmem⟩ := hasked
  exact ⟨h, removes, List.mem_append_left [event] hmem⟩

theorem Traced.later (htraced : Traced past s) (event : Event) : Traced (past ++ [event]) s where
  request := by
    intro content hcontent
    refine (htraced.request content hcontent).imp_right ?_
    exact fun ⟨r, createdAtSecs, rest, hasked, hrequest⟩ =>
      ⟨r, createdAtSecs, rest, hasked.later event, hrequest⟩
  cards := fun card hcard =>
    (htraced.cards card hcard).imp fun r hr => ⟨hr.1.later event, hr.2⟩
  clicks := fun p hp => ⟨List.mem_append_left [event] (htraced.clicks p hp).1,
    (htraced.clicks p hp).2⟩
  response := htraced.response
  asked := fun h r hr =>
    (htraced.asked h r hr).imp fun removes hmem => List.mem_append_left [event] hmem
  answered := fun h r decision hdecision =>
    (htraced.answered h r decision hdecision).imp_right fun hdeadline =>
      ⟨hdeadline.1, List.mem_append_left [event] hdeadline.2⟩
  failed := fun h hfailed => by
    obtain ⟨other, hmem, hgives⟩ := htraced.failed h hfailed
    exact ⟨other, List.mem_append_left [event] hmem, hgives⟩

theorem Traced.advance (htraced : Traced past s) {h : HandlerId} {phase : Phase}
    (hasked : ∀ r, phase.request? = some r → ∃ removes, .enter h r removes ∈ past)
    (hanswered : ∀ r decision, phase.decision? = some (r, decision) →
      Answered past s.clicks h r decision)
    (hfailed : phase = .failed → ∃ event ∈ past, event.GivesUp h) :
    Traced past (s.advance h phase) where
  request := htraced.request
  cards := htraced.cards
  clicks := htraced.clicks
  response := htraced.response
  asked := by
    intro other r hr
    simp only [Ipc.advance, Function.update_apply] at hr
    split at hr
    · next heq => exact heq ▸ hasked r hr
    · exact htraced.asked other r hr
  answered := by
    intro other r decision hdecision
    simp only [Ipc.advance, Function.update_apply] at hdecision
    split at hdecision
    · next heq => exact heq ▸ hanswered r decision hdecision
    · exact htraced.answered other r decision hdecision
  failed := by
    intro other hother
    simp only [Ipc.advance, Function.update_apply] at hother
    split at hother
    · next heq => exact heq ▸ hfailed hother
    · exact htraced.failed other hother

/-- An invocation goes on with the request it has. -/
theorem Traced.proceed (htraced : Traced past s) {h : HandlerId} {r : ConfirmRequest}
    {phase : Phase} (hold : (s.phases h).request? = some r) (hnew : phase.request? = some r)
    (hanswered : ∀ decision, phase.decision? = some (r, decision) →
      Answered past s.clicks h r decision) : Traced past (s.advance h phase) := by
  refine htraced.advance (fun other hother => ?_) (fun other decision hdecision => ?_)
    (fun hfailed => ?_)
  · rw [hnew] at hother
    cases hother
    exact htraced.asked h r hold
  · have hother := request?_of_decision? hdecision
    rw [hnew] at hother
    cases hother
    exact hanswered decision hdecision
  · rw [hfailed] at hnew
    cases hnew

theorem Traced.proceed_undecided (htraced : Traced past s) {h : HandlerId} {r : ConfirmRequest}
    {phase : Phase} (hold : (s.phases h).request? = some r) (hnew : phase.request? = some r)
    (hnone : phase.decision? = none) : Traced past (s.advance h phase) := by
  refine htraced.proceed hold hnew fun decision hdecision => ?_
  rw [hnone] at hdecision
  cases hdecision

theorem Traced.fail (htraced : Traced past s) {event : Event} (h : HandlerId)
    (hgives : event.GivesUp h) : Traced (past ++ [event]) (s.advance h .failed) :=
  (htraced.later event).advance (fun r hr => by cases hr)
    (fun r decision hdecision => by cases hdecision)
    fun _ => ⟨event, List.mem_concat_self, hgives⟩

theorem Traced.withRequest (htraced : Traced past s) {content : Option Bytes} (inode : Inode)
    (hcontent : ∀ bytes, content = some bytes → FromRequest past bytes) :
    Traced past { s with requestFile := content, requestInode := inode } where
  request := hcontent
  cards := htraced.cards
  clicks := htraced.clicks
  response := htraced.response
  asked := htraced.asked
  answered := htraced.answered
  failed := htraced.failed

theorem Traced.withResponse (htraced : Traced past s) {content : Option Bytes}
    (hcontent : ∀ bytes, content = some bytes →
      ∃ p ∈ s.clicks, PartOf bytes (answerJson p.1 p.2)) :
    Traced past { s with responseFile := content } where
  request := htraced.request
  cards := htraced.cards
  clicks := htraced.clicks
  response := hcontent
  asked := htraced.asked
  answered := htraced.answered
  failed := htraced.failed

theorem Traced.withCard (htraced : Traced past s) {card : ConfirmCard}
    (hcard : ∃ r, Asked past r ∧ card = r.card) :
    Traced past { s with cards := card :: s.cards } where
  request := htraced.request
  cards := by
    intro other hother
    rcases List.mem_cons.mp hother with rfl | hold
    · exact hcard
    · exact htraced.cards other hold
  clicks := fun p hp =>
    ⟨(htraced.clicks p hp).1, List.mem_cons_of_mem card (htraced.clicks p hp).2⟩
  response := htraced.response
  asked := htraced.asked
  answered := htraced.answered
  failed := htraced.failed

theorem Traced.withClick (htraced : Traced past s) {card : ConfirmCard} {accepts : Bool}
    (hclick : .click card accepts ∈ past) (hshown : card ∈ s.cards) :
    Traced past { s with clicks := (card, accepts) :: s.clicks } where
  request := htraced.request
  cards := htraced.cards
  clicks := by
    intro p hp
    rcases List.mem_cons.mp hp with rfl | hold
    · exact ⟨hclick, hshown⟩
    · exact htraced.clicks p hold
  response := by
    intro content hcontent
    obtain ⟨p, hp, hpart⟩ := htraced.response content hcontent
    exact ⟨p, List.mem_cons_of_mem _ hp, hpart⟩
  asked := htraced.asked
  answered := by
    intro h r decision hdecision
    refine (htraced.answered h r decision hdecision).imp_left fun hclicked => ?_
    obtain ⟨other, hother, hid⟩ := hclicked
    exact ⟨other, List.mem_cons_of_mem _ hother, hid⟩
  failed := htraced.failed

/-- A file that is removed, or cannot be. -/
theorem Traced.request_ite (htraced : Traced past s) (removes : Bool) :
    ∀ bytes, (if removes then none else s.requestFile) = some bytes → FromRequest past bytes := by
  intro bytes hbytes
  split at hbytes
  · cases hbytes
  · exact htraced.request bytes hbytes

theorem Traced.response_ite (htraced : Traced past s) (removes : Bool) :
    ∀ bytes, (if removes then none else s.responseFile) = some bytes →
      ∃ p ∈ s.clicks, PartOf bytes (answerJson p.1 p.2) := by
  intro bytes hbytes
  split at hbytes
  · cases hbytes
  · exact htraced.response bytes hbytes

theorem Traced.truncateRequest (htraced : Traced past s) : Traced past s.truncateRequest := by
  rw [Ipc.truncateRequest]
  split
  · exact htraced.withRequest s.requestInode fun bytes hbytes => .inl (Option.some.inj hbytes).symm
  · exact htraced.withRequest (s.requestInode + 1) fun bytes hbytes =>
      .inl (Option.some.inj hbytes).symm

/-- A request that is written over an older one leaves a part of that behind it at most. -/
theorem Traced.writeAt (htraced : Traced past s) (inode : Inode) {r : ConfirmRequest}
    (hasked : Asked past r) (createdAtSecs : Nat) :
    Traced past (s.writeAt inode (r.requestJson createdAtSecs)) := by
  rw [Ipc.writeAt]
  split
  · refine htraced.withRequest s.requestInode fun bytes hbytes => .inr ?_
    obtain ⟨old, -, hold⟩ := Option.map_eq_some_iff.mp hbytes
    exact ⟨r, createdAtSecs, _, hasked, hold.symm⟩
  · exact htraced

theorem asked_of_card (hreads : ReadsRequests readCard) {content : Bytes}
    {card : ConfirmCard} (hcontent : FromRequest past content)
    (hcard : readCard content = some card) : ∃ r, Asked past r ∧ card = r.card := by
  rcases hcontent with rfl | ⟨r, createdAtSecs, rest, hasked, rfl⟩
  · rw [hreads.nil] at hcard
    cases hcard
  · exact ⟨r, hasked, hreads.request hcard⟩

theorem Traced.quote_notMem (htraced : Traced past s) {p : ConfirmCard × Bool}
    (hclick : p ∈ s.clicks) : '"' ∉ p.1.requestId.toList := by
  obtain ⟨r, -, hcard⟩ := htraced.cards p.1 (htraced.clicks p hclick).2
  rw [hcard]
  exact r.quote_notMem_requestId

/-- A verdict of the response file is that of a click on a card with the identifier. -/
theorem Traced.answered_of_response (htraced : Traced past s) {content : Bytes} {h : HandlerId}
    {r : ConfirmRequest} {decision : Bool} (hcontent : s.responseFile = some content)
    (hparse : parseDecision content r.requestId = some decision) :
    Answered past s.clicks h r decision := by
  obtain ⟨p, hclick, hpart⟩ := htraced.response content hcontent
  obtain ⟨hid, rfl⟩ := parseDecision_of_partOf (htraced.quote_notMem hclick) hpart hparse
  exact .inl ⟨p.1, hclick, hid⟩

theorem Traced.step (hreads : ReadsRequests readCard) (htraced : Traced past s) {event : Event}
    (hstep : Step readCard s event t) : Traced (past ++ [event]) t := by
  have hlater := htraced.later event
  cases hstep with
  | @noDirectory h hidle => exact htraced.fail h rfl
  | @enter h r removes hidle =>
      refine (hlater.withResponse (hlater.response_ite removes)).advance ?_ ?_ ?_
      · intro other hother
        cases hother
        exact ⟨removes, List.mem_concat_self⟩
      · intro other decision hdecision
        cases hdecision
      · intro hfailed
        cases hfailed
  | @opens h r hasking =>
      refine hlater.truncateRequest.proceed_undecided ?_ rfl rfl
      rw [phases_truncateRequest, hasking]
      rfl
  | @opensNot h r hasking => exact htraced.fail h ⟨rfl, rfl⟩
  | @writes h createdAtSecs r inode hopened =>
      have hold : (s.phases h).request? = some r := by rw [hopened]; rfl
      have hwritten := hlater.writeAt inode ⟨h, hlater.asked h r hold⟩ createdAtSecs
      refine hwritten.proceed_undecided ?_ rfl rfl
      rwa [phases_writeAt]
  | @writesNot h createdAtSecs r inode hopened => exact htraced.fail h ⟨rfl, rfl⟩
  | @finds h reads r decision hwaiting hread =>
      obtain ⟨content, hcontent, hparse⟩ := Option.bind_eq_some_iff.mp hread
      refine hlater.proceed (by rw [hwaiting]; rfl) rfl fun word hword => ?_
      cases hword
      split at hcontent
      · exact hlater.answered_of_response hcontent hparse
      · cases hcontent
  | findsNot hwaiting hread => exact hlater
  | @deadline h r hwaiting =>
      refine hlater.proceed (by rw [hwaiting]; rfl) rfl fun word hword => ?_
      cases hword
      exact .inr ⟨rfl, List.mem_concat_self⟩
  | @removeRequest h removes r decision hdecided =>
      refine (hlater.withRequest s.requestInode (hlater.request_ite removes)).proceed
        (by rw [hdecided]; rfl) rfl fun word hword => ?_
      cases hword
      exact hlater.answered h r decision (by rw [hdecided]; rfl)
  | @removeResponse h removes r decision hcleaning =>
      refine (hlater.withResponse (hlater.response_ite removes)).proceed
        (by rw [hcleaning]; rfl) rfl fun word hword => ?_
      cases hword
      exact hlater.answered h r decision (by rw [hcleaning]; rfl)
  | @showCard content card hcontent hcard =>
      exact hlater.withCard (asked_of_card hreads (hlater.request content hcontent) hcard)
  | click hshown => exact hlater.withClick List.mem_concat_self hshown
  | @respond content hanswers =>
      refine hlater.withResponse fun bytes hbytes => ?_
      cases hbytes
      exact hanswers

theorem Traced.of_start (hstart : Start s) : Traced [] s := by
  obtain ⟨hrequest, hresponse, hcards, hclicks, hidle⟩ := hstart
  refine ⟨?_, ?_, ?_, ?_, ?_, ?_, ?_⟩
  · intro content hcontent
    rw [hrequest] at hcontent
    cases hcontent
  · rw [hcards]
    exact nofun
  · rw [hclicks]
    exact nofun
  · intro content hcontent
    rw [hresponse] at hcontent
    cases hcontent
  · intro h r hr
    rw [hidle h] at hr
    cases hr
  · intro h r decision hdecision
    rw [hidle h] at hdecision
    cases hdecision
  · intro h hfailed
    rw [hidle h] at hfailed
    cases hfailed

theorem traced_of_run (hreads : ReadsRequests readCard) (hstart : Start s) {events : List Event}
    (hrun : (applet readCard).run s events = some t) : Traced events t :=
  (applet readCard).run_events_invariant Traced
    (fun _ _ _ _ htraced hstep => htraced.step hreads (step_sound hstep)) (Traced.of_start hstart)
    hrun

/-- Where no process asks twice at one reading of the clock, an identifier belongs to one
invocation. -/
theorem enter_eq {events : List Event} (hstamps : (events.filterMap Event.stamp).Nodup)
    {h h' : HandlerId} {r r' : ConfirmRequest} {removes removes' : Bool}
    (hmem : .enter h r removes ∈ events) (hmem' : .enter h' r' removes' ∈ events)
    (hsame : r.requestId = r'.requestId) :
    Event.enter h r removes = .enter h' r' removes' := by
  by_contra hne
  obtain ⟨hpid, hnanos⟩ := ConfirmRequest.stamp_of_requestId hsame
  have : Std.Symm fun a b : Event => ∀ x, a.stamp = some x → ∀ y, b.stamp = some y → x ≠ y :=
    ⟨fun a b hapart x hx y hy => (hapart y hy x hx).symm⟩
  have hpairs := List.pairwise_filterMap.mp hstamps
  exact hpairs.forall hmem hmem' hne _ rfl _ rfl (Prod.ext hpid hnanos)

/-- What an invocation decides was clicked on the card with its own code, after it asked, or it
is `false` and the time is over. -/
theorem decided_own_click (hreads : ReadsRequests readCard) (hstart : Start s)
    {events : List Event} (hstamps : (events.filterMap Event.stamp).Nodup)
    (hrun : (applet readCard).run s events = some t) {h : HandlerId} {r : ConfirmRequest}
    {decision : Bool} (hdecision : (t.phases h).decision? = some (r, decision)) :
    (∃ before after removes, events = before ++ .click r.card decision :: after ∧
        .enter h r removes ∈ before) ∨
      (decision = false ∧ .deadline h ∈ events) := by
  have htraced := traced_of_run hreads hstart hrun
  obtain ⟨removes, hasked⟩ := htraced.asked h r (request?_of_decision? hdecision)
  rcases htraced.answered h r decision hdecision with ⟨card, hclick, hid⟩ | hlate
  · obtain ⟨before, after, rfl⟩ := List.append_of_mem (htraced.clicks _ hclick).1
    -- the card was there when it was clicked on, and its request had been asked by then
    obtain ⟨middle, hbefore, hrest⟩ := (applet readCard).run_append_eq_some.mp hrun
    obtain ⟨next, hstep, -⟩ := (applet readCard).run_cons_eq_some.mp hrest
    have hshown : card ∈ middle.cards := by
      cases step_sound hstep with
      | click hshown => exact hshown
    obtain ⟨r', ⟨h', removes', hasked'⟩, rfl⟩ :=
      (traced_of_run hreads hstart hbefore).cards card hshown
    cases enter_eq hstamps hasked (List.mem_append_left _ hasked') hid.symm
    exact .inl ⟨before, after, removes, rfl, hasked'⟩
  · exact .inr hlate

/-- What an invocation returns was clicked on the card with its own code, after it asked; or it
is `false`, and the time is over or the invocation could not write its request. -/
theorem returned_own_click (hreads : ReadsRequests readCard) (hstart : Start s)
    {events : List Event} (hstamps : (events.filterMap Event.stamp).Nodup)
    (hrun : (applet readCard).run s events = some t) {h : HandlerId} {decision : Bool}
    (hresult : (t.phases h).result? = some decision) :
    (∃ r before after removes, t.phases h = .returned r decision ∧
        events = before ++ .click r.card decision :: after ∧ .enter h r removes ∈ before) ∨
      (decision = false ∧ .deadline h ∈ events) ∨
      (decision = false ∧ t.phases h = .failed ∧ ∃ event ∈ events, event.GivesUp h) := by
  cases hphase : t.phases h with
  | returned r returned =>
      rw [hphase] at hresult
      obtain rfl := Option.some.inj hresult
      rcases decided_own_click hreads hstart hstamps hrun (by rw [hphase]; rfl) with
        ⟨before, after, removes, hevents, hasked⟩ | hlate
      · exact .inl ⟨r, before, after, removes, rfl, hevents, hasked⟩
      · exact .inr (.inl hlate)
  | failed =>
      rw [hphase] at hresult
      obtain rfl := Option.some.inj hresult
      exact .inr (.inr ⟨rfl, rfl, (traced_of_run hreads hstart hrun).failed h hphase⟩)
  | _ =>
      rw [hphase] at hresult
      cases hresult

end Traced

/-! ## Two invocations at once -/

def emptyDirectory : Ipc := ⟨0, none, none, [], [], fun _ => .idle⟩

/-- A second invocation asks while the first one waits, and a third one has no directory. -/
def crossedRequests (r r' : ConfirmRequest) (createdAtSecs : Nat) : List Event :=
  [.enter 0 r true, .openRequest 0 true, .writeRequest 0 createdAtSecs true, .showCard,
    .enter 1 r' true, .openRequest 1 true, .noDirectory 2, .writeRequest 1 createdAtSecs true,
    .showCard]

/-- The operator accepts the first code, and both invocations read the answer. -/
def firstAnswer (r : ConfirmRequest) : List Event :=
  [.click r.card true, .respond (answerJson r.card true), .poll 1 true, .poll 0 true,
    .removeRequest 0 true, .removeResponse 0 true]

def secondAnswer (r : ConfirmRequest) : List Event :=
  [.click r.card false, .respond (answerJson r.card false), .poll 1 true, .removeRequest 1 true,
    .removeResponse 1 true]

/-- The answer to another request is not taken. -/
theorem parseDecision_other {r r' : ConfirmRequest} (hne : r.requestId ≠ r'.requestId)
    (decision : Bool) : parseDecision (answerJson r.card decision) r'.requestId = none := by
  rw [Option.eq_none_iff_forall_ne_some]
  intro word hword
  have hquote : '"' ∉ r.card.requestId.toList := r.quote_notMem_requestId
  obtain ⟨hid, -⟩ := parseDecision_of_partOf hquote (.inl List.prefix_rfl) hword
  exact hne hid

theorem run_crossedRequests (r r' : ConfirmRequest) (createdAtSecs : Nat) :
    ∃ t, (applet scanCard).run emptyDirectory (crossedRequests r r' createdAtSecs) = some t ∧
      t.phases 0 = .waiting r ∧ t.phases 1 = .waiting r' ∧ t.phases 2 = .failed ∧
      t.cards = [r'.card, r.card] := by
  simp [crossedRequests, emptyDirectory, System.run, applet, step, Ipc.advance,
    Ipc.truncateRequest, Ipc.writeAt, scanCard_requestJson]

theorem run_firstAnswer {s : Ipc} {r r' : ConfirmRequest} (hne : r.requestId ≠ r'.requestId)
    (hfirst : s.phases 0 = .waiting r) (hsecond : s.phases 1 = .waiting r')
    (hshown : r.card ∈ s.cards) :
    ∃ t, (applet scanCard).run s (firstAnswer r) = some t ∧ t.phases 0 = .returned r true ∧
      t.phases 1 = .waiting r' ∧ t.phases 2 = s.phases 2 ∧ t.cards = s.cards := by
  simp [firstAnswer, System.run, applet, step, Ipc.advance, hfirst, hsecond, hshown, PartOf,
    parseDecision_answerJson, parseDecision_other hne]

theorem run_secondAnswer {s : Ipc} {r : ConfirmRequest} (hwaiting : s.phases 1 = .waiting r)
    (hshown : r.card ∈ s.cards) :
    ∃ t, (applet scanCard).run s (secondAnswer r) = some t ∧ t.phases 1 = .returned r false ∧
      t.phases 0 = s.phases 0 ∧ t.phases 2 = s.phases 2 := by
  simp [secondAnswer, System.run, applet, step, Ipc.advance, hwaiting, hshown, PartOf,
    parseDecision_answerJson]

def acceptedRequest : ConfirmRequest := ⟨4711, 1760780000000000000, 42⟩

def rejectedRequest : ConfirmRequest := ⟨4712, 1760780000500000000, 42⟩

def crossedExchanges : List Event :=
  crossedRequests acceptedRequest rejectedRequest 1760780000 ++
    (firstAnswer acceptedRequest ++ secondAnswer rejectedRequest)

/-- Of two pairings with the same code the first one is accepted and the second one rejected,
and the third invocation gives up. -/
theorem returned_own_click_crossed : ∃ t,
    (applet scanCard).run emptyDirectory crossedExchanges = some t ∧
      t.phases 0 = .returned acceptedRequest true ∧
      t.phases 1 = .returned rejectedRequest false ∧ t.phases 2 = .failed ∧
      ∀ h decision, (t.phases h).result? = some decision →
        (∃ r before after removes, t.phases h = .returned r decision ∧
            crossedExchanges = before ++ .click r.card decision :: after ∧
            .enter h r removes ∈ before) ∨
          (decision = false ∧ .deadline h ∈ crossedExchanges) ∨
          (decision = false ∧ t.phases h = .failed ∧
            ∃ event ∈ crossedExchanges, event.GivesUp h) := by
  have hstart : Start emptyDirectory := ⟨rfl, rfl, rfl, rfl, fun _ => rfl⟩
  have hne : acceptedRequest.requestId ≠ rejectedRequest.requestId := by decide
  obtain ⟨asked, hasked, hfirst, hsecond, hthird, hcards⟩ :=
    run_crossedRequests acceptedRequest rejectedRequest 1760780000
  obtain ⟨answered, hanswered, hreturned, hwaiting, hkept, hsame⟩ :=
    run_firstAnswer hne hfirst hsecond (by simp [hcards])
  obtain ⟨t, hlast, hreject, hstays, hfailed⟩ :=
    run_secondAnswer hwaiting (by simp [hsame, hcards])
  have hrun : (applet scanCard).run emptyDirectory crossedExchanges = some t :=
    (applet scanCard).run_append_eq_some.mpr ⟨asked, hasked,
      (applet scanCard).run_append_eq_some.mpr ⟨answered, hanswered, hlast⟩⟩
  refine ⟨t, hrun, hstays.trans hreturned, hreject, hfailed.trans (hkept.trans hthird), ?_⟩
  intro h decision hresult
  exact returned_own_click readsRequests_scanCard hstart (by decide) hrun hresult

end Syauth.Cli.WaybarConfirm
