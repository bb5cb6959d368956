import Syauth.Presenced.Steps

/-! # One challenge in flight for each peer

The permit that admits a challenge lives in the cells of the peer's entry, and a
reload that adds the peer again allocates new cells.  The invariant ties every
call of a peer to one generation of cells; it survives a reload that adds a peer
for which no call is waiting for, or holding, an older permit.
-/

namespace Syauth.Presenced

open Transport

variable {prim : Primitives} {s t : State} {c : CallId} {peerId : String}

/-- The cells a call still works with. -/
def Phase.cell : Phase → Option CellId
  | .acquiring _ peer | .stamping _ peer | .drawing _ peer => some peer.cell
  | .notifying tx | .waiting tx | .checking tx _ => some tx.peer.cell
  | .auditing _ ending | .returning ending => ending.permit
  | .decoded | .looking _ | .answered _ => none

/-- The cells whose permit a call holds. -/
def Phase.permit : Phase → Option CellId
  | .acquiring _ _ => none
  | phase => phase.cell

/-- The call is between its `notify_challenge` and its return. -/
def Phase.inFlight : Phase → Bool
  | .notifying _ | .waiting _ | .checking _ _ => true
  | .auditing _ ending | .returning ending => ending.notified
  | _ => false

/-- An outcome decided after the notification still owns the permit. -/
def Phase.Owned (phase : Phase) : Prop :=
  phase.inFlight = true → phase.permit ≠ none

theorem Phase.cell_of_permit {phase : Phase} {cell : CellId} (hpermit : phase.permit = some cell) :
    phase.cell = some cell := by
  cases phase with
  | acquiring tStartMs peer => cases hpermit
  | _ => exact hpermit

theorem drawPhase_permit {tStartMs : Nat} {peer : PeerState} {random : Except String Nonce}
    {now : SystemTime} :
    (drawPhase prim peerId tStartMs peer random now).permit = some peer.cell := by
  cases random with
  | error err => rfl
  | ok drawn =>
      simp only [drawPhase, buildChallenge_eq]
      rfl

theorem notifiedPhase_permit {tx : Transaction} {result : Except PeripheralError Unit}
    {now : SystemTime} : (notifiedPhase peerId tx result now).permit = some tx.peer.cell := by
  cases result <;> rfl

theorem respondedPhase_permit {tx : Transaction} {result : Except PeripheralError Bytes}
    {now : SystemTime} :
    (respondedPhase prim peerId tx result now).permit = some tx.peer.cell := by
  unfold respondedPhase
  repeat' split
  all_goals rfl

/-! ## What a call step does to the permits -/

def State.holder (s : State) (cell : CellId) : Option CallId :=
  (s.live.cells cell).slotHolder

/-- The effect of a call step on the permits, by the position before and after. -/
inductive SlotEffect (s t : State) (c : CallId) (request : Request) (phase phase' : Phase) : Prop
  | leaves (hbefore : phase.permit = none) (hafter : phase'.cell = none)
      (hholder : ∀ cell, t.holder cell = s.holder cell)
  | looks (peerId : String) (nonce : Bytes) (entry : PeerEntry)
      (hrequest : request = .challenge peerId nonce)
      (hlookup : s.live.peers.lookup peerId = some entry)
      (hcell : phase'.cell = some entry.cell) (hpermit : phase'.permit = none)
      (hholder : ∀ cell, t.holder cell = s.holder cell)
  | takes (taken : CellId) (hbefore : phase.cell = some taken) (hafter : phase'.permit = some taken)
      (hfree : s.holder taken = none)
      (hholder : ∀ cell, t.holder cell = if cell = taken then some c else s.holder cell)
  | keeps (hcell : phase'.cell = phase.cell) (hpermit : phase'.permit = phase.permit)
      (hholder : ∀ cell, t.holder cell = s.holder cell)
  | drops (peerId : String) (nonce : Bytes) (dropped : CellId)
      (hrequest : request = .challenge peerId nonce)
      (hbefore : phase.permit = some dropped) (hafter : phase'.cell = none)
      (hholder : ∀ cell, t.holder cell = if cell = dropped then none else s.holder cell)

theorem holder_advance {conn : Connection} {phase : Phase} {cell : CellId} :
    (s.advance c conn phase).holder cell = s.holder cell := rfl

theorem holder_updateCell {updated cell : CellId} {f : PeerCell → PeerCell} :
    (s.updateCell updated f).holder cell =
      if cell = updated then (f (s.live.cells updated)).slotHolder else s.holder cell := by
  unfold State.holder
  simp only [State.live_updateCell, Live.updateCell, Function.update_apply]
  split <;> rfl

theorem holder_updateCell_of_same {updated cell : CellId} {f : PeerCell → PeerCell}
    (hsame : ∀ value, (f value).slotHolder = value.slotHolder) :
    (s.updateCell updated f).holder cell = s.holder cell := by
  rw [holder_updateCell, hsame]
  split
  · next heq => rw [heq, State.holder]
  · rfl

theorem slotEffect_of_permit {request : Request} {phase phase' : Phase} {cell : CellId}
    (hbefore : phase.permit = some cell) (hafter : phase'.permit = some cell)
    (hholder : ∀ other, t.holder other = s.holder other) :
    SlotEffect s t c request phase phase' :=
  .keeps ((Phase.cell_of_permit hafter).trans (Phase.cell_of_permit hbefore).symm)
    (hafter.trans hbefore.symm) hholder

theorem CallStep.slotEffect {request : Request} {phase phase' : Phase} {event : CallEvent}
    (hcall : CallStep prim s c ⟨request, phase⟩ event t)
    (hnext : t.connections c = some ⟨request, phase'⟩) :
    SlotEffect s t c request phase phase' := by
  cases hcall with
  | answer | enter | unknown | busy =>
      obtain rfl := State.phase_of_advance hnext
      exact .leaves rfl rfl fun _ => rfl
  | found hpeer =>
      obtain rfl := State.phase_of_advance hnext
      exact .looks _ _ _ rfl (lookupPeer_eq_some.mp hpeer) rfl rfl fun _ => rfl
  | @acquired _ _ _ peer hfree =>
      obtain rfl := State.phase_of_advance hnext
      refine .takes peer.cell rfl rfl hfree fun cell => ?_
      rw [holder_advance, holder_updateCell]
  | stamped | accepted =>
      -- these write to the cell, but not to its slot
      obtain rfl := State.phase_of_advance hnext
      refine slotEffect_of_permit rfl rfl fun cell => ?_
      rw [holder_advance]
      exact holder_updateCell_of_same fun _ => rfl
  | drew =>
      obtain rfl := State.phase_of_advance hnext
      exact slotEffect_of_permit rfl drawPhase_permit fun _ => rfl
  | notified =>
      obtain rfl := State.phase_of_advance hnext
      exact slotEffect_of_permit rfl notifiedPhase_permit fun _ => rfl
  | responded =>
      obtain rfl := State.phase_of_advance hnext
      exact slotEffect_of_permit rfl respondedPhase_permit fun _ => rfl
  | replayed =>
      obtain rfl := State.phase_of_advance hnext
      exact slotEffect_of_permit rfl rfl fun _ => rfl
  | audited =>
      obtain rfl := State.phase_of_advance hnext
      exact .keeps rfl rfl fun _ => rfl
  | finished hpermit =>
      obtain rfl := State.phase_of_advance hnext
      exact .leaves hpermit rfl fun _ => rfl
  | @released _ _ _ cell hpermit =>
      obtain rfl := State.phase_of_advance (s := s) hnext
      exact .drops _ _ cell rfl hpermit rfl fun other => holder_updateCell

/-! ## The invariant -/

/-- A call for the peer works with these cells. -/
def State.Uses (s : State) (c : CallId) (peerId : String) (cell : CellId) : Prop :=
  ∃ nonce phase, s.connections c = some ⟨.challenge peerId nonce, phase⟩ ∧ phase.cell = some cell

/-- A call for the peer holds the permit of these cells. -/
def State.Holds (s : State) (c : CallId) (peerId : String) (cell : CellId) : Prop :=
  ∃ nonce phase, s.connections c = some ⟨.challenge peerId nonce, phase⟩ ∧
    phase.permit = some cell

def State.InFlight (s : State) (c : CallId) (peerId : String) : Prop :=
  ∃ nonce phase, s.connections c = some ⟨.challenge peerId nonce, phase⟩ ∧ phase.inFlight = true

/-- At most one call for each peer is between its notification and its return. -/
def AtMostOneInFlight (s : State) : Prop :=
  ∀ peerId c c', s.InFlight c peerId → s.InFlight c' peerId → c = c'

/-- A permit that a call holds is marked as taken by that call.  This much survives
every reload. -/
structure PermitInvariant (s : State) : Prop where
  holder : ∀ c peerId cell, s.Holds c peerId cell → s.holder cell = some c
  allocated : ∀ c peerId cell, s.Uses c peerId cell → cell < s.live.nextCell
  live : ∀ peerId entry, s.live.peers.lookup peerId = some entry → entry.cell < s.live.nextCell

structure SlotInvariant (s : State) : Prop where
  holder : ∀ c peerId cell, s.Holds c peerId cell → s.holder cell = some c
  current : ∀ c peerId cell entry, s.Uses c peerId cell → s.live.peers.lookup peerId = some entry →
    entry.cell = cell
  shared : ∀ c c' peerId cell cell', s.Uses c peerId cell → s.Uses c' peerId cell' → cell = cell'
  allocated : ∀ c peerId cell, s.Uses c peerId cell → cell < s.live.nextCell
  live : ∀ peerId entry, s.live.peers.lookup peerId = some entry → entry.cell < s.live.nextCell
  owned : ∀ c conn, s.connections c = some conn → conn.phase.Owned

theorem State.Holds.uses {cell : CellId} (hholds : s.Holds c peerId cell) :
    s.Uses c peerId cell := by
  obtain ⟨nonce, phase, hconn, hpermit⟩ := hholds
  exact ⟨nonce, phase, hconn, Phase.cell_of_permit hpermit⟩

theorem SlotInvariant.permits (hinv : SlotInvariant s) : PermitInvariant s :=
  ⟨hinv.holder, hinv.allocated, hinv.live⟩

theorem SlotInvariant.atMostOne (hinv : SlotInvariant s) : AtMostOneInFlight s := by
  rintro peerId c c' ⟨nonce, phase, hconn, hflight⟩ ⟨nonce', phase', hconn', hflight'⟩
  obtain ⟨cell, hpermit⟩ := Option.ne_none_iff_exists'.mp (hinv.owned c _ hconn hflight)
  obtain ⟨cell', hpermit'⟩ := Option.ne_none_iff_exists'.mp (hinv.owned c' _ hconn' hflight')
  have hholds : s.Holds c peerId cell := ⟨nonce, phase, hconn, hpermit⟩
  have hholds' : s.Holds c' peerId cell' := ⟨nonce', phase', hconn', hpermit'⟩
  have hsame : cell = cell' := hinv.shared c c' peerId cell cell' hholds.uses hholds'.uses
  subst hsame
  have hc := hinv.holder c peerId cell hholds
  have hc' := hinv.holder c' peerId cell hholds'
  exact Option.some.inj (hc.symm.trans hc')

/-! ## Preservation by calls -/

theorem CallStep.owned {request : Request} {phase phase' : Phase} {event : CallEvent}
    (hcall : CallStep prim s c ⟨request, phase⟩ event t) (howned : phase.Owned)
    (hnext : t.connections c = some ⟨request, phase'⟩) : phase'.Owned := by
  cases hcall with
  | drew =>
      obtain rfl := State.phase_of_advance hnext
      rw [Phase.Owned, drawPhase_permit]
      exact fun _ => Option.some_ne_none _
  | notified =>
      obtain rfl := State.phase_of_advance hnext
      rw [Phase.Owned, notifiedPhase_permit]
      exact fun _ => Option.some_ne_none _
  | responded =>
      obtain rfl := State.phase_of_advance hnext
      rw [Phase.Owned, respondedPhase_permit]
      exact fun _ => Option.some_ne_none _
  | replayed | accepted =>
      obtain rfl := State.phase_of_advance hnext
      exact fun _ => Option.some_ne_none _
  | audited =>
      obtain rfl := State.phase_of_advance hnext
      exact howned
  | _ =>
      obtain rfl := State.phase_of_advance (s := s) hnext
      exact fun hflight => absurd hflight Bool.false_ne_true

/-- A call works with cells it worked with before, or with those of the entry it just found. -/
theorem CallStep.uses {conn : Connection} {event : CallEvent}
    (hconn : s.connections c = some conn) (hcall : CallStep prim s c conn event t) {c' : CallId}
    {cell : CellId} (huses : t.Uses c' peerId cell) :
    s.Uses c' peerId cell ∨
      ∃ entry, s.live.peers.lookup peerId = some entry ∧ entry.cell = cell := by
  obtain ⟨-, -, -, next, hconnections⟩ := hcall.frame
  obtain ⟨nonce, phase', hnext, hcell⟩ := huses
  by_cases hsame : c' = c
  · subst hsame
    obtain ⟨request, phase⟩ := conn
    obtain rfl : Request.challenge peerId nonce = request := hcall.request_eq hnext
    cases hcall.slotEffect hnext with
    | leaves _ hafter => rw [hafter] at hcell; cases hcell
    | drops _ _ _ _ _ hafter => rw [hafter] at hcell; cases hcell
    | looks _ _ entry hrequest hlookup hentry =>
        obtain ⟨rfl, -⟩ := Request.challenge.inj hrequest
        rw [hentry] at hcell
        exact .inr ⟨entry, hlookup, Option.some.inj hcell⟩
    | takes taken hbefore hafter =>
        rw [Phase.cell_of_permit hafter] at hcell
        rw [← Option.some.inj hcell]
        exact .inl ⟨nonce, phase, hconn, hbefore⟩
    | keeps hkept => exact .inl ⟨nonce, phase, hconn, hkept ▸ hcell⟩
  · rw [hconnections, Function.update_of_ne hsame] at hnext
    exact .inl ⟨nonce, phase', hnext, hcell⟩

theorem PermitInvariant.holder_call (hinv : PermitInvariant s) {conn : Connection}
    {event : CallEvent} (hconn : s.connections c = some conn)
    (hcall : CallStep prim s c conn event t) {c' : CallId} {cell : CellId}
    (hholds : t.Holds c' peerId cell) : t.holder cell = some c' := by
  obtain ⟨-, -, -, next, hconnections⟩ := hcall.frame
  obtain ⟨request, phase⟩ := conn
  have heffect := hcall.slotEffect (by rw [hconnections, Function.update_self])
  obtain ⟨nonce, phase', hnext, hpermit⟩ := hholds
  rw [hconnections, Function.update_apply] at hnext
  split at hnext
  · next hsame =>
      subst hsame
      obtain ⟨rfl, rfl⟩ := Connection.mk.inj (Option.some.inj hnext)
      cases heffect with
      | leaves _ hafter => rw [Phase.cell_of_permit hpermit] at hafter; cases hafter
      | drops _ _ _ _ _ hafter => rw [Phase.cell_of_permit hpermit] at hafter; cases hafter
      | looks _ _ _ _ _ _ hnone => rw [hnone] at hpermit; cases hpermit
      | takes taken _ hafter _ hholder =>
          obtain rfl := Option.some.inj (hafter.symm.trans hpermit)
          rw [hholder, if_pos rfl]
      | keeps _ hkept hholder =>
          rw [hholder]
          exact hinv.holder c' peerId cell ⟨nonce, phase, hconn, hkept ▸ hpermit⟩
  · next hne =>
      have hbefore : s.holder cell = some c' :=
        hinv.holder c' peerId cell ⟨nonce, phase', hnext, hpermit⟩
      cases heffect with
      | leaves _ _ hholder => rw [hholder, hbefore]
      | looks _ _ _ _ _ _ _ hholder => rw [hholder, hbefore]
      | keeps _ _ hholder => rw [hholder, hbefore]
      | takes taken _ _ hfree hholder =>
          rw [hholder, if_neg, hbefore]
          rintro rfl
          rw [hbefore] at hfree
          cases hfree
      | drops _ _ dropped hrequest hdropped _ hholder =>
          rw [hholder, if_neg, hbefore]
          rintro rfl
          -- The dropped permit was held by the stepping call, and by no other.
          have hown := hinv.holder c _ _ ⟨_, phase, hrequest ▸ hconn, hdropped⟩
          exact hne (Option.some.inj (hbefore.symm.trans hown))

theorem PermitInvariant.call (hinv : PermitInvariant s) {conn : Connection} {event : CallEvent}
    (hconn : s.connections c = some conn) (hcall : CallStep prim s c conn event t) :
    PermitInvariant t := by
  obtain ⟨hpeers, hnextCell, -, -⟩ := hcall.frame
  refine ⟨fun c' peerId cell hholds => hinv.holder_call hconn hcall hholds, ?_, ?_⟩
  · intro c' peerId cell huses
    rw [hnextCell]
    rcases hcall.uses hconn huses with hbefore | ⟨entry, hlookup, hcell⟩
    · exact hinv.allocated c' peerId cell hbefore
    · rw [← hcell]
      exact hinv.live peerId entry hlookup
  · rw [hpeers, hnextCell]
    exact hinv.live

theorem SlotInvariant.call (hinv : SlotInvariant s) {conn : Connection} {event : CallEvent}
    (hconn : s.connections c = some conn) (hcall : CallStep prim s c conn event t) :
    SlotInvariant t := by
  obtain ⟨hpeers, -, -, next, hconnections⟩ := hcall.frame
  obtain ⟨hholder, hallocated, hlive⟩ := hinv.permits.call hconn hcall
  refine ⟨hholder, ?_, ?_, hallocated, hlive, ?_⟩
  · intro c' peerId cell entry huses hlookup
    rw [hpeers] at hlookup
    rcases hcall.uses hconn huses with hbefore | ⟨found, hfound, hcell⟩
    · exact hinv.current c' peerId cell entry hbefore hlookup
    · rw [Option.some.inj (hlookup.symm.trans hfound), hcell]
  · -- each of the two calls had its cells before, or has just found those of the live entry
    intro c₁ c₂ peerId cell₁ cell₂ huses₁ huses₂
    rcases hcall.uses hconn huses₁ with hbefore₁ | ⟨entry₁, hlookup₁, hcell₁⟩
    · rcases hcall.uses hconn huses₂ with hbefore₂ | ⟨entry₂, hlookup₂, hcell₂⟩
      · exact hinv.shared c₁ c₂ peerId cell₁ cell₂ hbefore₁ hbefore₂
      · rw [← hcell₂, hinv.current c₁ peerId cell₁ entry₂ hbefore₁ hlookup₂]
    · rcases hcall.uses hconn huses₂ with hbefore₂ | ⟨entry₂, hlookup₂, hcell₂⟩
      · rw [← hcell₁, hinv.current c₂ peerId cell₂ entry₁ hbefore₂ hlookup₁]
      · rw [← hcell₁, ← hcell₂, Option.some.inj (hlookup₁.symm.trans hlookup₂)]
  · intro c' conn' hnext
    obtain ⟨request, phase⟩ := conn
    by_cases hsame : c' = c
    · subst hsame
      obtain ⟨request', phase'⟩ := conn'
      obtain rfl : request' = request := hcall.request_eq hnext
      exact hcall.owned (hinv.owned c' _ hconn) hnext
    · rw [hconnections, Function.update_of_ne hsame] at hnext
      exact hinv.owned c' conn' hnext

/-! ## Preservation by reloads -/

/-- If the step adds a peer, no call for it is waiting for or holding an older permit. -/
def AddsUnchallenged (s : State) : Event → Prop
  | .loop (.added (.ok ())) => ∀ task peerId, s.reload = some task →
      task.toAdd.head? = some peerId → ∀ c cell, ¬ s.Uses c peerId cell
  | _ => True

/-- No call moved; at most a connection was accepted. -/
def SameCalls (s t : State) : Prop :=
  ∀ c conn, t.connections c = some conn → s.connections c = some conn ∨ conn.phase = .decoded

theorem SameCalls.of_eq (hconnections : t.connections = s.connections) : SameCalls s t :=
  fun _ _ hconn => .inl (hconnections ▸ hconn)

theorem SameCalls.uses (hcalls : SameCalls s t) {cell : CellId} (huses : t.Uses c peerId cell) :
    s.Uses c peerId cell := by
  obtain ⟨nonce, phase, hconn, hcell⟩ := huses
  rcases hcalls c _ hconn with hbefore | hdecoded
  · exact ⟨nonce, phase, hbefore, hcell⟩
  · change phase = .decoded at hdecoded
    subst hdecoded
    cases hcell

theorem SameCalls.holds (hcalls : SameCalls s t) {cell : CellId} (hholds : t.Holds c peerId cell) :
    s.Holds c peerId cell := by
  obtain ⟨nonce, phase, hconn, hpermit⟩ := hholds
  rcases hcalls c _ hconn with hbefore | hdecoded
  · exact ⟨nonce, phase, hbefore, hpermit⟩
  · change phase = .decoded at hdecoded
    subst hdecoded
    cases hpermit

theorem SlotInvariant.owned_of_sameCalls (hinv : SlotInvariant s) (hcalls : SameCalls s t)
    {conn : Connection} (hconn : t.connections c = some conn) : conn.phase.Owned := by
  rcases hcalls c conn hconn with hbefore | hdecoded
  · exact hinv.owned c conn hbefore
  · rw [hdecoded]
    exact fun hflight => absurd hflight Bool.false_ne_true

theorem PermitInvariant.of_sameCalls (hinv : PermitInvariant s) (hcalls : SameCalls s t)
    (hcells : t.live.cells = s.live.cells) (hnextCell : t.live.nextCell = s.live.nextCell)
    (hpeers : ∀ peerId entry, t.live.peers.lookup peerId = some entry →
      s.live.peers.lookup peerId = some entry) : PermitInvariant t := by
  refine ⟨?_, ?_, ?_⟩
  · intro c peerId cell hholds
    rw [State.holder, hcells]
    exact hinv.holder c peerId cell (hcalls.holds hholds)
  · intro c peerId cell huses
    rw [hnextCell]
    exact hinv.allocated c peerId cell (hcalls.uses huses)
  · intro peerId entry hlookup
    rw [hnextCell]
    exact hinv.live peerId entry (hpeers peerId entry hlookup)

theorem SlotInvariant.of_sameCalls (hinv : SlotInvariant s) (hcalls : SameCalls s t)
    (hcells : t.live.cells = s.live.cells) (hnextCell : t.live.nextCell = s.live.nextCell)
    (hpeers : ∀ peerId entry, t.live.peers.lookup peerId = some entry →
      s.live.peers.lookup peerId = some entry) : SlotInvariant t := by
  obtain ⟨hholder, hallocated, hlive⟩ := hinv.permits.of_sameCalls hcalls hcells hnextCell hpeers
  refine ⟨hholder, ?_, ?_, hallocated, hlive,
    fun c conn hconn => hinv.owned_of_sameCalls hcalls hconn⟩
  · intro c peerId cell entry huses hlookup
    exact hinv.current c peerId cell entry (hcalls.uses huses) (hpeers peerId entry hlookup)
  · intro c c' peerId cell cell' huses huses'
    exact hinv.shared c c' peerId cell cell' (hcalls.uses huses) (hcalls.uses huses')

theorem cell_lt_insertPeer {live : Live} {added : String} {key : BondKey} {pubkey : Pubkey}
    {entry : PeerEntry}
    (hlive : ∀ peerId entry, live.peers.lookup peerId = some entry → entry.cell < live.nextCell)
    (hlookup : (live.insertPeer added key pubkey).peers.lookup peerId = some entry) :
    entry.cell < (live.insertPeer added key pubkey).nextCell := by
  rw [Live.peers_insertPeer] at hlookup
  by_cases hsame : peerId = added
  · subst hsame
    rw [AList.lookup_insert] at hlookup
    rw [← Option.some.inj hlookup]
    exact Nat.lt_succ_self _
  · rw [AList.lookup_insert_ne hsame] at hlookup
    exact Nat.lt_succ_of_lt (hlive peerId entry hlookup)

theorem PermitInvariant.insertPeer (hinv : PermitInvariant s) (hcalls : SameCalls s t)
    {added : String} {key : BondKey} {pubkey : Pubkey}
    (hlive : t.live = s.live.insertPeer added key pubkey) : PermitInvariant t := by
  have hnextCell : t.live.nextCell = s.live.nextCell + 1 := by rw [hlive]; rfl
  refine ⟨?_, ?_, ?_⟩
  · -- a permit that is held is of a cell allocated before the new one
    intro c peerId cell hholds
    have hallocated : cell < s.live.nextCell :=
      hinv.allocated c peerId cell (hcalls.holds hholds).uses
    have hcell : t.live.cells cell = s.live.cells cell := by
      rw [hlive]
      exact Function.update_of_ne (Nat.ne_of_lt hallocated) _ _
    rw [State.holder, hcell]
    exact hinv.holder c peerId cell (hcalls.holds hholds)
  · intro c peerId cell huses
    rw [hnextCell]
    exact Nat.lt_succ_of_lt (hinv.allocated c peerId cell (hcalls.uses huses))
  · intro peerId entry hlookup
    rw [hlive] at hlookup ⊢
    exact cell_lt_insertPeer hinv.live hlookup

/-- New cells for a peer without running calls keep every call on one generation. -/
theorem SlotInvariant.insertPeer (hinv : SlotInvariant s) (hcalls : SameCalls s t) {added : String}
    {key : BondKey} {pubkey : Pubkey} (hlive : t.live = s.live.insertPeer added key pubkey)
    (hunchallenged : ∀ c cell, ¬ s.Uses c added cell) : SlotInvariant t := by
  obtain ⟨hholder, hallocated, hcells⟩ := hinv.permits.insertPeer hcalls hlive
  refine ⟨hholder, ?_, ?_, hallocated, hcells,
    fun c conn hconn => hinv.owned_of_sameCalls hcalls hconn⟩
  · intro c peerId cell entry huses hlookup
    have hne : peerId ≠ added := by
      rintro rfl
      exact hunchallenged c cell (hcalls.uses huses)
    rw [hlive, Live.peers_insertPeer, AList.lookup_insert_ne hne] at hlookup
    exact hinv.current c peerId cell entry (hcalls.uses huses) hlookup
  · intro c c' peerId cell cell' huses huses'
    exact hinv.shared c c' peerId cell cell' (hcalls.uses huses) (hcalls.uses huses')

theorem lookup_doRemovePeer {live : Live} {removed : String} {result : Except PeripheralError Unit}
    {entry : PeerEntry} (hlookup : (doRemovePeer live removed result).peers.lookup peerId =
      some entry) : live.peers.lookup peerId = some entry := by
  cases result with
  | error err => exact hlookup
  | ok value =>
      have hne : peerId ≠ removed := by
        rintro rfl
        rw [doRemovePeer, Live.peers_removePeer, AList.lookup_erase] at hlookup
        cases hlookup
      rw [doRemovePeer, Live.peers_removePeer, AList.lookup_erase_ne hne] at hlookup
      exact hlookup

/-- What the loop does to the peer map: it takes entries out, or adds one with new cells. -/
inductive LiveEffect (s t : State) (event : LoopEvent) : Prop
  | keeps (hcells : t.live.cells = s.live.cells) (hnextCell : t.live.nextCell = s.live.nextCell)
      (hpeers : ∀ peerId entry, t.live.peers.lookup peerId = some entry →
        s.live.peers.lookup peerId = some entry)
  | adds (task : ReloadTask) (added : String) (key : BondKey) (pubkey : Pubkey)
      (hevent : event = .added (.ok ())) (hreload : s.reload = some task)
      (hhead : task.toAdd.head? = some added)
      (hlive : t.live = s.live.insertPeer added key pubkey)

theorem LoopStep.liveEffect {event : LoopEvent} (hloop : LoopStep prim s event t) :
    LiveEffect s t event := by
  cases hloop with
  | queued => exact .keeps rfl rfl fun _ _ hlookup => hlookup
  | skipped => exact .keeps rfl rfl fun _ _ hlookup => hlookup
  | began => exact .keeps rfl rfl fun _ _ hlookup => hlookup
  | @removed result _ _ _ removed _ _ hreload =>
      refine .keeps ?_ ?_ fun _ _ hlookup => lookup_doRemovePeer hlookup
      · cases result <;> rfl
      · cases result <;> rfl
  | @added result _ store newSet added _ hreload =>
      rcases addFromSet_cases store newSet s.live added result with
        hsame | ⟨key, pubkey, rfl, hinsert⟩
      · refine .keeps ?_ ?_ ?_ <;> simp only [hsame]
        exact fun _ _ hlookup => hlookup
      · exact .adds _ added key pubkey rfl hreload rfl hinsert
  | ended hreload =>
      refine .keeps ?_ ?_ ?_ <;> rw [State.live_rotateOnce]
      exact fun _ _ hlookup => hlookup
  | ticked hidle =>
      refine .keeps ?_ ?_ ?_ <;> rw [State.live_rotateOnce]
      exact fun _ _ hlookup => hlookup

theorem PermitInvariant.loop (hinv : PermitInvariant s) {event : LoopEvent}
    (hloop : LoopStep prim s event t) : PermitInvariant t := by
  have hcalls : SameCalls s t := .of_eq hloop.connections_eq
  cases hloop.liveEffect with
  | keeps hcells hnextCell hpeers => exact hinv.of_sameCalls hcalls hcells hnextCell hpeers
  | adds task added key pubkey hevent hreload hhead hlive => exact hinv.insertPeer hcalls hlive

theorem SlotInvariant.loop (hinv : SlotInvariant s) {event : LoopEvent}
    (hguard : AddsUnchallenged s (.loop event)) (hloop : LoopStep prim s event t) :
    SlotInvariant t := by
  have hcalls : SameCalls s t := .of_eq hloop.connections_eq
  cases hloop.liveEffect with
  | keeps hcells hnextCell hpeers => exact hinv.of_sameCalls hcalls hcells hnextCell hpeers
  | adds task added key pubkey hevent hreload hhead hlive =>
      subst hevent
      exact hinv.insertPeer hcalls hlive (hguard task added hreload hhead)

theorem SameCalls.of_accept {request : Request} :
    SameCalls s
      { s with connections := Function.update s.connections c (some ⟨request, .decoded⟩) } := by
  intro c' conn hconn
  simp only [Function.update_apply] at hconn
  split at hconn
  · rw [← Option.some.inj hconn]
    exact .inr rfl
  · exact .inl hconn

theorem PermitInvariant.step (hinv : PermitInvariant s) {event : Event}
    (hstep : Step prim s event t) : PermitInvariant t := by
  cases hstep with
  | accept hnew => exact hinv.of_sameCalls .of_accept rfl rfl fun _ _ hlookup => hlookup
  | call hconn hcall => exact hinv.call hconn hcall
  | loop hloop => exact hinv.loop hloop

theorem SlotInvariant.step (hinv : SlotInvariant s) {event : Event}
    (hguard : AddsUnchallenged s event) (hstep : Step prim s event t) : SlotInvariant t := by
  cases hstep with
  | accept hnew => exact hinv.of_sameCalls .of_accept rfl rfl fun _ _ hlookup => hlookup
  | call hconn hcall => exact hinv.call hconn hcall
  | loop hloop => exact hinv.loop hguard hloop

theorem live_withPeers_cells (seed : List (Bond × BondKey)) (live : Live)
    (hlive : ∀ peerId entry, live.peers.lookup peerId = some entry → entry.cell < live.nextCell) :
    let final := seed.foldl
      (fun live peer => live.insertPeer peer.1.peerId peer.2 peer.1.pubkey) live
    ∀ peerId entry, final.peers.lookup peerId = some entry → entry.cell < final.nextCell := by
  induction seed generalizing live with
  | nil => exact hlive
  | cons peer seed ih =>
      apply ih
      intro peerId entry hlookup
      exact cell_lt_insertPeer hlive hlookup

theorem slotInvariant_start {initial : State} (hstart : (daemon prim).start initial) :
    SlotInvariant initial := by
  obtain ⟨seed, audited, orchestrated, startedAt, rfl⟩ := hstart
  have hidle : ∀ c peerId cell,
      ¬ (State.init seed audited orchestrated startedAt).Uses c peerId cell := by
    rintro c peerId cell ⟨nonce, phase, hconn, -⟩
    cases hconn
  refine ⟨fun c peerId cell hholds => absurd hholds.uses (hidle c peerId cell), ?_, ?_, ?_, ?_, ?_⟩
  · intro c peerId cell entry huses
    exact absurd huses (hidle c peerId cell)
  · intro c c' peerId cell cell' huses
    exact absurd huses (hidle c peerId cell)
  · intro c peerId cell huses
    exact absurd huses (hidle c peerId cell)
  · exact live_withPeers_cells seed Live.empty fun _ _ hlookup => by cases hlookup
  · intro c conn hconn
    cases hconn

/-- In every run whose reloads add a peer only while no call for it waits for or
holds an older permit, at most one call for each peer is in flight at any time. -/
theorem atMostOne_inFlight {initial final : State} {events : List Event}
    (hstart : (daemon prim).start initial)
    (hguard : (daemon prim).AllSteps AddsUnchallenged initial events)
    (hrun : (daemon prim).run initial events = some final) : AtMostOneInFlight final := by
  have hinv : SlotInvariant final :=
    (daemon prim).run_invariant_of_allSteps AddsUnchallenged SlotInvariant
      (fun _ _ _ hinv hguard hstep => hinv.step hguard (step_sound hstep))
      (slotInvariant_start hstart) hguard hrun
  exact hinv.atMostOne

/-! ## A peer that is removed and added again -/

/-- A connection challenges the phone and has handed its frame to the peripheral. -/
def notifiedCall (c : CallId) (nonce : Nonce) : List Event :=
  [.accept c (.challenge KnownAnswer.peerId KnownAnswer.nonce.val), .call c (.dispatch 0),
    .call c .lookup, .call c .acquire, .call c (.stamp 0),
    .call c (.draw (.ok nonce) 0), .call c (.notified (.ok ()) 0)]

/-- A reload removes the peer and a second one adds it. -/
def readdingReloads : List Event :=
  [.loop (.signal .sighup),
    .loop (.reloadBegin (.parsed ⟨1, []⟩) (fun _ => .error "not read") .declared),
    .loop (.removed (.ok ())), .loop (.reloadEnd 0 (.ok ())),
    .loop (.signal .pair),
    .loop (.reloadBegin (.parsed ⟨1, [knownBond]⟩) (fun _ => .ok KnownAnswer.bondKey.val)
      .declared),
    .loop (.added (.ok ())), .loop (.reloadEnd 0 (.ok ()))]

theorem readded_peer_two_in_flight :
    ∃ final, (daemon KnownAnswer.primitives).run knownInitial
      (notifiedCall 0 KnownAnswer.nonce ++ readdingReloads ++
        notifiedCall 1 (Octets.zero nonceLen)) = some final ∧
      ¬ AtMostOneInFlight final := by
  have hphases : ((daemon KnownAnswer.primitives).run knownInitial
      (notifiedCall 0 KnownAnswer.nonce ++ readdingReloads ++
        notifiedCall 1 (Octets.zero nonceLen))).map
        (fun final => [final.connections 0, final.connections 1].map
          (Option.map fun conn => (conn.request, conn.phase.inFlight))) =
      some [some (.challenge KnownAnswer.peerId KnownAnswer.nonce.val, true),
        some (.challenge KnownAnswer.peerId KnownAnswer.nonce.val, true)] := by
    decide
  obtain ⟨final, hrun, hfinal⟩ := Option.map_eq_some_iff.mp hphases
  refine ⟨final, hrun, fun hone => ?_⟩
  have hflight : ∀ c, (final.connections c).map (fun conn => (conn.request, conn.phase.inFlight)) =
      some (.challenge KnownAnswer.peerId KnownAnswer.nonce.val, true) →
        final.InFlight c KnownAnswer.peerId := by
    intro c hcall
    obtain ⟨⟨request, phase⟩, hconn, hpair⟩ := Option.map_eq_some_iff.mp hcall
    obtain ⟨rfl, hphase⟩ := Prod.mk.inj hpair
    exact ⟨_, phase, hconn, hphase⟩
  obtain ⟨hfirst, hrest⟩ := List.cons.inj hfinal
  have hsecond := (List.cons.inj hrest).1
  exact absurd (hone _ 0 1 (hflight 0 hfirst) (hflight 1 hsecond)) (by decide)

/-- The reloads up to the step that adds the peer. -/
def untilReadded : List Event := knownExchange ++ readdingReloads.take 6

theorem addsUnchallenged_untilReadded {s : State}
    (hreached : (daemon KnownAnswer.primitives).run knownInitial untilReadded = some s) :
    AddsUnchallenged s (.loop (.added (.ok ()))) := by
  have hother : ∀ c, ((daemon KnownAnswer.primitives).run knownInitial untilReadded).map
      (fun s => s.connections (c + 1)) = some none := fun _ => rfl
  have hanswered : ((daemon KnownAnswer.primitives).run knownInitial untilReadded).map
      (fun s => (s.connections 0).bind fun conn => conn.phase.cell) = some none := by
    decide
  rw [hreached] at hanswered
  rintro - peerId - - c cell ⟨nonce, phase, hconn, hcell⟩
  cases c with
  | zero =>
      have hfirst : s.connections 0 = some ⟨.challenge peerId nonce, phase⟩ := hconn
      rw [Option.map_some, hfirst, Option.bind_some, hcell] at hanswered
      cases hanswered
  | succ c =>
      have hnone := hother c
      rw [hreached] at hnone
      cases (Option.some.inj hnone).symm.trans hconn

/-- The first call has returned when the peer is removed and added again; then a second one
hands its frame over. -/
theorem atMostOne_inFlight_readded :
    ∃ final, (daemon KnownAnswer.primitives).run knownInitial
        (untilReadded ++ readdingReloads.drop 6 ++ notifiedCall 1 (Octets.zero nonceLen)) =
          some final ∧
      final.InFlight 1 KnownAnswer.peerId ∧ AtMostOneInFlight final := by
  have hphase : ((daemon KnownAnswer.primitives).run knownInitial
      (untilReadded ++ readdingReloads.drop 6 ++ notifiedCall 1 (Octets.zero nonceLen))).map
        (fun final => (final.connections 1).map fun conn => (conn.request, conn.phase.inFlight)) =
      some (some (.challenge KnownAnswer.peerId KnownAnswer.nonce.val, true)) := by
    decide
  obtain ⟨final, hrun, hfinal⟩ := Option.map_eq_some_iff.mp hphase
  obtain ⟨⟨request, phase⟩, hconn, hpair⟩ := Option.map_eq_some_iff.mp hfinal
  obtain ⟨rfl, hinFlight⟩ := Prod.mk.inj hpair
  refine ⟨final, hrun, ⟨_, phase, hconn, hinFlight⟩, ?_⟩
  refine atMostOne_inFlight ⟨_, _, _, _, rfl⟩ ?_ hrun
  rw [List.append_assoc] at hrun ⊢
  obtain ⟨middle, hreached, -⟩ := (daemon KnownAnswer.primitives).run_append_eq_some.mp hrun
  refine ((daemon KnownAnswer.primitives).allSteps_append hreached).mpr ⟨?_, ?_⟩
  · refine Transition.System.allSteps_of_forall _ ?_ knownInitial
    simp [untilReadded, knownExchange, exchangeOf, readdingReloads, AddsUnchallenged]
  · refine ⟨addsUnchallenged_untilReadded hreached, fun next _ => ?_⟩
    refine Transition.System.allSteps_of_forall _ ?_ next
    simp [notifiedCall, AddsUnchallenged]

end Syauth.Presenced
