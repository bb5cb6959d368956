import Syauth.Android.Pair.OneResult

/-! # A persisted bond and the attempt it comes from

The picked peer, the stashed key material and the address of the running exchange
live in separate fields, and a result carries no mark of its attempt.  They belong
together as long as no pick finds an exchange of another device under way and no
cancelled pick is missed by the result.
-/

namespace Syauth.Android.Pair

open Transition

inductive PairObservation where
  /-- A pick that took effect. -/
  | picked (peer : PeerHandle)
  /-- An exchange with the device that ended well. -/
  | exchanged (address : String) (bondKey : Bytes) (keystoreAlias : String) (phonePubkey : Bytes)
  deriving DecidableEq

/-- A pick takes effect when its handler sees `Scanning`. -/
def Threaded.observe (prim : Primitives) (s : Threaded) : ThreadEvent → List PairObservation
  | .peerPicked peer =>
      match s.main, s.session.vm.state with
      | .idle, .scanning => [.picked peer]
      | _, _ => []
  | .exchangeReturns =>
      match s.session.backend.exchange with
      | some ⟨address, keystoreAlias, phonePubkey, .phoneWritten hostPubkey⟩ =>
          match s.session.backend.exchangeResult prim
              ⟨address, keystoreAlias, phonePubkey, .phoneWritten hostPubkey⟩ hostPubkey with
          | .bonded bondKey _ keystoreAlias phonePubkey =>
              [.exchanged address bondKey keystoreAlias phonePubkey]
          | .failed _ => []
      | _ => []
  | _ => []

/-- The device picked last. -/
def lastPicked (seen : List PairObservation) : Option String :=
  (seen.filterMap fun
    | .picked peer => some peer.id
    | .exchanged _ _ _ _ => none).getLast?

/-- The record comes from an exchange with the device picked last, and the code on the
screen from its key. -/
structure OneAttempt (oobCode : Bytes → List String) (seen : List PairObservation) (vm : ViewModel)
    (record : BondRecord) : Prop where
  exchanged : .exchanged record.peerId record.bondKey record.keystoreAlias record.phonePubkey ∈ seen
  picked_last : lastPicked seen = some record.peerId
  shown : vm.state = .oobConfirming (oobCode record.bondKey)

/-- The devices of the backend, and that of the result that is on its way. -/
def Threaded.pending (s : Threaded) : List String :=
  s.session.backend.pending ++ s.callback.toList.map (·.address)

/-- A pick finds no exchange of another device running, no thread that may start one and no
result of one on its way, and the result finds the picked peer still there. -/
def Apart (s : Threaded) : ThreadEvent → Prop
  | .peerPicked peer =>
      s.main = .idle → s.session.vm.state = .scanning → ∀ address ∈ s.pending, address = peer.id
  | .readPick => s.session.vm.pickedPeer ≠ none
  | _ => True

instance (s : Threaded) (event : ThreadEvent) : Decidable (Apart s event) :=
  match event with
  | .peerPicked peer =>
      inferInstanceAs (Decidable (s.main = .idle → s.session.vm.state = .scanning →
        ∀ address ∈ s.pending, address = peer.id))
  | .readPick => inferInstanceAs (Decidable (s.session.vm.pickedPeer ≠ none))
  | .whole _ | .startScanTapped | .setScanning | .cancelTapped | .clearPick | .setIdle | .setPick
  | .pickPeer _ | .setPicked | .exchangeReturns | .onLescResult | .renamePick | .stashBondKey
  | .stashKeystoreAlias | .stashPhonePubkey | .setConfirming => .isTrue trivial

/-! ## The backend -/

section Backend

variable {backend next : Backend} {address : String}

/-- The backend keeps its pick and starts on no device it was not about to. -/
structure Backend.Narrows (backend next : Backend) : Prop where
  pickedAddress : next.pickedAddress = backend.pickedAddress
  pending : ∀ address ∈ next.pending, address ∈ backend.pending

theorem Backend.Narrows.refl (backend : Backend) : backend.Narrows backend := ⟨rfl, fun _ h => h⟩

theorem Backend.Narrows.complete (hnarrows : backend.Narrows next) (result : LescResult) :
    backend.Narrows (next.complete result) :=
  ⟨hnarrows.pickedAddress, hnarrows.pending⟩

theorem Backend.Narrows.ended (backend : Backend) :
    backend.Narrows { backend with exchange := none } :=
  ⟨rfl, fun _ hmem => List.mem_append_right _ hmem⟩

theorem Backend.Narrows.advance {exchange : Exchange} (hexchange : backend.exchange = some exchange)
    (phase : ExchangePhase) :
    backend.Narrows { backend with exchange := some { exchange with phase := phase } } := by
  refine ⟨rfl, fun address hmem => ?_⟩
  simpa [Backend.pending, hexchange] using hmem

theorem Backend.Narrows.of_sameWork (hsame : backend.SameWork next) : backend.Narrows next := by
  refine ⟨hsame.pickedAddress, fun address hmem => ?_⟩
  rwa [Backend.pending, hsame.exchange, hsame.exchangeStarted, hsame.threads] at hmem

theorem Backend.Narrows.runPostBondExchange {keystoreKey : String → Pubkey} {i : Nat}
    {outcome : BeginOutcome} (hthread : backend.threads[i]? = some address) :
    backend.Narrows ({ backend with threads := backend.threads.eraseIdx i }.runPostBondExchange
      keystoreKey address outcome) := by
  have hmem : address ∈ backend.threads := List.mem_of_getElem? hthread
  have hnarrows : backend.Narrows { backend with threads := backend.threads.eraseIdx i } := by
    refine ⟨rfl, fun other hother => ?_⟩
    rcases List.mem_append.mp hother with hexchange | hthreads
    · exact List.mem_append_left _ hexchange
    · apply List.mem_append_right
      simp only at hthreads
      split at hthreads
      · cases hthreads
      · next hstarted =>
          rw [if_neg hstarted]
          exact List.mem_of_mem_eraseIdx hthreads
  unfold Backend.runPostBondExchange
  split
  · exact hnarrows
  · next hstarted =>
      have hclaimed : backend.Narrows
          { backend with threads := backend.threads.eraseIdx i, exchangeStarted := true } := by
        refine ⟨rfl, fun other hother => List.mem_append_left _ ?_⟩
        simpa [Backend.pending] using hother
      cases outcome with
      | noExchange => exact hclaimed.complete _
      | keystoreUnavailable => exact hclaimed.complete _
      | mintFailed message => exact hclaimed.complete _
      | minted =>
          -- the claiming thread's device was pending as a thread
          refine ⟨rfl, fun other hother => List.mem_append_right _ ?_⟩
          have hother : other = address := by simpa [Backend.pending] using hother
          rw [if_neg hstarted, hother]
          exact hmem

theorem Backend.mem_pending_of_spawn (backend : Backend) {other : String}
    (hmem : other ∈ next.pending)
    (hexchange : next.exchange = backend.exchange)
    (hstarted : next.exchangeStarted = backend.exchangeStarted)
    (hthreads : next.threads = backend.threads ++ [address]) :
    other ∈ backend.pending ∨ other = address := by
  rw [Backend.pending, hexchange, hstarted, hthreads] at hmem
  unfold Backend.pending
  cases hclaimed : backend.exchangeStarted with
  | true =>
      rw [hclaimed] at hmem
      exact .inl hmem
  | false =>
      simp only [hclaimed, Bool.false_eq_true, if_false, ← List.append_assoc] at hmem
      rcases List.mem_append.mp hmem with hold | hnew
      · exact .inl hold
      · exact .inr (List.mem_singleton.mp hnew)

theorem Backend.mem_pending_onBondedFromReceiver {other : String}
    (hmem : other ∈ (backend.onBondedFromReceiver address).pending) :
    other ∈ backend.pending ∨
      (other = address ∧
        (backend.pickedAddress = none ∨ backend.pickedAddress = some address)) := by
  unfold Backend.onBondedFromReceiver at hmem
  split at hmem
  · exact .inl hmem
  · next hpicked =>
      obtain hold | hnew := Backend.mem_pending_of_spawn backend hmem rfl rfl rfl
      · exact .inl hold
      · refine .inr ⟨hnew, ?_⟩
        by_contra hother
        exact hpicked ⟨fun hnone => hother (.inl hnone), fun hsame => hother (.inr hsame)⟩

theorem Backend.pickedAddress_onBondedFromReceiver :
    (backend.onBondedFromReceiver address).pickedAddress = backend.pickedAddress := by
  unfold Backend.onBondedFromReceiver
  split
  · rfl
  · rfl

theorem Backend.mem_pending_pickPeer {peer : PeerHandle} {outcome : PickOutcome} {other : String}
    (hmem : other ∈ (backend.pickPeer peer outcome).2.pending) :
    other ∈ backend.pending ∨ other = peer.id := by
  cases outcome with
  | alreadyBonded => exact Backend.mem_pending_of_spawn backend hmem rfl rfl rfl
  | _ => exact .inl hmem

theorem Backend.pickedAddress_pickPeer (peer : PeerHandle) (outcome : PickOutcome) :
    (backend.pickPeer peer outcome).2.pickedAddress = backend.pickedAddress ∨
      (backend.pickPeer peer outcome).2.pickedAddress = some peer.id := by
  cases outcome with
  | adapterMissing | lookupFailed => exact .inl rfl
  | _ => exact .inr rfl

/-- A pick that leads to the negotiation has set the address. -/
theorem Backend.pickPeer_lescStarted {peer : PeerHandle} {outcome : PickOutcome} {code : String}
    (hpick : ViewModel.pickedState (backend.pickPeer peer outcome).1 = .lescNegotiating code) :
    (backend.pickPeer peer outcome).2.pickedAddress = some peer.id := by
  cases outcome with
  | adapterMissing | lookupFailed | bondRefused => cases hpick
  | bondStarted | alreadyBonded => rfl

end Backend

/-! ## One attempt -/

variable {prim : Primitives} {oobCode : Bytes → List String} {keystoreKey : String → Pubkey}
variable {seen : List PairObservation} {s t : Threaded}

/-- Everything that is under way is for the device picked last. -/
structure OnlyFor (seen : List PairObservation) (s : Threaded) (id : String) : Prop where
  picked_last : lastPicked seen = some id
  pending : ∀ address ∈ s.pending, address = id

def ViewModel.PicksOnly (vm : ViewModel) (id : String) : Prop :=
  ∀ peer, vm.pickedPeer = some peer → peer.id = id

/-- What of the result is in the view model already. -/
def Callback.Stashed (callback : Callback) (vm : ViewModel) : Prop :=
  match callback.point with
  | .called | .checked | .read _ | .renamed => True
  | .keyStashed => vm.stashedBondKey = some callback.bondKey
  | .aliasStashed =>
      vm.stashedBondKey = some callback.bondKey ∧ vm.stashedKeystoreAlias = callback.keystoreAlias
  | .pubkeyStashed =>
      vm.stashedBondKey = some callback.bondKey ∧
        vm.stashedKeystoreAlias = callback.keystoreAlias ∧
        vm.stashedPhonePubkey = callback.phonePubkey

/-- Past its check, the result is one of the device picked last. -/
structure Callback.Holds (callback : Callback) (seen : List PairObservation) (vm : ViewModel) :
    Prop where
  exchanged : .exchanged callback.address callback.bondKey callback.keystoreAlias
    callback.phonePubkey ∈ seen
  picked : callback.point ≠ .called →
    lastPicked seen = some callback.address ∧ vm.PicksOnly callback.address
  read : ∀ peer, callback.point = .read peer → peer.id = callback.address
  stashed : callback.Stashed vm

/-- While negotiating and while a pick runs, everything is for the device picked last. -/
structure Aimed (seen : List PairObservation) (s : Threaded) : Prop where
  negotiating : ∀ code, s.session.vm.state = .lescNegotiating code →
    ∃ id, OnlyFor seen s id ∧ s.session.vm.PicksOnly id ∧
      s.session.backend.pickedAddress = some id
  picking : ∀ peer, s.main = .picking peer → OnlyFor seen s peer.id
  picked : ∀ peer, s.main = .picked peer →
    OnlyFor seen s peer.id ∧ s.session.vm.PicksOnly peer.id
  answered : ∀ result, s.main = .answered result →
    ∃ id, OnlyFor seen s id ∧ s.session.vm.PicksOnly id ∧
      ∀ code, ViewModel.pickedState result = .lescNegotiating code →
        s.session.backend.pickedAddress = some id

/-- The result on its way belongs to the device picked last, and while the question is asked
the stash is of an exchange with it. -/
structure Bound (oobCode : Bytes → List String) (seen : List PairObservation)
    (s : Threaded) : Prop extends Aimed seen s where
  callback : ∀ callback, s.callback = some callback → callback.Holds seen s.session.vm
  confirming : ∀ emoji, s.session.vm.state = .oobConfirming emoji →
    ∃ id bondKey, s.session.vm.PicksOnly id ∧ s.session.vm.stashedBondKey = some bondKey ∧
      emoji = oobCode bondKey ∧ lastPicked seen = some id ∧
      .exchanged id bondKey s.session.vm.stashedKeystoreAlias
        s.session.vm.stashedPhonePubkey ∈ seen

theorem Bound.oneAttempt {record : BondRecord} (hbound : Bound oobCode seen s)
    (hcall : s.session.vm.persistCall = some record) :
    OneAttempt oobCode seen s.session.vm record := by
  obtain ⟨emoji, hstate⟩ := ViewModel.confirming_of_persistCall hcall
  obtain ⟨id, bondKey, hpicks, hkey, rfl, hlast, hexchanged⟩ := hbound.confirming emoji hstate
  cases hpeer : s.session.vm.pickedPeer with
  | none => simp [ViewModel.persistCall, hstate, hpeer] at hcall
  | some peer =>
      obtain rfl := hpicks peer hpeer
      simp only [ViewModel.persistCall, hstate, hpeer, hkey] at hcall
      cases hcall
      exact ⟨hexchanged, hlast, hstate⟩

theorem OnlyFor.shrink {id : String} (honly : OnlyFor seen s id)
    (hpending : ∀ address ∈ t.pending, address ∈ s.pending) : OnlyFor seen t id :=
  ⟨honly.picked_last, fun address hmem => honly.pending address (hpending address hmem)⟩

theorem Callback.Holds.of_vm {callback : Callback} {vm next : ViewModel}
    (hholds : callback.Holds seen vm) (hpicked : next.pickedPeer = vm.pickedPeer)
    (hkey : next.stashedBondKey = vm.stashedBondKey)
    (halias : next.stashedKeystoreAlias = vm.stashedKeystoreAlias)
    (hpubkey : next.stashedPhonePubkey = vm.stashedPhonePubkey) : callback.Holds seen next := by
  refine ⟨hholds.exchanged, fun hpast => ?_, hholds.read, ?_⟩
  · obtain ⟨hlast, hpicks⟩ := hholds.picked hpast
    exact ⟨hlast, fun peer hpeer => hpicks peer (hpicked ▸ hpeer)⟩
  · have hstashed := hholds.stashed
    unfold Callback.Stashed at hstashed ⊢
    rwa [hkey, halias, hpubkey]

/-- The main thread has no pick in hand that `s` does not have. -/
def MainPoint.InPick : MainPoint → Prop
  | .picking _ | .picked _ | .answered _ => True
  | _ => False

/-- In `t` no pick, no negotiation and no device is new. -/
theorem Aimed.narrow (haimed : Aimed seen s)
    (hstate : ∀ code, t.session.vm.state = .lescNegotiating code →
      s.session.vm.state = .lescNegotiating code)
    (hpicks : ∀ id, lastPicked seen = some id → s.session.vm.PicksOnly id →
      t.session.vm.PicksOnly id)
    (haddress : t.session.backend.pickedAddress = s.session.backend.pickedAddress)
    (hpending : ∀ address ∈ t.pending, address ∈ s.pending)
    (hmain : t.main.InPick → t.main = s.main) : Aimed seen t := by
  have hsame : ∀ point, t.main = point → point.InPick → s.main = point := by
    rintro point rfl hpick
    exact (hmain hpick).symm
  refine ⟨fun code hnegotiating => ?_, fun peer hpoint => ?_, fun peer hpoint => ?_,
    fun result hpoint => ?_⟩
  · obtain ⟨id, honly, hpicked, hbackend⟩ := haimed.negotiating code (hstate code hnegotiating)
    exact ⟨id, honly.shrink hpending, hpicks id honly.picked_last hpicked,
      haddress.trans hbackend⟩
  · exact (haimed.picking peer (hsame _ hpoint trivial)).shrink hpending
  · obtain ⟨honly, hpicked⟩ := haimed.picked peer (hsame _ hpoint trivial)
    exact ⟨honly.shrink hpending, hpicks _ honly.picked_last hpicked⟩
  · obtain ⟨id, honly, hpicked, hbackend⟩ := haimed.answered result (hsame _ hpoint trivial)
    exact ⟨id, honly.shrink hpending, hpicks id honly.picked_last hpicked,
      fun code hcode => haddress.trans (hbackend code hcode)⟩

/-- The session of `t` has nothing that is not in that of `s`. -/
theorem Bound.recede (hbound : Bound oobCode seen s)
    (hkeeps : s.session.vm.Keeps t.session.vm)
    (haddress : t.session.backend.pickedAddress = s.session.backend.pickedAddress)
    (hpending : ∀ address ∈ t.pending, address ∈ s.pending)
    (hmain : t.main.InPick → t.main = s.main)
    (hcallback : ∀ callback, t.callback = some callback → s.callback = some callback) :
    Bound oobCode seen t := by
  have hpicks : ∀ id, s.session.vm.PicksOnly id → t.session.vm.PicksOnly id :=
    fun id hpicks peer hpeer => hpicks peer (hkeeps.pickedPeer ▸ hpeer)
  refine ⟨hbound.narrow (fun code => hkeeps.negotiating) (fun id _ => hpicks id) haddress hpending
    hmain, fun callback hcalled => ?_, fun emoji hstate => ?_⟩
  · exact (hbound.callback callback (hcallback callback hcalled)).of_vm hkeeps.pickedPeer
      hkeeps.stashedBondKey hkeeps.stashedKeystoreAlias hkeeps.stashedPhonePubkey
  · obtain ⟨id, bondKey, hpicked, hkey, hemoji, hlast, hexchanged⟩ :=
      hbound.confirming emoji (hkeeps.confirming hstate)
    refine ⟨id, bondKey, hpicks id hpicked, hkeeps.stashedBondKey.trans hkey, hemoji, hlast, ?_⟩
    rwa [hkeeps.stashedKeystoreAlias, hkeeps.stashedPhonePubkey]

theorem mem_pending_of_backend {backend : Backend} {address : String}
    (hnarrows : s.session.backend.Narrows backend)
    (hmem : address ∈ Threaded.pending { s with session := { s.session with backend } }) :
    address ∈ s.pending :=
  (List.mem_append.mp hmem).elim
    (fun hbackend => List.mem_append_left _ (hnarrows.pending address hbackend))
    (List.mem_append_right _)

theorem Bound.backend {backend : Backend} (hbound : Bound oobCode seen s)
    (hnarrows : s.session.backend.Narrows backend) :
    Bound oobCode seen { s with session := { s.session with backend } } :=
  hbound.recede (.refl _) hnarrows.pickedAddress (fun _ => mem_pending_of_backend hnarrows)
    (fun _ => rfl) (fun _ h => h)

/-- The main thread leaves a handler, or looks at the state first. -/
theorem Bound.leaves {vm : ViewModel} {main : MainPoint} (hbound : Bound oobCode seen s)
    (hkeeps : s.session.vm.Keeps vm) (hmain : ¬ main.InPick) :
    Bound oobCode seen ((s.setVm vm).setMain main) :=
  hbound.recede hkeeps rfl (fun _ h => h) (fun hpick => absurd hpick hmain) (fun _ h => h)

theorem Bound.bonded {address : String} (hbound : Bound oobCode seen s) (hmain : s.main = .idle) :
    Bound oobCode seen { s with session := { s.session with
      backend := s.session.backend.onBondedFromReceiver address } } := by
  refine ⟨⟨fun code hstate => ?_, fun peer hpoint => ?_, fun peer hpoint => ?_,
    fun result hpoint => ?_⟩, hbound.callback, hbound.confirming⟩
  · obtain ⟨id, honly, hpicks, hpicked⟩ := hbound.negotiating code hstate
    refine ⟨id, ⟨honly.picked_last, fun other hmem => ?_⟩, hpicks,
      Backend.pickedAddress_onBondedFromReceiver.trans hpicked⟩
    rcases List.mem_append.mp hmem with hbackend | hcallback
    · obtain hold | ⟨rfl, hnone | hsame⟩ := Backend.mem_pending_onBondedFromReceiver hbackend
      · exact honly.pending other (List.mem_append_left _ hold)
      · rw [hpicked] at hnone
        cases hnone
      · rw [hpicked] at hsame
        exact (Option.some.inj hsame).symm
    · exact honly.pending other (List.mem_append_right _ hcallback)
  all_goals
    rw [show s.main = _ from hpoint] at hmain
    cases hmain

theorem lastPicked_append_picked (peer : PeerHandle) :
    lastPicked (seen ++ [.picked peer]) = some peer.id := by
  simp [lastPicked]

theorem lastPicked_append_exchanged (address keystoreAlias : String) (bondKey phonePubkey : Bytes) :
    lastPicked (seen ++ [.exchanged address bondKey keystoreAlias phonePubkey]) =
      lastPicked seen := by
  simp [lastPicked]

theorem mem_pending_of_callback {callback : Callback} (hcallback : s.callback = some callback) :
    callback.address ∈ s.pending := by
  simp [Threaded.pending, hcallback]

/-! ### Picks -/

theorem Bound.pick {peer : PeerHandle} (hbound : Bound oobCode seen s)
    (hstate : s.session.vm.state = .scanning)
    (halone : ∀ address ∈ s.pending, address = peer.id) :
    Bound oobCode (seen ++ [.picked peer]) (s.setMain (.picking peer)) := by
  refine ⟨⟨fun code hnegotiating => ?_, fun other hpoint => ?_, fun other hpoint => ?_,
    fun result hpoint => ?_⟩, fun callback hcallback => ?_, fun emoji hconfirming => ?_⟩
  · rw [show s.session.vm.state = _ from hnegotiating] at hstate
    cases hstate
  · cases hpoint
    exact ⟨lastPicked_append_picked peer, halone⟩
  · cases hpoint
  · cases hpoint
  · have hholds := hbound.callback callback hcallback
    refine ⟨List.mem_append_left _ hholds.exchanged, fun hpast => ?_, hholds.read, hholds.stashed⟩
    -- the result on its way is one of the device picked now
    rw [halone callback.address (mem_pending_of_callback hcallback)]
    refine ⟨lastPicked_append_picked peer, fun other hother => ?_⟩
    rw [(hholds.picked hpast).2 other hother]
    exact halone callback.address (mem_pending_of_callback hcallback)
  · rw [show s.session.vm.state = _ from hconfirming] at hstate
    cases hstate

/-- A write of the picked peer that agrees with the device picked last. -/
theorem ViewModel.PicksOnly.of_last {id : String} {peer : PeerHandle} {vm : ViewModel}
    (hid : lastPicked seen = some id) (hpeer : lastPicked seen = some peer.id) :
    ViewModel.PicksOnly { vm with pickedPeer := some peer } id := by
  rintro other ⟨⟩
  rw [hid] at hpeer
  exact (Option.some.inj hpeer).symm

theorem Callback.Holds.setPick {callback : Callback} {vm : ViewModel} {peer : PeerHandle}
    (hholds : callback.Holds seen vm) (hpeer : lastPicked seen = some peer.id) :
    callback.Holds seen { vm with pickedPeer := some peer } :=
  ⟨hholds.exchanged, fun hpast => ⟨(hholds.picked hpast).1, .of_last (hholds.picked hpast).1 hpeer⟩,
    hholds.read, hholds.stashed⟩

theorem Bound.setPick {peer : PeerHandle} (hbound : Bound oobCode seen s)
    (hmain : s.main = .picking peer) :
    Bound oobCode seen
      ((s.setVm { s.session.vm with pickedPeer := some peer }).setMain (.picked peer)) := by
  have honly := hbound.picking peer hmain
  refine ⟨⟨fun code hstate => ?_, fun other hpoint => ?_, fun other hpoint => ?_,
    fun result hpoint => ?_⟩, fun callback hcallback => ?_, fun emoji hstate => ?_⟩
  · obtain ⟨id, hid, -, hpicked⟩ := hbound.negotiating code hstate
    exact ⟨id, hid.shrink fun _ h => h, .of_last hid.picked_last honly.picked_last, hpicked⟩
  · cases hpoint
  · cases hpoint
    exact ⟨honly.shrink fun _ h => h, .of_last honly.picked_last honly.picked_last⟩
  · cases hpoint
  · exact (hbound.callback callback hcallback).setPick honly.picked_last
  · obtain ⟨id, bondKey, -, hkey, hemoji, hlast, hexchanged⟩ := hbound.confirming emoji hstate
    exact ⟨id, bondKey, .of_last hlast honly.picked_last, hkey, hemoji, hlast, hexchanged⟩

theorem Bound.pickPeer {peer : PeerHandle} {outcome : PickOutcome} (hbound : Bound oobCode seen s)
    (hmain : s.main = .picked peer) :
    Bound oobCode seen
      ({ s with session := { s.session with
          backend := (s.session.backend.pickPeer peer outcome).2 } }.setMain
        (.answered (s.session.backend.pickPeer peer outcome).1)) := by
  obtain ⟨honly, hpicks⟩ := hbound.picked peer hmain
  have hafter : ∀ address ∈ Threaded.pending { s with session := { s.session with
      backend := (s.session.backend.pickPeer peer outcome).2 } }, address = peer.id := by
    intro address hmem
    rcases List.mem_append.mp hmem with hbackend | hcallback
    · obtain hold | hnew := Backend.mem_pending_pickPeer hbackend
      · exact honly.pending address (List.mem_append_left _ hold)
      · exact hnew
    · exact honly.pending address (List.mem_append_right _ hcallback)
  refine ⟨⟨fun code hstate => ?_, fun other hpoint => ?_, fun other hpoint => ?_,
    fun result hpoint => ?_⟩, hbound.callback, hbound.confirming⟩
  · obtain ⟨id, hid, -, hpicked⟩ := hbound.negotiating code hstate
    obtain rfl : peer.id = id := Option.some.inj (honly.picked_last.symm.trans hid.picked_last)
    refine ⟨peer.id, ⟨honly.picked_last, hafter⟩, hpicks, ?_⟩
    obtain hold | hnew := Backend.pickedAddress_pickPeer peer outcome
    · exact hold.trans hpicked
    · exact hnew
  · cases hpoint
  · cases hpoint
  · cases hpoint
    exact ⟨peer.id, ⟨honly.picked_last, hafter⟩, hpicks,
      fun code hcode => Backend.pickPeer_lescStarted hcode⟩

theorem Bound.setPicked {result : PickPeerResult} (hbound : Bound oobCode seen s)
    (hmain : s.main = .answered result) :
    Bound oobCode seen
      ((s.setVm { s.session.vm with state := ViewModel.pickedState result }).setMain .idle) := by
  refine ⟨⟨fun code hstate => ?_, fun peer hpoint => ?_, fun peer hpoint => ?_,
    fun other hpoint => ?_⟩, fun callback hcallback => ?_,
    fun emoji hstate => absurd hstate (pickedState_ne_confirming result emoji)⟩
  · obtain ⟨id, honly, hpicks, hpicked⟩ := hbound.answered result hmain
    exact ⟨id, honly.shrink fun _ h => h, hpicks, hpicked code hstate⟩
  · cases hpoint
  · cases hpoint
  · cases hpoint
  · exact (hbound.callback callback hcallback).of_vm rfl rfl rfl rfl

theorem Bound.clearPick (hbound : Bound oobCode seen s) :
    Bound oobCode seen ((s.setVm { s.session.vm with pickedPeer := none }).setMain .cleared) := by
  have hnone : ∀ id, ViewModel.PicksOnly { s.session.vm with pickedPeer := none } id := by
    intro id peer hpeer
    cases hpeer
  refine ⟨hbound.narrow (fun _ h => h) (fun id _ _ => hnone id) rfl (fun _ h => h) False.elim,
    fun callback hcallback => ?_, fun emoji hstate => ?_⟩
  · have hholds := hbound.callback callback hcallback
    exact ⟨hholds.exchanged, fun hpast => ⟨(hholds.picked hpast).1, hnone _⟩, hholds.read,
      hholds.stashed⟩
  · obtain ⟨id, bondKey, -, hrest⟩ := hbound.confirming emoji hstate
    exact ⟨id, bondKey, hnone id, hrest⟩

/-! ### The result -/

theorem Bound.append_exchanged (hbound : Bound oobCode seen s) (address keystoreAlias : String)
    (bondKey phonePubkey : Bytes) :
    Bound oobCode (seen ++ [.exchanged address bondKey keystoreAlias phonePubkey]) s := by
  have hlast : lastPicked (seen ++ [.exchanged address bondKey keystoreAlias phonePubkey]) =
      lastPicked seen := lastPicked_append_exchanged _ _ _ _
  have honly : ∀ id, OnlyFor seen s id →
      OnlyFor (seen ++ [.exchanged address bondKey keystoreAlias phonePubkey]) s id :=
    fun id honly => ⟨hlast.trans honly.picked_last, honly.pending⟩
  refine ⟨⟨fun code hstate => ?_, fun peer hpoint => honly _ (hbound.picking peer hpoint),
    fun peer hpoint => ?_, fun result hpoint => ?_⟩, fun callback hcallback => ?_,
    fun emoji hstate => ?_⟩
  · obtain ⟨id, hid, hrest⟩ := hbound.negotiating code hstate
    exact ⟨id, honly id hid, hrest⟩
  · obtain ⟨hid, hpicks⟩ := hbound.picked peer hpoint
    exact ⟨honly _ hid, hpicks⟩
  · obtain ⟨id, hid, hrest⟩ := hbound.answered result hpoint
    exact ⟨id, honly id hid, hrest⟩
  · have hholds := hbound.callback callback hcallback
    exact ⟨List.mem_append_left _ hholds.exchanged,
      fun hpast => ⟨hlast.trans (hholds.picked hpast).1, (hholds.picked hpast).2⟩,
      hholds.read, hholds.stashed⟩
  · obtain ⟨id, key, hpicks, hkey, hemoji, hid, hexchanged⟩ := hbound.confirming emoji hstate
    exact ⟨id, key, hpicks, hkey, hemoji, hlast.trans hid, List.mem_append_left _ hexchanged⟩

/-- A result that was just called is the only thing under way. -/
theorem Bound.called {backend : Backend} {callback : Callback} (hbound : Bound oobCode seen s)
    (hnarrows : s.session.backend.Narrows backend) (hexchange : backend.pending = [])
    (hpending : callback.address ∈ s.session.backend.pending)
    (hpoint : callback.point = .called)
    (hexchanged : .exchanged callback.address callback.bondKey callback.keystoreAlias
      callback.phonePubkey ∈ seen) :
    Bound oobCode seen
      { s with session := { s.session with backend }, callback := some callback } := by
  have hmem : ∀ address ∈ Threaded.pending
      { s with session := { s.session with backend }, callback := some callback },
      address ∈ s.pending := by
    intro address hmem
    obtain rfl : address = callback.address := by simpa [Threaded.pending, hexchange] using hmem
    exact List.mem_append_left _ hpending
  refine ⟨hbound.narrow (fun _ h => h) (fun _ _ h => h) hnarrows.pickedAddress hmem fun _ => rfl,
    ?_, hbound.confirming⟩
  rintro other ⟨⟩
  refine ⟨hexchanged, fun hpast => absurd hpoint hpast, fun peer hread => ?_, ?_⟩
  · rw [hpoint] at hread
    cases hread
  · rw [Callback.Stashed, hpoint]
    trivial

/-- A step of `onLescResult` past its call: it keeps the state and writes what belongs to the
device picked last. -/
theorem Bound.write {vm : ViewModel} {callback : Callback} {point : ResultPoint}
    (hbound : Bound oobCode seen s) (hone : OneResult s) (hcallback : s.callback = some callback)
    (hstate : vm.state = s.session.vm.state)
    (hpicks : ∀ id, lastPicked seen = some id → s.session.vm.PicksOnly id → vm.PicksOnly id)
    (hholds : Callback.Holds { callback with point } seen vm) :
    Bound oobCode seen ((s.setVm vm).advance callback point) := by
  have hmem : ∀ address ∈ ((s.setVm vm).advance callback point).pending,
      address ∈ s.pending := by
    intro address hmem
    simpa [Threaded.pending, Threaded.advance, Threaded.setVm, hcallback] using hmem
  refine ⟨hbound.narrow (fun code hnegotiating => hstate ▸ hnegotiating) hpicks rfl hmem
    fun _ => rfl, ?_, fun emoji hconfirming => ?_⟩
  · rintro other ⟨⟩
    exact hholds
  · -- no result is on its way while the question is asked
    obtain ⟨-, hnone⟩ := hone.question emoji (hstate ▸ hconfirming)
    rw [hcallback] at hnone
    cases hnone

/-- A step of `onLescResult` that writes nothing yet. -/
theorem Bound.advance {callback : Callback} {point : ResultPoint} (hbound : Bound oobCode seen s)
    (hone : OneResult s) (hcallback : s.callback = some callback)
    (hholds : Callback.Holds { callback with point } seen s.session.vm) :
    Bound oobCode seen (s.advance callback point) :=
  Bound.write (s := s) hbound hone hcallback rfl (fun _ _ h => h) hholds

theorem renamed_id {pickedPeer : Option PeerHandle} {peer : PeerHandle} (peerName : String)
    (hpeer : pickedPeer = some peer) : (renamed pickedPeer peerName).id = peer.id := by
  rw [hpeer, renamed]

theorem Bound.returns {exchange : Exchange} {hostPubkey : Bytes} (hbound : Bound oobCode seen s)
    (hone : OneResult s) (hexchange : s.session.backend.exchange = some exchange)
    (hphase : exchange.phase = .phoneWritten hostPubkey) :
    Bound oobCode (seen ++ s.observe prim .exchangeReturns)
      (s.result prim exchange hostPubkey) := by
  obtain ⟨address, keystoreAlias, phonePubkey, phase⟩ := exchange
  cases hphase
  have hended : ∀ result, s.session.backend.Narrows
      ({ s.session.backend with exchange := none }.complete result) :=
    (Backend.Narrows.ended s.session.backend).complete
  simp only [Threaded.observe, hexchange, Threaded.result]
  cases hresult : s.session.backend.exchangeResult prim
      ⟨address, keystoreAlias, phonePubkey, .phoneWritten hostPubkey⟩ hostPubkey with
  | bonded bondKey peerName resultAlias resultPubkey =>
      have hstarted : s.session.backend.exchangeStarted = true :=
        hone.started (.inl (by simp [hexchange]))
      refine (hbound.append_exchanged address resultAlias bondKey resultPubkey).called (hended _)
        ?_ ?_ rfl (List.mem_append_right _ List.mem_cons_self)
      · simp [Backend.pending, Backend.complete, hstarted]
      · simp [Backend.pending, hexchange]
  | failed reason =>
      rw [List.append_nil]
      exact hbound.backend (hended _)

theorem Bound.check {callback : Callback} {code : String} (hbound : Bound oobCode seen s)
    (hone : OneResult s) (hcallback : s.callback = some callback)
    (hstate : s.session.vm.state = .lescNegotiating code) :
    Bound oobCode seen (s.advance callback .checked) := by
  have hholds := hbound.callback callback hcallback
  obtain ⟨id, honly, hpicks, -⟩ := hbound.negotiating code hstate
  -- the result names no device, but only one for the picked device can be on its way
  have haddress : callback.address = id :=
    honly.pending callback.address (mem_pending_of_callback hcallback)
  refine hbound.advance hone hcallback ⟨hholds.exchanged, fun _ => ?_, nofun, trivial⟩
  rw [haddress]
  exact ⟨honly.picked_last, hpicks⟩

theorem Bound.readPick {callback : Callback} (hbound : Bound oobCode seen s) (hone : OneResult s)
    (hcallback : s.callback = some callback) (hpoint : callback.point = .checked)
    (hthere : s.session.vm.pickedPeer ≠ none) :
    Bound oobCode seen
      (s.advance callback (.read (renamed s.session.vm.pickedPeer callback.peerName))) := by
  have hholds := hbound.callback callback hcallback
  obtain ⟨hlast, hpicks⟩ := hholds.picked (by simp [hpoint])
  obtain ⟨peer, hpeer⟩ := Option.ne_none_iff_exists'.mp hthere
  refine hbound.advance hone hcallback
    ⟨hholds.exchanged, fun _ => ⟨hlast, hpicks⟩, ?_, trivial⟩
  rintro other ⟨⟩
  exact (renamed_id callback.peerName hpeer).trans (hpicks peer hpeer)

theorem Bound.renamePick {callback : Callback} {peer : PeerHandle} (hbound : Bound oobCode seen s)
    (hone : OneResult s) (hcallback : s.callback = some callback)
    (hpoint : callback.point = .read peer) :
    Bound oobCode seen
      ((s.setVm { s.session.vm with pickedPeer := some peer }).advance callback .renamed) := by
  have hholds := hbound.callback callback hcallback
  obtain ⟨hlast, -⟩ := hholds.picked (by simp [hpoint])
  have hpeer : lastPicked seen = some peer.id := by rw [hlast, hholds.read peer hpoint]
  exact hbound.write hone hcallback rfl (fun _ hid _ => .of_last hid hpeer)
    ⟨hholds.exchanged, fun _ => ⟨hlast, .of_last hlast hpeer⟩, nofun, trivial⟩

theorem Bound.stash {vm : ViewModel} {callback : Callback} {point : ResultPoint}
    (hbound : Bound oobCode seen s) (hone : OneResult s) (hcallback : s.callback = some callback)
    (hpast : callback.point ≠ .called) (hstate : vm.state = s.session.vm.state)
    (hpicked : vm.pickedPeer = s.session.vm.pickedPeer) (hread : ∀ peer, point ≠ .read peer)
    (hstashed : Callback.Stashed { callback with point } vm) :
    Bound oobCode seen ((s.setVm vm).advance callback point) := by
  have hholds := hbound.callback callback hcallback
  obtain ⟨hlast, hpicks⟩ := hholds.picked hpast
  have hsame : ∀ id, s.session.vm.PicksOnly id → vm.PicksOnly id :=
    fun id hpicks peer hpeer => hpicks peer (hpicked ▸ hpeer)
  exact hbound.write hone hcallback hstate (fun id _ => hsame id)
    ⟨hholds.exchanged, fun _ => ⟨hlast, hsame _ hpicks⟩,
      fun peer hpoint => absurd hpoint (hread peer), hstashed⟩

theorem Bound.setConfirming {callback : Callback} (hbound : Bound oobCode seen s)
    (hcallback : s.callback = some callback) (hpoint : callback.point = .pubkeyStashed) :
    Bound oobCode seen
      { s.setVm { s.session.vm with state := .oobConfirming (oobCode callback.bondKey) } with
        callback := none } := by
  have hholds := hbound.callback callback hcallback
  have hshrink : ∀ address ∈ Threaded.pending
      { s.setVm { s.session.vm with state := .oobConfirming (oobCode callback.bondKey) } with
        callback := none }, address ∈ s.pending := by
    intro address hmem
    exact List.mem_append_left _ (by simpa [Threaded.pending, Threaded.setVm] using hmem)
  refine ⟨hbound.narrow (fun code hstate => ?_) (fun _ _ h => h) rfl hshrink fun _ => rfl,
    fun other hother => ?_, ?_⟩
  · cases hstate
  · cases hother
  · rintro emoji ⟨⟩
    obtain ⟨hlast, hpicks⟩ := hholds.picked (by simp [hpoint])
    have hstashed := hholds.stashed
    rw [Callback.Stashed, hpoint] at hstashed
    obtain ⟨hkey, halias, hpubkey⟩ := hstashed
    refine ⟨callback.address, callback.bondKey, hpicks, hkey, rfl, hlast, ?_⟩
    simp only [Threaded.setVm, halias, hpubkey]
    exact hholds.exchanged

/-! ### Every step -/

theorem Bound.whole {event : SessionEvent} {session : Session} (hbound : Bound oobCode seen s)
    (hwhole : event.runs ≠ .inSteps) (hmain : event.runs = .onMain → s.main = .idle)
    (hstep : SessionStep prim oobCode keystoreKey s.session event session) :
    Bound oobCode seen { s with session } := by
  cases hstep with
  | screen hevent hvm =>
      exact hbound.recede (ViewModel.keeps_of_screen hwhole hevent hvm) rfl (fun _ h => h)
        (fun _ => rfl) (fun _ h => h)
  | pick | pickIgnored | deliver => exact absurd rfl hwhole
  | report hsame => exact hbound.backend (.of_sameWork hsame)
  | bonded => exact hbound.bonded (hmain rfl)
  | run hthread => exact hbound.backend (.runPostBondExchange hthread)
  | read hexchange | write hexchange => exact hbound.backend (.advance hexchange _)
  | readFailed | writeFailed =>
      exact hbound.backend ((Backend.Narrows.ended s.session.backend).complete _)

theorem Bound.step {event : ThreadEvent} (hbound : Bound oobCode seen s) (hone : OneResult s)
    (hapart : Apart s event) (hstep : ThreadStep prim oobCode keystoreKey s event t) :
    Bound oobCode (seen ++ s.observe prim event) t := by
  have hunseen : ∀ {next}, Bound oobCode seen next → Bound oobCode (seen ++ []) next :=
    fun hnext => (List.append_nil seen).symm ▸ hnext
  cases hstep with
  | whole hwhole hmain hstep => exact hunseen (hbound.whole hwhole hmain hstep)
  | ignored hmain hevent =>
      have hnothing : s.observe prim event = [] := by
        obtain rfl | rfl | ⟨peer, rfl, hstate⟩ := hevent
        · rfl
        · rfl
        · simp [Threaded.observe, hstate]
      rw [hnothing]
      exact hunseen hbound
  | pick hmain hstate =>
      simp only [Threaded.observe, hmain, hstate]
      exact hbound.pick hstate (hapart hmain hstate)
  | returns hexchange hphase => exact hbound.returns hone hexchange hphase
  | start | cancel => exact hunseen (hbound.leaves (.refl _) id)
  | setScanning | setIdle =>
      exact hunseen (hbound.leaves ⟨rfl, rfl, rfl, rfl, .inr trivial⟩ id)
  | clearPick => exact hunseen hbound.clearPick
  | setPick hmain => exact hunseen (hbound.setPick hmain)
  | pickPeer hmain => exact hunseen (hbound.pickPeer hmain)
  | setPicked hmain => exact hunseen (hbound.setPicked hmain)
  | check hcallback hpoint hstate => exact hunseen (hbound.check hone hcallback hstate)
  | leave hcallback =>
      exact hunseen (hbound.recede (.refl _) rfl
        (fun _ hmem => List.mem_append_left _ (by simpa [Threaded.pending] using hmem))
        (fun _ => rfl) nofun)
  | readPick hcallback hpoint => exact hunseen (hbound.readPick hone hcallback hpoint hapart)
  | renamePick hcallback hpoint => exact hunseen (hbound.renamePick hone hcallback hpoint)
  | stashBondKey hcallback hpoint =>
      exact hunseen (hbound.stash hone hcallback (by simp [hpoint]) rfl rfl nofun rfl)
  | stashKeystoreAlias hcallback hpoint =>
      have hstashed := (hbound.callback _ hcallback).stashed
      rw [Callback.Stashed, hpoint] at hstashed
      exact hunseen
        (hbound.stash hone hcallback (by simp [hpoint]) rfl rfl nofun ⟨hstashed, rfl⟩)
  | stashPhonePubkey hcallback hpoint =>
      have hstashed := (hbound.callback _ hcallback).stashed
      rw [Callback.Stashed, hpoint] at hstashed
      obtain ⟨hkey, halias⟩ := hstashed
      exact hunseen
        (hbound.stash hone hcallback (by simp [hpoint]) rfl rfl nofun ⟨hkey, halias, rfl⟩)
  | setConfirming hcallback hpoint => exact hunseen (hbound.setConfirming hcallback hpoint)

variable (prim oobCode keystoreKey) in
/-- The record that a Yes tap after the events passes to the persister comes from one
attempt. -/
def PersistsOneAttempt (events : List ThreadEvent) : Prop :=
  ∀ s record, (threads prim oobCode keystoreKey).run .new events = some s →
    s.session.vm.persistCall = some record →
    OneAttempt oobCode
      ((threads prim oobCode keystoreKey).trace (Threaded.observe prim) .new events)
      s.session.vm record

/-- When every pick finds no exchange of another device under way and every result finds
the picked peer, every record is of one attempt. -/
theorem persists_one_attempt {events : List ThreadEvent}
    (hguard : (threads prim oobCode keystoreKey).AllSteps Apart .new events) :
    PersistsOneAttempt prim oobCode keystoreKey events := by
  intro s record hrun hcall
  have hinitial : OneResult .new ∧ Bound oobCode [] .new :=
    ⟨⟨by simp [Threaded.new, Session.new, Backend.new, ViewModel.new], nofun, nofun⟩,
      ⟨⟨nofun, nofun, nofun, nofun⟩, nofun, nofun⟩⟩
  obtain ⟨-, hbound⟩ := (threads prim oobCode keystoreKey).run_trace_invariant_of_allSteps Apart
    (Threaded.observe prim) (fun seen s => OneResult s ∧ Bound oobCode seen s)
    (fun seen s event t ⟨hone, hbound⟩ hapart hstep =>
      ⟨hone.step (Threaded.step_sound hstep),
        hbound.step hone hapart (Threaded.step_sound hstep)⟩) hinitial hguard hrun
  exact hbound.oneAttempt hcall

def laptop : PeerHandle := ⟨"AA:BB:CC:DD:EE:FF", "laptop"⟩

def neighbour : PeerHandle := ⟨"11:22:33:44:55:66", "neighbour"⟩

def pickOf (peer : PeerHandle) (outcome : PickOutcome) : List ThreadEvent :=
  [.startScanTapped, .setScanning, .peerPicked peer, .setPick, .pickPeer outcome, .setPicked]

/-- A pick of the already bonded laptop and the exchange with it, whose result is on its
way. -/
def laptopExchange : List ThreadEvent :=
  pickOf laptop .alreadyBonded ++
    [.whole (.workerRuns 0 .minted), .whole (.hostRead (.ok KnownAnswer.otherPubkey.val)),
      .whole (.phoneWritten (.ok ()))]

def cancels : List ThreadEvent := [.cancelTapped, .clearPick, .setIdle]

def sampleKeystore (_ : String) : Pubkey := KnownAnswer.pubkey

/-- The exchange is cancelled and its device picked again, and so once more while the result
that comes back is on its way into the view model. -/
def laptopAgain : List ThreadEvent :=
  laptopExchange ++ cancels ++ pickOf laptop .bondStarted ++
    [.exchangeReturns, .onLescResult, .readPick, .cancelTapped, .renamePick, .clearPick,
      .stashBondKey, .setIdle, .startScanTapped, .stashKeystoreAlias, .setScanning,
      .peerPicked laptop, .setPick, .stashPhonePubkey, .pickPeer .bondStarted, .setPicked,
      .setConfirming]

theorem persists_one_attempt_laptopAgain :
    ∃ s record,
      (threads KnownAnswer.primitives sampleWords sampleKeystore).run .new laptopAgain = some s ∧
        s.main = .idle ∧ s.session.vm.persistCall = some record ∧
        OneAttempt sampleWords
          ((threads KnownAnswer.primitives sampleWords sampleKeystore).trace
            (Threaded.observe KnownAnswer.primitives) .new laptopAgain) s.session.vm record :=
  ⟨_, _, rfl, rfl, rfl, persists_one_attempt (by decide) _ _ rfl rfl⟩

/-- The result of a cancelled exchange is taken for the peer picked after it, and one that
a cancel overtakes is kept under the name of its device. -/
theorem cancelled_exchange_persisted :
    ¬ PersistsOneAttempt KnownAnswer.primitives sampleWords sampleKeystore
        (laptopExchange ++ cancels ++ pickOf neighbour .bondStarted ++
          .exchangeReturns :: .onLescResult :: takesResult) ∧
      ¬ PersistsOneAttempt KnownAnswer.primitives sampleWords sampleKeystore
        (laptopExchange ++ [.exchangeReturns, .onLescResult] ++ cancels ++ takesResult) := by
  refine ⟨fun hattempt => ?_, fun hattempt => ?_⟩
  · have hexchanged := (hattempt _ _ rfl rfl).exchanged
    exact absurd hexchanged (by decide)
  · have hexchanged := (hattempt _ _ rfl rfl).exchanged
    exact absurd hexchanged (by decide)

end Syauth.Android.Pair
