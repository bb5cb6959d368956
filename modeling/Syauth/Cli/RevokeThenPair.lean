import Syauth.Cli.PairFlow

/-! # Revoking a phone and pairing it again

`run_revoke` of `crates/syauth-cli/src/revoke.rs`, and `run_pair_with_io` after it, as the
hint of `PeerAlreadyBonded` tells the operator.
-/

namespace Syauth.Cli

open Presenced

inductive RevokeRunError where
  | revoke (err : RevokeError)
  | io
  deriving DecidableEq

/-- How the file operations end, and whether the terminal takes the line. -/
structure RevokeEnv where
  readFault : Bool
  saveOutcome : Except BondError Unit
  line : Bool

def renderOutcome : RevokeOutcome → String
  | .revoked id reason => s!"revoked bond {id}: {reason}\n"
  | .alreadyRevoked id existingReason => s!"bond {id} already revoked: {existingReason}\n"

/-- The line on the terminal, and the file that is left. -/
def runRevoke (prim : Primitives) (id reason : String) (env : RevokeEnv) (disk : BondFileRead) :
    Except RevokeRunError String × BondFileRead :=
  match BondStore.load prim (if env.readFault then .ioError else disk) with
  | .error err => (.error (.revoke (.bond err)), disk)
  | .ok store =>
      match applyRevoke store id reason with
      | .error err => (.error (.revoke err), disk)
      | .ok (outcome, store) =>
          match outcome with
          | .revoked _ _ =>
              match store.save env.saveOutcome disk with
              | (.error err, disk) => (.error (.revoke (.bond err)), disk)
              | (.ok (), disk) =>
                  if env.line then (.ok (renderOutcome outcome), disk) else (.error .io, disk)
          | .alreadyRevoked _ _ =>
              if env.line then (.ok (renderOutcome outcome), disk) else (.error .io, disk)

/-! ## What a revocation leaves -/

section Revoke

variable {prim : Primitives} {store next : BondStore} {id reason : String}

theorem mem_of_lookupStatus {status : BondStatus}
    (hlookup : lookupStatus store id = .ok status) : id ∈ store.bonds.map Bond.peerId := by
  unfold lookupStatus at hlookup
  split at hlookup
  · next bond hfind =>
      have hpeer := List.find?_some hfind
      exact List.mem_map.mpr ⟨bond, List.mem_of_find?_eq_some hfind, of_decide_eq_true hpeer⟩
  · cases hlookup

/-- The record stays, whatever its status is afterwards. -/
theorem applyRevoke_keeps {outcome : RevokeOutcome}
    (happly : applyRevoke store id reason = .ok (outcome, next)) :
    id ∈ next.bonds.map Bond.peerId ∧
      (BondStore.Derived prim store → BondStore.Derived prim next) := by
  unfold applyRevoke at happly
  split at happly
  · cases happly
  · next hlookup =>
      cases happly
      exact ⟨mem_of_lookupStatus hlookup, fun hderived => hderived⟩
  · next hlookup =>
      split at happly
      · cases happly
      · next hmark =>
          cases happly
          obtain ⟨before, bond, after, hbonds, -, hnext⟩ := BondStore.markRevoked_eq_ok hmark
          constructor
          · have hids : next.bonds.map Bond.peerId = store.bonds.map Bond.peerId := by
              rw [hnext, hbonds]
              simp
            exact hids ▸ mem_of_lookupStatus hlookup
          · intro hderived record hrecord
            have heffect : BondStore.Effect store (.markRevoked id reason) next :=
              .revoked hbonds hnext
            obtain hold | hadd | ⟨old, hold, reason', hrevoked⟩ :=
              BondStore.mem_of_effect heffect hrecord
            · exact hderived record hold
            · cases hadd
            · rw [hrevoked, BondStore.peerId_revokeBond, BondStore.pubkey_revokeBond]
              exact hderived old hold

theorem eq_of_alreadyRevoked {other existing : String}
    (happly : applyRevoke store id reason = .ok (.alreadyRevoked other existing, next)) :
    next = store := by
  unfold applyRevoke at happly
  split at happly
  · cases happly
  · cases happly
    rfl
  · split at happly <;> cases happly

/-- The phone is still in the file. -/
theorem recorded_of_runRevoke {revokeEnv : RevokeEnv} {disk left : BondFileRead} {line : String}
    (hrevoke : runRevoke prim id reason revokeEnv disk = (.ok line, left)) :
    ∃ store, BondStore.load prim left = .ok store ∧ id ∈ store.bonds.map Bond.peerId := by
  unfold runRevoke at hrevoke
  split at hrevoke
  · cases hrevoke
  · next store hload =>
      have hfault : revokeEnv.readFault = false := by
        cases hread : revokeEnv.readFault with
        | false => rfl
        | true =>
            rw [hread] at hload
            cases hload
      rw [hfault] at hload
      have hderived : BondStore.Derived prim store :=
        fun bond hbond => BondStore.peerId_of_load hload hbond
      split at hrevoke
      · cases hrevoke
      · next outcome next happly =>
          obtain ⟨hmem, hkeeps⟩ := applyRevoke_keeps happly
          cases outcome with
          | revoked other reason' =>
              dsimp only at hrevoke
              cases houtcome : revokeEnv.saveOutcome with
              | error err =>
                  rw [houtcome] at hrevoke
                  cases hrevoke
              | ok done =>
                  rw [houtcome, BondStore.save] at hrevoke
                  dsimp only at hrevoke
                  split at hrevoke <;> cases hrevoke
                  exact ⟨next, BondStore.load_saved (hkeeps hderived), hmem⟩
          | alreadyRevoked other existing =>
              dsimp only at hrevoke
              split at hrevoke <;> cases hrevoke
              have hsame : next = store := eq_of_alreadyRevoked happly
              exact ⟨store, hload, hsame ▸ hmem⟩

end Revoke

/-! ## The pairing after it -/

section Pair

variable {prim : Primitives} {oobCode : BondKey → List String} {opts : PairOpts}
  {backend : PairBackend} {env : PairEnv}

/-- The pairing ended well and left one record of the phone, an active one. -/
def PairedOnce (prim : Primitives) (peerId : String)
    (result : EStateM.Result PairFlowError PairWorld Unit) : Prop :=
  ∃ t store, result = .ok () t ∧ BondStore.load prim t.disk.bonds = .ok store ∧
    (store.bonds.filter fun bond => bond.peerId = peerId).map Bond.status = [.bonded]

/-- A phone that is in the file is refused, and nothing is written. -/
theorem commitBond_of_recorded {chosen : PairCandidate} {outcome : LescOutcome} {w : PairWorld}
    {store : BondStore} (hforce : opts.force = false)
    (hload : BondStore.load prim w.disk.bonds = .ok store)
    (hmem : peerIdFromPubkey prim outcome.peerPubkey ∈ store.bonds.map Bond.peerId) :
    ∃ err, (commitBond prim opts env chosen outcome).run w = .error err w ∧
      (env.readFault = false →
        err = .commit (.peerAlreadyBonded (peerIdFromPubkey prim outcome.peerPubkey))) := by
  let bond := buildBond prim env outcome chosen
  have hrefused : ∀ {other : BondStore},
      BondStore.load prim (if env.readFault then .ioError else w.disk.bonds) = .ok other →
        addPaired other bond opts.force = .error (.peerAlreadyBonded bond.peerId) := by
    intro other hother
    have hread : env.readFault = false := by
      cases hfault : env.readFault with
      | false => rfl
      | true =>
          rw [hfault] at hother
          cases hother
    rw [hread] at hother
    obtain rfl : store = other := Except.ok.inj (hload.symm.trans hother)
    have hadd : store.add bond = .error (.alreadyBonded bond.peerId) := BondStore.add_of_mem hmem
    simp only [addPaired, hadd, hforce, Bool.false_eq_true, if_false]
  have hcases : Updated prim opts env bond w ((updateBonds prim opts env bond).run w) :=
    updateBonds_cases bond w
  rw [run_commitBond]
  generalize hupdate : (updateBonds prim opts env bond).run w = result at hcases
  cases hcases with
  | @unreadable err hunread =>
      refine ⟨.commit (.bond err), Program.run_bind_of_error _ hupdate, fun hread => ?_⟩
      rw [hread] at hunread
      exact absurd (hload.symm.trans hunread) (by simp)
  | @refused other err hother hadded =>
      rw [hrefused hother] at hadded
      cases hadded
      exact ⟨_, Program.run_bind_of_error _ hupdate, fun _ => rfl⟩
  | unwritten hother hadded | added hother hadded =>
      rw [hrefused hother] at hadded
      cases hadded

/-- After every revocation that succeeds, the pairing of the same phone without `--force`
fails at the store, and leaves the file as the revocation has left it. -/
theorem pair_refused_after_revoke {peerId reason line : String} {revokeEnv : RevokeEnv}
    {disk : BondFileRead} {w t : PairWorld} {chosen : PairCandidate} {outcome : LescOutcome}
    (hrevoke : runRevoke prim peerId reason revokeEnv disk = (.ok line, w.disk.bonds))
    (hforce : opts.force = false)
    (hconfirm : (confirmPeer oobCode opts backend env).run w = .ok (chosen, outcome) t)
    (hsame : peerIdFromPubkey prim outcome.peerPubkey = peerId) :
    ¬ PairedOnce prim peerId ((runPairWithIo prim oobCode opts backend env).run w) ∧
      Program.final ((runPairWithIo prim oobCode opts backend env).run w) = t ∧
      t.disk = w.disk ∧
      (env.readFault = false → (runPairWithIo prim oobCode opts backend env).run w =
        .error (.commit (.peerAlreadyBonded peerId)) t) := by
  have hkept : held t = held w := by
    have hensures : Program.Ensures held (confirmPeer oobCode opts backend env) _ :=
      ensures_confirmPeer oobCode
    have hkeeps := hensures.keeps w
    rw [hconfirm] at hkeeps
    exact hkeeps
  have hdisk : t.disk = w.disk := congrArg Prod.fst hkept
  obtain ⟨store, hload, hmem⟩ := recorded_of_runRevoke hrevoke
  rw [← hdisk] at hload
  rw [← hsame] at hmem
  obtain ⟨err, hcommit, herr⟩ : ∃ err,
      (commitBond prim opts env chosen outcome).run t = .error err t ∧ (env.readFault = false →
        err = .commit (.peerAlreadyBonded (peerIdFromPubkey prim outcome.peerPubkey))) :=
    commitBond_of_recorded hforce hload hmem
  have hrun : (runPairWithIo prim oobCode opts backend env).run w = .error err t := by
    have hbind : (runPairWithIo prim oobCode opts backend env).run w =
        (confirmPeer oobCode opts backend env >>= fun passed =>
          commitBond prim opts env passed.1 passed.2).run w := rfl
    rw [hbind, Program.run_bind_of_ok _ hconfirm]
    exact hcommit
  refine ⟨?_, by rw [hrun]; rfl, hdisk, fun hread => ?_⟩
  · intro ⟨t', store', hok, _⟩
    rw [hrun] at hok
    cases hok
  · rw [hrun, herr hread, hsame]

/-! ## A phone that was revoked as the hint says -/

def pixelBackend : PairBackend :=
  ⟨fun name => .ok ⟨name, true⟩, .ok [⟨"Pixel 8", "AA:BB:CC:DD:EE:FF"⟩],
    fun _ _ => some ⟨0, .ok ⟨KnownAnswer.pubkey, KnownAnswer.bondKey, 42⟩⟩⟩

def pixelOpts : PairOpts :=
  ⟨"hci0", some "Pixel", 60, false, false, false, none⟩

def pixelEnv : PairEnv :=
  ⟨0, .ok "y\n", false, .ok (), .written⟩

def activeRecord : BondFileRead :=
  .parsed ⟨1, [⟨KnownAnswer.peerId, KnownAnswer.pubkey, "Pixel 8", 0, .bonded⟩]⟩

def revokedRecord : BondFileRead :=
  .parsed ⟨1, [⟨KnownAnswer.peerId, KnownAnswer.pubkey, "Pixel 8", 0, .revoked "phone lost"⟩]⟩

/-- The disk after `syauth revoke`, and a terminal that takes every line. -/
def revokedWorld : PairWorld :=
  .start ⟨revokedRecord, fun _ => .error "not found"⟩ fun _ => true

theorem pair_refused_after_revoke_pixel :
    ∃ t, (confirmPeer (fun _ => ["cat"]) pixelOpts pixelBackend pixelEnv).run revokedWorld =
        .ok (⟨"Pixel 8", "AA:BB:CC:DD:EE:FF"⟩, ⟨KnownAnswer.pubkey, KnownAnswer.bondKey, 42⟩) t ∧
      (runPairWithIo KnownAnswer.primitives (fun _ => ["cat"]) pixelOpts pixelBackend
        pixelEnv).run revokedWorld =
          .error (.commit (.peerAlreadyBonded KnownAnswer.peerId)) t := by
  have hrevoke : runRevoke KnownAnswer.primitives KnownAnswer.peerId "phone lost"
      ⟨false, .ok (), true⟩ activeRecord = (.ok _, revokedWorld.disk.bonds) := rfl
  refine ⟨_, rfl, ?_⟩
  exact (pair_refused_after_revoke hrevoke rfl rfl rfl).2.2.2 rfl

/-- Every prompt is passed, and the phone is not paired. -/
theorem revoke_then_pair_fails :
    ∃ line t, runRevoke KnownAnswer.primitives KnownAnswer.peerId "phone lost"
        ⟨false, .ok (), true⟩ activeRecord = (.ok line, revokedWorld.disk.bonds) ∧
      (confirmPeer (fun _ => ["cat"]) pixelOpts pixelBackend pixelEnv).run revokedWorld =
        .ok (⟨"Pixel 8", "AA:BB:CC:DD:EE:FF"⟩, ⟨KnownAnswer.pubkey, KnownAnswer.bondKey, 42⟩) t ∧
      peerIdFromPubkey KnownAnswer.primitives KnownAnswer.pubkey = KnownAnswer.peerId ∧
      ¬ PairedOnce KnownAnswer.primitives KnownAnswer.peerId
        ((runPairWithIo KnownAnswer.primitives (fun _ => ["cat"]) pixelOpts pixelBackend
          pixelEnv).run revokedWorld) := by
  refine ⟨_, _, rfl, rfl, rfl, ?_⟩
  intro ⟨t, store, hok, _⟩
  cases hok

end Pair

end Syauth.Cli
