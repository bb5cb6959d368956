import Syauth.Cli.RevokeThenPair
import Syauth.Presenced.Convergence

/-! # A revocation takes effect

From `syauth revoke` to the answers of the daemon: the command replaces the bond file, the
watcher sees it, and where the daemon has settled the phone is refused until somebody bonds it
again.
-/

namespace Syauth.Presenced.Watcher

open Cli Transition

variable {prim : Primitives} {s t : Host} {event : Event} {peerId : String}

/-- The file has no active record of the peer.  It may be one that does not load. -/
def Unbonded (prim : Primitives) (peerId : String) (file : BondFileRead) : Prop :=
  ∀ store, BondStore.load prim file = .ok store → ¬ BondedIn store peerId

/-- Whoever writes the file leaves the peer without an active record. -/
def KeepsRevoked (prim : Primitives) (peerId : String) : Event → Prop
  | .writeBonds file _ => Unbonded prim peerId file
  | _ => True

theorem Step.unbonded (hstep : Step prim s event t) (hkeeps : KeepsRevoked prim peerId event)
    (hunbonded : Unbonded prim peerId s.bondsFile) : Unbonded prim peerId t.bondsFile := by
  cases hstep with
  | wrote =>
      rw [(content_raise _).1]
      exact hkeeps
  | other =>
      rw [(content_raise _).1]
      exact hunbonded
  | _ => exact hunbonded

/-! ## The daemon from then on -/

/-- The file has no active record of the peer, the daemon does not answer for it, and the call
has not got past its lookup. -/
structure Host.Shuts (prim : Primitives) (peerId : String) (c : CallId) (s : Host) : Prop where
  file : Unbonded prim peerId s.bondsFile
  absent : Absent peerId s.daemon
  away : s.daemon.TurnsAway c peerId

theorem Host.Shuts.daemon {c : CallId} {d : State} {event : Presenced.Event}
    (hshuts : s.Shuts prim peerId c) (hlater : NotRebonded prim peerId s.daemon event)
    (hstep : Presenced.step prim s.daemon event = some d) :
    Absent peerId d ∧ d.TurnsAway c peerId := by
  have hdaemon : (Presenced.daemon prim).step s.daemon event = some d := hstep
  exact ⟨hshuts.absent.step hlater (Presenced.step_sound hdaemon),
    hshuts.away.step hshuts.absent.notLive (Presenced.step_sound hdaemon)⟩

theorem Host.Shuts.step {c : CallId} (hshuts : s.Shuts prim peerId c)
    (hkeeps : KeepsRevoked prim peerId event) (hstep : Step prim s event t) :
    t.Shuts prim peerId c := by
  have hfile := hstep.unbonded hkeeps hshuts.file
  cases hstep with
  | wrote | other =>
      refine ⟨hfile, ?_, ?_⟩
      · rw [daemon_raise]
        exact hshuts.absent
      · rw [daemon_raise]
        exact hshuts.away
  | @reload order _ hdaemon =>
      have hlater : NotRebonded prim peerId s.daemon
          (.loop (.reloadBegin s.bondsFile s.keysDir order)) :=
        -- the file that the reload reads is the one on the disk
        hshuts.file
      obtain ⟨habsent, haway⟩ := hshuts.daemon hlater hdaemon
      exact ⟨hfile, habsent, haway⟩
  | @daemon event _ helsewhere hdaemon =>
      have hlater : NotRebonded prim peerId s.daemon event := by
        cases event with
        | loop event =>
            cases event with
            | reloadBegin => cases helsewhere
            | _ => trivial
        | _ => trivial
      obtain ⟨habsent, haway⟩ := hshuts.daemon hlater hdaemon
      exact ⟨hfile, habsent, haway⟩
  | _ =>
      exact ⟨hfile, ⟨hshuts.absent.notLive, hshuts.absent.notPending⟩, hshuts.away⟩

theorem Host.Shuts.run {c : CallId} {final : Host} {later : List Event}
    (hshuts : s.Shuts prim peerId c)
    (hkeeps : (host prim).AllSteps (fun _ => KeepsRevoked prim peerId) s later)
    (hrun : (host prim).run s later = some final) : final.Shuts prim peerId c :=
  (host prim).run_invariant_of_allSteps (fun _ => KeepsRevoked prim peerId)
    (fun state => state.Shuts prim peerId c)
    (fun _ _ _ hshuts hkeeps hstep => hshuts.step hkeeps (step_sound hstep)) hshuts hkeeps hrun

end Syauth.Presenced.Watcher
