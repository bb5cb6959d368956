import Mathlib.Logic.Basic

/-! # Programs that can stop early

A program of `EStateM` that throws keeps the state it had reached.  The rules are for two
things at once: a part of the state that no way through the program changes, and what is so
when the program gets to its end.  Programs that never get there have rules of their own.
-/

namespace Program

universe u v

variable {ε σ α β : Type u} {κ : Type v} {view : σ → κ}

/-- The state in which a program stops, at its end or before. -/
def final : EStateM.Result ε σ α → σ
  | .ok _ s => s
  | .error _ s => s

/-- The result of a call that does not touch the state. -/
def ofExcept : Except ε α → EStateM ε σ α
  | .ok a => pure a
  | .error e => throw e

theorem run_ofExcept_ok (a : α) (s : σ) : (ofExcept (.ok a) : EStateM ε σ α).run s = .ok a s := rfl

theorem run_bind_of_ok {first : EStateM ε σ α} (next : α → EStateM ε σ β) {a : α} {s t : σ}
    (hfirst : first.run s = .ok a t) : (first >>= next).run s = (next a).run t := by
  change EStateM.bind first next s = next a t
  rw [EStateM.bind, show first s = .ok a t from hfirst]

theorem run_bind_of_error {first : EStateM ε σ α} (next : α → EStateM ε σ β) {e : ε} {s t : σ}
    (hfirst : first.run s = .error e t) : (first >>= next).run s = .error e t := by
  change EStateM.bind first next s = .error e t
  rw [EStateM.bind, show first s = .error e t from hfirst]

theorem bind_eq_ok_iff {first : Except ε α} {next : α → Except ε β} {b : β} :
    first >>= next = .ok b ↔ ∃ a, first = .ok a ∧ next a = .ok b := by
  cases first with
  | error e =>
      constructor
      · intro hnext
        cases hnext
      · rintro ⟨a, ha, -⟩
        cases ha
  | ok a =>
      constructor
      · exact fun hnext => ⟨a, rfl, hnext⟩
      · rintro ⟨a', ha, hnext⟩
        cases ha
        exact hnext

/-- A guard that throws is passed only where it does not hold. -/
theorem guard_eq_ok_iff {p : Prop} [Decidable p] {e : ε} {after : α → Except ε β}
    {rest : Except ε β} {b : β} :
    (if p then throw e >>= after else rest) = .ok b ↔ ¬ p ∧ rest = .ok b := by
  by_cases hp : p
  · rw [if_pos hp]
    constructor
    · intro hthrown
      cases hthrown
    · exact fun hpassed => absurd hp hpassed.1
  · rw [if_neg hp]
    exact ⟨fun hrest => ⟨hp, hrest⟩, And.right⟩

/-- A clean-up runs behind a program that got to its end, and what it throws takes the place of the
result. -/
theorem run_tryFinally_of_ok {prog : EStateM ε σ α} (cleanup : EStateM ε σ β) {a : α} {s t : σ}
    (hprog : prog.run s = .ok a t) :
    (tryFinally prog cleanup : EStateM ε σ α).run s =
      match cleanup.run t with
      | .ok _ u => .ok a u
      | .error e u => .error e u := by
  unfold tryFinally tryFinally' EStateM.instMonadFinally
  change EStateM.map _ _ s = _
  simp only [EStateM.map, show prog s = .ok a t from hprog, EStateM.run]
  cases cleanup t <;> rfl

/-- A clean-up runs behind a program that stopped early too. -/
theorem run_tryFinally_of_error {prog : EStateM ε σ α} (cleanup : EStateM ε σ β) {e : ε} {s t : σ}
    (hprog : prog.run s = .error e t) :
    (tryFinally prog cleanup : EStateM ε σ α).run s =
      match cleanup.run t with
      | .ok _ u => .error e u
      | .error e u => .error e u := by
  unfold tryFinally tryFinally' EStateM.instMonadFinally
  change EStateM.map _ _ s = _
  simp only [EStateM.map, show prog s = .error e t from hprog, EStateM.run]
  cases cleanup t <;> rfl

/-- Every way through the program keeps the view, and what it returns meets `post`. -/
structure Ensures (view : σ → κ) (prog : EStateM ε σ α) (post : α → Prop) : Prop where
  keeps : ∀ s, view (final (prog.run s)) = view s
  returns : ∀ {s a t}, prog.run s = .ok a t → post a

/-- The program never gets to its end, and keeps the view. -/
def Stops (view : σ → κ) (prog : EStateM ε σ α) : Prop :=
  ∀ s, ∃ e t, prog.run s = .error e t ∧ view t = view s

namespace Ensures

theorem pure {post : α → Prop} {a : α} (hpost : post a) :
    Ensures view (Pure.pure a : EStateM ε σ α) post where
  keeps _ := rfl
  returns hrun := by
    cases hrun
    exact hpost

theorem throw {post : α → Prop} (e : ε) :
    Ensures view (MonadExcept.throw e : EStateM ε σ α) post where
  keeps _ := rfl
  returns hrun := by cases hrun

/-- The second part may use what the first one has established. -/
theorem bind {first : EStateM ε σ α} {next : α → EStateM ε σ β} {mid : α → Prop}
    {post : β → Prop} (hfirst : Ensures view first mid)
    (hnext : ∀ a, mid a → Ensures view (next a) post) : Ensures view (first >>= next) post where
  keeps s := by
    have hkept := hfirst.keeps s
    cases hrun : first.run s with
    | error e t =>
        rw [run_bind_of_error next hrun]
        rwa [hrun] at hkept
    | ok a t =>
        rw [hrun] at hkept
        rw [run_bind_of_ok next hrun, (hnext a (hfirst.returns hrun)).keeps t]
        exact hkept
  returns {s} b t hboth := by
    cases hrun : first.run s with
    | error e t =>
        rw [run_bind_of_error next hrun] at hboth
        cases hboth
    | ok a t =>
        rw [run_bind_of_ok next hrun] at hboth
        exact (hnext a (hfirst.returns hrun)).returns hboth

theorem ofExcept (result : Except ε α) :
    Ensures view (Program.ofExcept result : EStateM ε σ α) fun a => result = .ok a := by
  cases result with
  | ok a => exact pure rfl
  | error e => exact throw e

theorem imp {prog : EStateM ε σ α} {post post' : α → Prop} (hprog : Ensures view prog post)
    (himp : ∀ a, post a → post' a) : Ensures view prog post' where
  keeps := hprog.keeps
  returns hrun := himp _ (hprog.returns hrun)

theorem forM {γ : Type u} {body : γ → EStateM ε σ PUnit}
    (hbody : ∀ x, Ensures view (body x) fun _ => True) (xs : List γ) :
    Ensures view (ForM.forM xs body) fun _ => True := by
  induction xs with
  | nil => exact pure trivial
  | cons x xs ih =>
      rw [List.forM_cons]
      exact (hbody x).bind fun _ _ => ih

/-- Where the second part always stops early, so do both together. -/
theorem bind_stops {first : EStateM ε σ α} {next : α → EStateM ε σ β} {mid : α → Prop}
    (hfirst : Ensures view first mid) (hnext : ∀ a, mid a → Stops view (next a)) :
    Stops view (first >>= next) := by
  intro s
  have hkept := hfirst.keeps s
  cases hrun : first.run s with
  | error e t =>
      rw [hrun] at hkept
      exact ⟨e, t, run_bind_of_error next hrun, hkept⟩
  | ok a t =>
      rw [hrun] at hkept
      obtain ⟨e, u, hstop, hview⟩ := hnext a (hfirst.returns hrun) t
      exact ⟨e, u, (run_bind_of_ok next hrun).trans hstop, hview.trans hkept⟩

end Ensures

namespace Stops

theorem throw (e : ε) : Stops view (MonadExcept.throw e : EStateM ε σ α) :=
  fun s => ⟨e, s, rfl, rfl⟩

/-- A clean-up does not bring a program back to its end. -/
theorem withCleanup {prog : EStateM ε σ α} {cleanup : EStateM ε σ β} {after : β → Prop}
    (hprog : Stops view prog) (hcleanup : Ensures view cleanup after) :
    Stops view (tryFinally prog cleanup : EStateM ε σ α) := by
  intro s
  obtain ⟨e, t, hrun, hview⟩ := hprog s
  have hkept := (hcleanup.keeps t).trans hview
  rw [run_tryFinally_of_error cleanup hrun]
  cases hafter : cleanup.run t with
  | ok b u =>
      rw [hafter] at hkept
      exact ⟨e, u, rfl, hkept⟩
  | error e' u =>
      rw [hafter] at hkept
      exact ⟨e', u, rfl, hkept⟩

end Stops

end Program
