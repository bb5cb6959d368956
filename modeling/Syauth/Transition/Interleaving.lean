import Syauth.Transition.System

/-! # Two systems side by side

A label is a step of one of the two, so that a run is an interleaving of a run of each.  What
is seen of it is an interleaving of what is seen of the two.
-/

namespace Transition

universe u v

section Lists

variable {α : Type u} {β : Type v}

def lefts (items : List (α ⊕ β)) : List α := items.filterMap Sum.getLeft?

def rights (items : List (α ⊕ β)) : List β := items.filterMap Sum.getRight?

@[simp] theorem lefts_inl_cons (a : α) (items : List (α ⊕ β)) :
    lefts (.inl a :: items) = a :: lefts items := rfl

@[simp] theorem lefts_inr_cons (b : β) (items : List (α ⊕ β)) :
    lefts (.inr b :: items) = lefts items := rfl

@[simp] theorem rights_inl_cons (a : α) (items : List (α ⊕ β)) :
    rights (.inl a :: items) = rights items := rfl

@[simp] theorem rights_inr_cons (b : β) (items : List (α ⊕ β)) :
    rights (.inr b :: items) = b :: rights items := rfl

@[simp] theorem lefts_append (items items' : List (α ⊕ β)) :
    lefts (items ++ items') = lefts items ++ lefts items' :=
  List.filterMap_append

@[simp] theorem rights_append (items items' : List (α ⊕ β)) :
    rights (items ++ items') = rights items ++ rights items' :=
  List.filterMap_append

@[simp] theorem lefts_map_inl (as : List α) : lefts (as.map (.inl : α → α ⊕ β)) = as := by
  simp [lefts, List.filterMap_map, Function.comp_def]

@[simp] theorem lefts_map_inr (bs : List β) : lefts (bs.map (.inr : β → α ⊕ β)) = [] := by
  simp [lefts, List.filterMap_map, Function.comp_def]

@[simp] theorem rights_map_inl (as : List α) : rights (as.map (.inl : α → α ⊕ β)) = [] := by
  simp [rights, List.filterMap_map, Function.comp_def]

@[simp] theorem rights_map_inr (bs : List β) : rights (bs.map (.inr : β → α ⊕ β)) = bs := by
  simp [rights, List.filterMap_map, Function.comp_def]

theorem map_inl_lefts_sublist (items : List (α ⊕ β)) :
    ((lefts items).map .inl).Sublist items := by
  induction items with
  | nil => exact List.Sublist.refl []
  | cons item items ih =>
      cases item with
      | inl a => exact ih.cons_cons (.inl a)
      | inr b => exact ih.cons (.inr b)

theorem map_inr_rights_sublist (items : List (α ⊕ β)) :
    ((rights items).map .inr).Sublist items := by
  induction items with
  | nil => exact List.Sublist.refl []
  | cons item items ih =>
      cases item with
      | inl a => exact ih.cons (.inl a)
      | inr b => exact ih.cons_cons (.inr b)

theorem mem_lefts {items : List (α ⊕ β)} {a : α} : a ∈ lefts items ↔ .inl a ∈ items := by
  simp [lefts, List.mem_filterMap]

end Lists

namespace System

variable {σ τ ε δ ω ο : Type*}

def beside (left : System σ ε) (right : System τ δ) : System (σ × τ) (ε ⊕ δ) where
  start state := left.start state.1 ∧ right.start state.2
  step state
    | .inl event => (left.step state.1 event).map fun next => (next, state.2)
    | .inr event => (right.step state.2 event).map fun next => (state.1, next)

def observeBeside (observe : σ → ε → List ω) (observe' : τ → δ → List ο) :
    σ × τ → ε ⊕ δ → List (ω ⊕ ο)
  | state, .inl event => (observe state.1 event).map .inl
  | state, .inr event => (observe' state.2 event).map .inr

variable {left : System σ ε} {right : System τ δ}

theorem run_beside {state final : σ × τ} {events : List (ε ⊕ δ)}
    (hrun : (left.beside right).run state events = some final) :
    left.run state.1 (lefts events) = some final.1 ∧
      right.run state.2 (rights events) = some final.2 := by
  induction events generalizing state with
  | nil =>
      cases hrun
      exact ⟨rfl, rfl⟩
  | cons event events ih =>
      obtain ⟨middle, hstep, hrest⟩ := (left.beside right).run_cons_eq_some.mp hrun
      obtain ⟨hleft, hright⟩ := ih hrest
      cases event with
      | inl event =>
          obtain ⟨next, hnext, rfl⟩ := Option.map_eq_some_iff.mp hstep
          exact ⟨left.run_cons_eq_some.mpr ⟨next, hnext, hleft⟩, hright⟩
      | inr event =>
          obtain ⟨next, hnext, rfl⟩ := Option.map_eq_some_iff.mp hstep
          exact ⟨hleft, right.run_cons_eq_some.mpr ⟨next, hnext, hright⟩⟩

/-- A run of the left system alone. -/
theorem run_map_inl {state : σ × τ} {events : List ε} {next : σ}
    (hrun : left.run state.1 events = some next) :
    (left.beside right).run state (events.map .inl) = some (next, state.2) := by
  induction events generalizing state with
  | nil =>
      cases hrun
      rfl
  | cons event events ih =>
      obtain ⟨middle, hstep, hrest⟩ := left.run_cons_eq_some.mp hrun
      refine (left.beside right).run_cons_eq_some.mpr ⟨(middle, state.2), ?_, ih hrest⟩
      exact Option.map_eq_some_iff.mpr ⟨middle, hstep, rfl⟩

/-- A run of the right system alone. -/
theorem run_map_inr {state : σ × τ} {events : List δ} {next : τ}
    (hrun : right.run state.2 events = some next) :
    (left.beside right).run state (events.map .inr) = some (state.1, next) := by
  induction events generalizing state with
  | nil =>
      cases hrun
      rfl
  | cons event events ih =>
      obtain ⟨middle, hstep, hrest⟩ := right.run_cons_eq_some.mp hrun
      refine (left.beside right).run_cons_eq_some.mpr ⟨(state.1, middle), ?_, ih hrest⟩
      exact Option.map_eq_some_iff.mpr ⟨middle, hstep, rfl⟩

theorem trace_beside (observe : σ → ε → List ω) (observe' : τ → δ → List ο)
    {state final : σ × τ} {events : List (ε ⊕ δ)}
    (hrun : (left.beside right).run state events = some final) :
    lefts ((left.beside right).trace (observeBeside observe observe') state events) =
        left.trace observe state.1 (lefts events) ∧
      rights ((left.beside right).trace (observeBeside observe observe') state events) =
        right.trace observe' state.2 (rights events) := by
  induction events generalizing state with
  | nil => exact ⟨rfl, rfl⟩
  | cons event events ih =>
      obtain ⟨middle, hstep, hrest⟩ := (left.beside right).run_cons_eq_some.mp hrun
      obtain ⟨hleft, hright⟩ := ih hrest
      rw [(left.beside right).trace_cons_of_step hstep, lefts_append, rights_append, hleft, hright]
      cases event with
      | inl event =>
          obtain ⟨next, hnext, rfl⟩ := Option.map_eq_some_iff.mp hstep
          simp [observeBeside, left.trace_cons_of_step hnext]
      | inr event =>
          obtain ⟨next, hnext, rfl⟩ := Option.map_eq_some_iff.mp hstep
          simp [observeBeside, right.trace_cons_of_step hnext]

end System

end Transition
