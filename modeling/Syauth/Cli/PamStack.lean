import Syauth.Cli.InstallPam

/-! # Order and lines of the rewritten PAM stack

What `install` makes of the lines of a service file.  Three tests decide where lines
go: a prefix test finds the first `auth` directive, a substring test the line that the
fallback is put behind, and a regular expression whether the module is wired already.
-/

namespace Syauth.Cli

open Text

section Stack

variable (unicodeWord : Char → Bool) (opts : InstallOpts) (body : List Char)

/-- The fallback is asked for and not there. -/
def needsU2fInsert (text : List Char) : Bool :=
  opts.withU2fFallback && !u2fRecognitionRegexMatch unicodeWord text

end Stack

/-! ## Rows -/

/-- A list is cut in one way at the first element of a kind. -/
theorem append_cons_inj_of_first {α : Type*} {p : α → Bool} {front front' back back' : List α}
    {x x' : α} (hsame : front ++ x :: back = front' ++ x' :: back')
    (hfront : ∀ y ∈ front, p y = false) (hfront' : ∀ y ∈ front', p y = false) (hx : p x = true)
    (hx' : p x' = true) : front = front' ∧ x = x' ∧ back = back' := by
  induction front generalizing front' with
  | nil =>
      cases front' with
      | nil =>
          obtain ⟨rfl, rfl⟩ := List.cons.inj hsame
          exact ⟨rfl, rfl, rfl⟩
      | cons y front' =>
          obtain ⟨rfl, -⟩ := List.cons.inj hsame
          rw [hfront' x List.mem_cons_self] at hx
          cases hx
  | cons y front ih =>
      obtain ⟨hy, hrest⟩ := List.forall_mem_cons.mp hfront
      cases front' with
      | nil =>
          obtain ⟨rfl, -⟩ := List.cons.inj hsame
          rw [hy] at hx'
          cases hx'
      | cons z front' =>
          obtain ⟨rfl, htail⟩ := List.cons.inj hsame
          obtain ⟨-, hrest'⟩ := List.forall_mem_cons.mp hfront'
          obtain ⟨rfl, rfl, rfl⟩ := ih htail hrest hrest'
          exact ⟨rfl, rfl, rfl⟩

/-- So it is at an element that it does not have otherwise. -/
theorem append_cons_inj_of_notMem {α : Type*} [DecidableEq α] {front front' back back' : List α}
    {x : α} (hsame : front ++ x :: back = front' ++ x :: back') (hfront : x ∉ front)
    (hfront' : x ∉ front') : front = front' ∧ back = back' := by
  have hne : ∀ {l : List α}, x ∉ l → ∀ y ∈ l, (y == x) = false := by
    intro l hnotMem y hmem
    rw [beq_eq_false_iff_ne]
    rintro rfl
    exact hnotMem hmem
  obtain ⟨hsame, -, hback⟩ := append_cons_inj_of_first hsame (hne hfront) (hne hfront')
    (beq_self_eq_true x) (beq_self_eq_true x)
  exact ⟨hsame, hback⟩

variable {unicodeWord : Char → Bool} {opts : InstallOpts} {body : List Char}

end Syauth.Cli
