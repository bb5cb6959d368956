import Mathlib.Data.List.Basic

/-! # Delimited text

Lists of fields written one after the other, with a separator between them or a
terminator behind each.  Splitting at the delimiter gives the fields back as long as
none of them contains it.
-/

namespace Text

universe u

variable {α : Type u} {delim : α} {fields : List (List α)}

/-- Every field followed by the delimiter. -/
def terminated (delim : α) (fields : List (List α)) : List α :=
  fields.flatMap fun field => field ++ [delim]

@[simp]
theorem terminated_nil : terminated delim [] = [] := rfl

theorem terminated_cons (field : List α) (fields : List (List α)) :
    terminated delim (field :: fields) = field ++ delim :: terminated delim fields := by
  rw [terminated, List.flatMap_cons, List.append_assoc]
  rfl

/-- A separator between the fields and one behind them. -/
theorem intercalate_concat (hne : fields ≠ []) :
    [delim].intercalate fields ++ [delim] = terminated delim fields := by
  induction fields with
  | nil => exact absurd rfl hne
  | cons field fields ih =>
      cases fields with
      | nil =>
          rw [List.intercalate_singleton, terminated_cons]
          rfl
      | cons next rest =>
          rw [List.intercalate_cons_cons, terminated_cons, ← ih (List.cons_ne_nil next rest)]
          simp only [List.append_assoc, List.cons_append, List.nil_append]

theorem mem_of_mem_intercalate {c : α} (hc : c ∈ [delim].intercalate fields) :
    c = delim ∨ ∃ field ∈ fields, c ∈ field := by
  have hne : fields ≠ [] := by
    rintro rfl
    exact absurd hc List.not_mem_nil
  have hmem : c ∈ terminated delim fields := by
    rw [← intercalate_concat hne]
    exact List.mem_append_left _ hc
  obtain ⟨field, hfield, hin⟩ := List.mem_flatMap.mp hmem
  rcases List.mem_append.mp hin with hinside | hend
  · exact .inr ⟨field, hfield, hinside⟩
  · exact .inl (List.mem_singleton.mp hend)

variable [DecidableEq α]

/-- Behind the last delimiter nothing is left. -/
theorem splitOn_terminated (hfree : ∀ field ∈ fields, delim ∉ field) :
    (terminated delim fields).splitOn delim = fields ++ [[]] := by
  induction fields with
  | nil => rfl
  | cons field fields ih =>
      obtain ⟨hfield, hfields⟩ := List.forall_mem_cons.mp hfree
      rw [terminated_cons, List.splitOn_append_cons_self_of_not_mem hfield, ih hfields]
      rfl

/-- Terminated text determines its fields. -/
theorem terminated_inj {fields' : List (List α)} (hfree : ∀ field ∈ fields, delim ∉ field)
    (hfree' : ∀ field ∈ fields', delim ∉ field)
    (hsame : terminated delim fields = terminated delim fields') : fields = fields' := by
  have hsplit := congrArg (List.splitOn delim) hsame
  rw [splitOn_terminated hfree, splitOn_terminated hfree'] at hsplit
  exact List.append_cancel_right hsplit

theorem length_splitOn_pos (text : List α) : 0 < (text.splitOn delim).length :=
  List.length_pos_iff.mpr (List.splitOn_ne_nil delim text)

/-- Only text without the delimiter is a single field. -/
theorem length_splitOn_eq_one_iff {text : List α} :
    (text.splitOn delim).length = 1 ↔ delim ∉ text := by
  constructor
  · intro hone hmem
    obtain ⟨front, back, rfl⟩ := List.append_of_mem hmem
    rw [List.splitOn_append_cons_self, List.length_append] at hone
    have hfront : 0 < (front.splitOn delim).length := length_splitOn_pos front
    have hback : 0 < (back.splitOn delim).length := length_splitOn_pos back
    omega
  · intro hfree
    rw [List.splitOn_eq_singleton hfree]
    rfl

/-- The fields of a text do not contain the delimiter. -/
theorem notMem_of_mem_splitOn {text field : List α} (hfield : field ∈ text.splitOn delim) :
    delim ∉ field := by
  induction text generalizing field with
  | nil =>
      rw [List.splitOn_nil, List.mem_singleton] at hfield
      subst hfield
      exact List.not_mem_nil
  | cons c rest ih =>
      rw [List.splitOn_cons_eq_if_modifyHead] at hfield
      split at hfield
      next =>
        rcases List.mem_cons.mp hfield with rfl | htail
        · exact List.not_mem_nil
        · exact ih htail
      next hc =>
        -- The character is put before the first field of the rest.
        obtain ⟨first, others, hsplit⟩ :=
          List.exists_cons_of_ne_nil (List.splitOn_ne_nil delim rest)
        rw [hsplit, List.modifyHead_cons] at hfield
        rcases List.mem_cons.mp hfield with rfl | htail
        · have hfirst : delim ∉ first := ih (hsplit ▸ List.mem_cons_self)
          have hne : delim ≠ c := fun heq => hc (beq_iff_eq.mpr heq.symm)
          exact List.not_mem_cons_of_ne_of_not_mem hne hfirst
        · exact ih (hsplit ▸ List.mem_cons_of_mem _ htail)

theorem mem_of_mem_splitOn {text field : List α} (hfield : field ∈ text.splitOn delim) {c : α}
    (hc : c ∈ field) : c ∈ text := by
  have hmem : c ∈ terminated delim (text.splitOn delim) :=
    List.mem_flatMap.mpr ⟨field, hfield, List.mem_append_left [delim] hc⟩
  rw [← intercalate_concat (List.splitOn_ne_nil delim text), List.intercalate_splitOn] at hmem
  rcases List.mem_append.mp hmem with htext | hend
  · exact htext
  · rw [List.mem_singleton.mp hend] at hc
    exact absurd hc (notMem_of_mem_splitOn hfield)

/-! ## The first place of a word -/

/-- What is before the first place of a word in a text, and what is behind it. -/
def splitOnce (needle : List α) : List α → Option (List α × List α)
  | [] => if needle = [] then some ([], []) else none
  | c :: rest =>
      if needle.isPrefixOf (c :: rest) then some ([], (c :: rest).drop needle.length)
      else (splitOnce needle rest).map fun found => (c :: found.1, found.2)

/-- The text is cut at the word, and at no earlier place. -/
theorem splitOnce_eq_some {needle text before after : List α} :
    splitOnce needle text = some (before, after) ↔
      text = before ++ needle ++ after ∧
        ∀ front back, text = front ++ needle ++ back → before.length ≤ front.length := by
  induction text generalizing before with
  | nil =>
      rw [splitOnce]
      constructor
      · intro hsplit
        split at hsplit
        · next hneedle =>
            cases hsplit
            exact ⟨by rw [hneedle]; rfl, fun front _ _ => Nat.zero_le front.length⟩
        · cases hsplit
      · intro ⟨htext, _⟩
        have hnil := List.append_eq_nil_iff.mp htext.symm
        have hfront := List.append_eq_nil_iff.mp hnil.1
        rw [if_pos hfront.2, hfront.1, hnil.2]
  | cons c rest ih =>
      rw [splitOnce]
      split
      · next hprefix =>
          obtain ⟨back, hback⟩ := List.isPrefixOf_iff_prefix.mp hprefix
          rw [← hback, List.drop_left]
          constructor
          · intro hsplit
            cases hsplit
            exact ⟨rfl, fun front _ _ => Nat.zero_le front.length⟩
          · intro ⟨htext, hfirst⟩
            have hlength := hfirst [] back rfl
            have hnil : before = [] := List.length_eq_zero_iff.mp (Nat.le_zero.mp hlength)
            rw [hnil, List.nil_append] at htext
            rw [hnil, List.append_cancel_left htext]
      · next hprefix =>
          have hne : ∀ {front back : List α}, c :: rest = front ++ needle ++ back →
              ∃ tail, front = c :: tail ∧ rest = tail ++ needle ++ back := by
            intro front back htext
            cases front with
            | nil =>
                rw [List.nil_append] at htext
                exact absurd (List.isPrefixOf_iff_prefix.mpr ⟨back, htext.symm⟩) hprefix
            | cons d tail =>
                obtain ⟨hhead, htail⟩ := List.cons.inj htext
                exact ⟨tail, by rw [hhead], htail⟩
          constructor
          · intro hsplit
            obtain ⟨⟨front, back⟩, hfound, hpair⟩ := Option.map_eq_some_iff.mp hsplit
            cases hpair
            obtain ⟨hrest, hfirst⟩ := ih.mp hfound
            refine ⟨by rw [hrest]; rfl, fun other back htext => ?_⟩
            obtain ⟨tail, hother, htail⟩ := hne htext
            rw [hother]
            exact Nat.succ_le_succ (hfirst tail back htail)
          · intro ⟨htext, hfirst⟩
            obtain ⟨tail, hbefore, hrest⟩ := hne htext
            rw [ih.mpr ⟨hrest, ?_⟩, hbefore]
            · rfl
            · intro front back hother
              have hlength := hfirst (c :: front) back (by rw [hother]; rfl)
              rw [hbefore] at hlength
              exact Nat.le_of_succ_le_succ hlength

/-- A text that goes on has the word at the same first place. -/
theorem splitOnce_append {needle text before after : List α}
    (hsplit : splitOnce needle text = some (before, after)) (more : List α) :
    splitOnce needle (text ++ more) = some (before, after ++ more) := by
  obtain ⟨htext, hfirst⟩ := splitOnce_eq_some.mp hsplit
  refine splitOnce_eq_some.mpr ⟨by rw [htext, List.append_assoc], ?_⟩
  intro front back hother
  by_contra hearlier
  -- an earlier place would end before the text does
  have hlength : (front ++ needle).length ≤ text.length := by
    rw [htext]
    simp only [List.length_append]
    omega
  have hfits : front ++ needle <+: text :=
    List.prefix_of_prefix_length_le ⟨back, hother.symm⟩ (List.prefix_append text more) hlength
  obtain ⟨rest, hrest⟩ := hfits
  exact hearlier (hfirst front rest hrest.symm)

theorem splitOnce_singleton {text before after : List α} :
    splitOnce [delim] text = some (before, after) ↔
      text = before ++ delim :: after ∧ delim ∉ before := by
  rw [splitOnce_eq_some, List.append_assoc, List.singleton_append]
  refine and_congr_right fun htext => ⟨fun hfirst hmem => ?_, fun hfree front back hother => ?_⟩
  · obtain ⟨front, back, hbefore⟩ := List.append_of_mem hmem
    have hlength := hfirst front (back ++ delim :: after) (by rw [htext, hbefore]; simp)
    rw [hbefore, List.length_append, List.length_cons] at hlength
    omega
  · rw [htext, List.append_assoc, List.singleton_append] at hother
    rcases List.append_eq_append_iff.mp hother with ⟨gap, hfront, -⟩ | ⟨gap, hgap, hrest⟩
    · rw [hfront, List.length_append]
      exact Nat.le_add_right _ _
    · cases gap with
      | nil =>
          rw [List.append_nil] at hgap
          exact Nat.le_of_eq (congrArg List.length hgap)
      | cons d gap =>
          obtain ⟨hd, -⟩ := List.cons.inj hrest
          rw [hgap, ← hd] at hfree
          exact absurd (List.mem_append_right front List.mem_cons_self) hfree

end Text
