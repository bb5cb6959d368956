import Syauth.Core.Frame

/-! # Reassembly of fragmented writes

`reassemble` of `crates/syauth-transport/src/bluez.rs`.  Each segment is one GATT write: a header
byte whose high bit says that more segments follow, and a piece of the frame.
-/

namespace Syauth.Transport

def fragmentHeaderLen : Nat := 1
def fragmentMoreBit : UInt8 := 0x80

inductive TransportError where
  | timeout
  | unreachable
  | closed
  | badFrame (err : FrameError)
  | wrongVersion (version : UInt8)
  | replay
  | notPaired
  | adapterMissing (name : String)
  | incompleteReassembly
  | backend (reason : String)
  deriving DecidableEq

/-- The header says that more segments follow. -/
def MoreFollows (header : UInt8) : Prop := header &&& fragmentMoreBit ≠ 0

instance (header : UInt8) : Decidable (MoreFollows header) :=
  inferInstanceAs (Decidable (header &&& fragmentMoreBit ≠ 0))

/-- The loop over the segments from an index on. -/
def reassembleFrom (lastIdx : Nat) : Nat → List Bytes → Bytes → Except TransportError Bytes
  | _, [], out => .ok out
  | idx, seg :: rest, out =>
      if seg.length < fragmentHeaderLen then .error .incompleteReassembly
      else
        let more := MoreFollows (seg.headD 0)
        let isLast := idx = lastIdx
        if isLast ∧ more then .error .incompleteReassembly
        else if ¬ isLast ∧ ¬ more then .error .incompleteReassembly
        else reassembleFrom lastIdx (idx + 1) rest (out ++ seg.drop fragmentHeaderLen)

def reassemble (segments : List Bytes) : Except TransportError Bytes :=
  if segments.isEmpty then .error .incompleteReassembly
  else reassembleFrom (segments.length - 1) 0 segments []

/-! ## Segments of a frame -/

/-- The ways to cut a frame into one or more pieces, the bits beside the high one left open. -/
inductive Fragments : List Bytes → Bytes → Prop where
  | last {header : UInt8} {piece : Bytes} (hlast : ¬ MoreFollows header) :
      Fragments [header :: piece] piece
  | more {header : UInt8} {piece rest : Bytes} {segments : List Bytes}
      (hmore : MoreFollows header) (hrest : Fragments segments rest) :
      Fragments ((header :: piece) :: segments) (piece ++ rest)

theorem Fragments.ne_nil {segments : List Bytes} {frame : Bytes}
    (hfragments : Fragments segments frame) : segments ≠ [] := by
  cases hfragments with
  | last hlast => exact List.cons_ne_nil _ _
  | more hmore hrest => exact List.cons_ne_nil _ _

theorem reassembleFrom_cons (lastIdx idx : Nat) (header : UInt8) (piece : Bytes)
    (rest : List Bytes) (out : Bytes) :
    reassembleFrom lastIdx idx ((header :: piece) :: rest) out =
      if idx = lastIdx ↔ MoreFollows header then .error .incompleteReassembly
      else reassembleFrom lastIdx (idx + 1) rest (out ++ piece) := by
  have hlength : ¬ (header :: piece).length < fragmentHeaderLen := by
    simp [fragmentHeaderLen]
  rw [reassembleFrom, if_neg hlength]
  by_cases hidx : idx = lastIdx
  · by_cases hmore : MoreFollows header
    · simp [hidx, hmore]
    · simp [hidx, hmore, fragmentHeaderLen]
  · by_cases hmore : MoreFollows header
    · simp [hidx, hmore, fragmentHeaderLen]
    · simp [hidx, hmore]

/-- Fragments are joined behind what the loop has read. -/
theorem Fragments.reassembleFrom_eq {segments : List Bytes} {frame : Bytes}
    (hfragments : Fragments segments frame) {lastIdx idx : Nat}
    (hidx : idx + segments.length = lastIdx + 1) (out : Bytes) :
    reassembleFrom lastIdx idx segments out = .ok (out ++ frame) := by
  induction hfragments generalizing idx out with
  | @last header piece hlast =>
      have hend : idx = lastIdx := Nat.succ.inj hidx
      rw [reassembleFrom_cons, if_neg]
      · rfl
      · intro hiff
        exact hlast (hiff.mp hend)
  | @more header piece rest segments hmore hrest ih =>
      have hpos : 0 < segments.length := List.length_pos_iff.mpr hrest.ne_nil
      rw [List.length_cons] at hidx
      rw [reassembleFrom_cons, if_neg, ih (by omega), List.append_assoc]
      intro hiff
      have hend : idx = lastIdx := hiff.mpr hmore
      omega

/-- What the loop accepts are fragments. -/
theorem fragments_of_reassembleFrom {segments : List Bytes} {lastIdx idx : Nat}
    {out whole : Bytes} (hne : segments ≠ []) (hidx : idx + segments.length = lastIdx + 1)
    (hok : reassembleFrom lastIdx idx segments out = .ok whole) :
    ∃ frame, Fragments segments frame := by
  induction segments generalizing idx out with
  | nil => exact absurd rfl hne
  | cons seg rest ih =>
      cases seg with
      | nil =>
          have hshort : ([] : Bytes).length < fragmentHeaderLen := Nat.one_pos
          rw [reassembleFrom, if_pos hshort] at hok
          cases hok
      | cons header piece =>
          rw [reassembleFrom_cons] at hok
          split at hok
          next => cases hok
          next hdiffer =>
            cases rest with
            | nil =>
                have hend : idx = lastIdx := Nat.succ.inj hidx
                refine ⟨piece, .last ?_⟩
                intro hmore
                exact hdiffer (iff_of_true hend hmore)
            | cons next rest =>
                simp only [List.length_cons] at hidx
                have hmore : MoreFollows header := by
                  by_contra hlast
                  exact hdiffer (iff_of_false (by omega) hlast)
                obtain ⟨frame, hframe⟩ :=
                  ih (List.cons_ne_nil next rest) (by rw [List.length_cons]; omega) hok
                exact ⟨piece ++ frame, .more hmore hframe⟩

/-- Exactly the fragments of a frame are put together to it. -/
theorem reassemble_eq_ok_iff {segments : List Bytes} {frame : Bytes} :
    reassemble segments = .ok frame ↔ Fragments segments frame := by
  have hjoin : ∀ {whole : Bytes}, Fragments segments whole → reassemble segments = .ok whole := by
    intro whole hwhole
    have hlength : 0 < segments.length := List.length_pos_iff.mpr hwhole.ne_nil
    have hempty : ¬ segments.isEmpty = true := by
      rw [List.isEmpty_iff]
      exact hwhole.ne_nil
    rw [reassemble, if_neg hempty, hwhole.reassembleFrom_eq (by omega), List.nil_append]
  constructor
  · intro hok
    have hne : segments ≠ [] := by
      rintro rfl
      cases hok
    have hloop : reassembleFrom (segments.length - 1) 0 segments [] = .ok frame := by
      rwa [reassemble, if_neg (by rwa [List.isEmpty_iff])] at hok
    have hlength : 0 < segments.length := List.length_pos_iff.mpr hne
    obtain ⟨whole, hwhole⟩ := fragments_of_reassembleFrom hne (by omega) hloop
    have hsame := hjoin hwhole
    rw [hok] at hsame
    rw [Except.ok.inj hsame]
    exact hwhole
  · exact hjoin

theorem reassembleFrom_error {lastIdx idx : Nat} {segments : List Bytes} {out : Bytes}
    {err : TransportError} (herror : reassembleFrom lastIdx idx segments out = .error err) :
    err = .incompleteReassembly := by
  induction segments generalizing idx out with
  | nil => cases herror
  | cons seg rest ih =>
      simp only [reassembleFrom] at herror
      split at herror
      · cases herror
        rfl
      split at herror
      · cases herror
        rfl
      split at herror
      · cases herror
        rfl
      · exact ih herror

theorem reassemble_error {segments : List Bytes} {err : TransportError}
    (herror : reassemble segments = .error err) : err = .incompleteReassembly := by
  unfold reassemble at herror
  split at herror
  · cases herror
    rfl
  · exact reassembleFrom_error herror

/-! ## Well-formed lists of segments -/

/-- The segment begins with a header that says that more segments follow. -/
def SaysMore (seg : Bytes) : Prop := ∀ header ∈ seg.head?, MoreFollows header

/-- The segment begins with a header that says that it is the last. -/
def SaysLast (seg : Bytes) : Prop := ∀ header ∈ seg.head?, ¬ MoreFollows header

structure WellFragmented (segments : List Bytes) : Prop where
  ne_nil : segments ≠ []
  headed : ∀ seg ∈ segments, seg ≠ []
  more : ∀ seg ∈ segments.dropLast, SaysMore seg
  last : ∀ seg ∈ segments.getLast?, SaysLast seg

theorem wellFragmented_singleton {header : UInt8} {piece : Bytes} :
    WellFragmented [header :: piece] ↔ ¬ MoreFollows header := by
  constructor
  · intro hwell
    exact hwell.last _ rfl header rfl
  · intro hlast
    refine ⟨List.cons_ne_nil _ _, ?_, ?_, ?_⟩
    · intro seg hseg
      rw [List.mem_singleton.mp hseg]
      exact List.cons_ne_nil _ _
    · intro seg hseg
      cases hseg
    · intro seg hseg other hother
      cases hseg
      cases hother
      exact hlast

theorem wellFragmented_cons {header : UInt8} {piece : Bytes} {segments : List Bytes}
    (hne : segments ≠ []) :
    WellFragmented ((header :: piece) :: segments) ↔
      MoreFollows header ∧ WellFragmented segments := by
  have hlast : ((header :: piece) :: segments).getLast? = segments.getLast? := by
    rw [List.getLast?_cons, List.getLast?_eq_some_getLast hne]
    rfl
  have hinit : ((header :: piece) :: segments).dropLast = (header :: piece) :: segments.dropLast :=
    List.dropLast_cons_of_ne_nil hne
  constructor
  · intro hwell
    obtain ⟨_, hheaded, hmore, hend⟩ := hwell
    rw [hinit] at hmore
    rw [hlast] at hend
    refine ⟨hmore _ List.mem_cons_self header rfl, hne, ?_, ?_, hend⟩
    · intro seg hseg
      exact hheaded seg (List.mem_cons_of_mem _ hseg)
    · intro seg hseg
      exact hmore seg (List.mem_cons_of_mem _ hseg)
  · intro ⟨hhead, _, hheaded, hmore, hend⟩
    refine ⟨List.cons_ne_nil _ _, ?_, ?_, ?_⟩
    · exact List.forall_mem_cons.mpr ⟨List.cons_ne_nil _ _, hheaded⟩
    · rw [hinit]
      refine List.forall_mem_cons.mpr ⟨?_, hmore⟩
      intro other hother
      cases hother
      exact hhead
    · rw [hlast]
      exact hend

/-- The pieces of a well-formed list of segments are those of one frame. -/
theorem WellFragmented.fragments {segments : List Bytes} (hwell : WellFragmented segments) :
    Fragments segments (segments.flatMap List.tail) := by
  induction segments with
  | nil => exact absurd rfl hwell.ne_nil
  | cons seg rest ih =>
      cases seg with
      | nil => exact absurd rfl (hwell.headed [] List.mem_cons_self)
      | cons header piece =>
          rw [List.flatMap_cons, List.tail_cons]
          by_cases hrest : rest = []
          · subst hrest
            rw [List.flatMap_nil, List.append_nil]
            exact .last (wellFragmented_singleton.mp hwell)
          · obtain ⟨hmore, htail⟩ := (wellFragmented_cons hrest).mp hwell
            exact .more hmore (ih htail)

theorem Fragments.wellFragmented {segments : List Bytes} {frame : Bytes}
    (hfragments : Fragments segments frame) : WellFragmented segments := by
  induction hfragments with
  | last hlast => exact wellFragmented_singleton.mpr hlast
  | more hmore hrest ih => exact (wellFragmented_cons hrest.ne_nil).mpr ⟨hmore, ih⟩

/-- The segments of a frame cut into headed pieces. -/
def segmentsOf (parts : List (UInt8 × Bytes)) : List Bytes :=
  parts.map fun part => part.1 :: part.2

theorem wellFragmented_segmentsOf {parts : List (UInt8 × Bytes)} (hne : parts ≠ [])
    (hmore : ∀ part ∈ parts.dropLast, MoreFollows part.1)
    (hlast : ∀ part ∈ parts.getLast?, ¬ MoreFollows part.1) :
    WellFragmented (segmentsOf parts) := by
  have hnil : segmentsOf parts ≠ [] := by
    intro heq
    exact hne (List.map_eq_nil_iff.mp heq)
  refine ⟨hnil, ?_, ?_, ?_⟩
  · intro seg hseg
    obtain ⟨part, _, rfl⟩ := List.mem_map.mp hseg
    exact List.cons_ne_nil _ _
  · intro seg hseg
    rw [segmentsOf, ← List.map_dropLast] at hseg
    obtain ⟨part, hpart, rfl⟩ := List.mem_map.mp hseg
    intro header hheader
    cases hheader
    exact hmore part hpart
  · intro seg hseg
    rw [segmentsOf, List.getLast?_map] at hseg
    obtain ⟨part, hpart, rfl⟩ := Option.map_eq_some_iff.mp hseg
    intro header hheader
    cases hheader
    exact hlast part hpart

theorem flatMap_tail_segmentsOf (parts : List (UInt8 × Bytes)) :
    (segmentsOf parts).flatMap List.tail = parts.flatMap Prod.snd := by
  rw [segmentsOf, List.flatMap_map]
  rfl

/-- Segments are joined exactly when they are non-empty and only the last one ends them, and a
frame comes back from any cut of it. -/
theorem reassemble_exact :
    (∀ segments, WellFragmented segments →
      reassemble segments = .ok (segments.flatMap List.tail)) ∧
    (∀ segments, ¬ WellFragmented segments →
      reassemble segments = .error .incompleteReassembly) ∧
    ∀ (frame : Bytes) (parts : List (UInt8 × Bytes)), parts ≠ [] →
      parts.flatMap Prod.snd = frame →
      (∀ part ∈ parts.dropLast, MoreFollows part.1) →
      (∀ part ∈ parts.getLast?, ¬ MoreFollows part.1) →
        reassemble (segmentsOf parts) = .ok frame := by
  refine ⟨?_, ?_, ?_⟩
  · intro segments hwell
    exact reassemble_eq_ok_iff.mpr hwell.fragments
  · intro segments hill
    cases hresult : reassemble segments with
    | ok frame => exact absurd (reassemble_eq_ok_iff.mp hresult).wellFragmented hill
    | error err => rw [reassemble_error hresult]
  · intro frame parts hne hcut hmore hlast
    rw [← hcut, ← flatMap_tail_segmentsOf]
    exact reassemble_eq_ok_iff.mpr (wellFragmented_segmentsOf hne hmore hlast).fragments

/-- Four bytes in two segments; bits of the headers beside the high one are set. -/
theorem reassemble_exact_two_segments :
    reassemble [[0x83, 0xAA, 0xBB], [0x01, 0xCC, 0xDD]] = .ok [0xAA, 0xBB, 0xCC, 0xDD] :=
  reassemble_exact.2.2 [0xAA, 0xBB, 0xCC, 0xDD] [(0x83, [0xAA, 0xBB]), (0x01, [0xCC, 0xDD])]
    (by decide) (by decide) (by decide) (by decide)

end Syauth.Transport
