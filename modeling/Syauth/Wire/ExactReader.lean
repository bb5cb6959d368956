import Mathlib.Data.List.Basic

/-! # Reading an exact number of items from a stream

A stream arrives in chunks and stops with its end or with an error.  A blocking
reader may be interrupted between chunks, an asynchronous one is polled again after
each burst of chunks.  Either way a read of `n` items gets the next `n` of the stream,
or all that is left of it and the reason why it stopped.
-/

namespace Wire

universe u v w

/-- The items of one delivery; a delivery of nothing is the end of a stream. -/
structure Chunk (α : Type u) where
  first : α
  rest : List α

/-- How a stream stops. -/
inductive Ending (κ : Type v) where
  | eof
  | failed (err : κ)

inductive ReadError (κ : Type v) where
  | unexpectedEof
  | failed (err : κ)
  deriving DecidableEq

/-- What a read that needs more items reports when the stream stops. -/
def Ending.error {κ : Type v} : Ending κ → ReadError κ
  | .eof => .unexpectedEof
  | .failed err => .failed err

/-- What a read has done: the items it took, the source it left and its result. -/
structure Progress (σ : Type w) (α : Type u) (κ : Type v) where
  consumed : List α
  left : σ
  result : Except (ReadError κ) Unit

variable {σ : Type w} {α : Type u} {κ : Type v}

/-- The progress of a read that has taken some items before. -/
def Progress.after (taken : List α) (progress : Progress σ α κ) : Progress σ α κ :=
  { progress with consumed := taken ++ progress.consumed }

/-- The read of `n` items that a stream determines: its next items, or all it has left and
the reason why it stopped. -/
structure Progress.Exact (itemsOf : σ → List α) (endingOf : σ → Ending κ) (items : List α)
    (ending : Ending κ) (n : Nat) (progress : Progress σ α κ) : Prop where
  consumed_eq : progress.consumed = items.take n
  items_left : itemsOf progress.left = items.drop n
  ending_left : endingOf progress.left = ending
  result_eq : progress.result = if n ≤ items.length then .ok () else .error ending.error

/-- A way to read from sources of a type, for which the chunks do not matter. -/
structure ExactReader (σ : Type w) (α : Type u) (κ : Type v) where
  items : σ → List α
  ending : σ → Ending κ
  readExact : Nat → σ → Progress σ α κ
  exact : ∀ n source, (readExact n source).Exact items ending (items source) (ending source) n

namespace Progress.Exact

variable {itemsOf : σ → List α} {endingOf : σ → Ending κ} {items : List α} {ending : Ending κ}
variable {progress : Progress σ α κ}

/-- A read that the next chunk fills. -/
theorem filled {chunk : List α} {n : Nat} {left : σ} (hle : n ≤ chunk.length)
    (hleft : itemsOf left = chunk.drop n ++ items) (hending : endingOf left = ending) :
    Exact itemsOf endingOf (chunk ++ items) ending n ⟨chunk.take n, left, .ok ()⟩ := by
  refine ⟨(List.take_append_of_le_length hle).symm, ?_, hending, ?_⟩
  · rw [List.drop_append_of_le_length hle]
    exact hleft
  · have hlength : n ≤ (chunk ++ items).length := by
      rw [List.length_append]
      omega
    exact (if_pos hlength).symm

/-- A read of nothing. -/
theorem zero {left : σ} (hleft : itemsOf left = items) (hending : endingOf left = ending) :
    Exact itemsOf endingOf items ending 0 ⟨[], left, .ok ()⟩ := by
  have hnothing : 0 ≤ ([] : List α).length := Nat.le_refl 0
  exact filled hnothing hleft hending

theorem stopped {n : Nat} {left : σ} (hleft : itemsOf left = []) (hending : endingOf left = ending)
    (hmissing : 0 < n) :
    Exact itemsOf endingOf [] ending n ⟨[], left, .error ending.error⟩ := by
  refine ⟨List.take_nil.symm, ?_, hending, ?_⟩
  · rw [List.drop_nil]
    exact hleft
  · exact (if_neg (Nat.not_le.mpr hmissing)).symm

/-- A read that got a chunk and is not done goes on with the rest of the stream. -/
theorem after {taken : List α} {n : Nat} (hle : taken.length ≤ n)
    (hexact : Exact itemsOf endingOf items ending (n - taken.length) progress) :
    Exact itemsOf endingOf (taken ++ items) ending n (progress.after taken) := by
  constructor
  · rw [List.take_append, List.take_of_length_le hle, ← hexact.consumed_eq]
    rfl
  · rw [List.drop_append, List.drop_of_length_le hle, List.nil_append]
    exact hexact.items_left
  · exact hexact.ending_left
  · have hiff : n - taken.length ≤ items.length ↔ n ≤ (taken ++ items).length := by
      rw [List.length_append]
      omega
    change progress.result = _
    simp only [hexact.result_eq, hiff]

end Progress.Exact

/-! ## Chunks -/

namespace Chunk

def items (chunk : Chunk α) : List α := chunk.first :: chunk.rest

/-- What is left of a chunk, which is no chunk when nothing is. -/
def ofItems : List α → List (Chunk α)
  | [] => []
  | first :: rest => [⟨first, rest⟩]

@[simp]
theorem flatMap_items_ofItems (left : List α) : (ofItems left).flatMap items = left := by
  cases left with
  | nil => rfl
  | cons first rest => exact List.append_nil _

end Chunk

/-! ## A blocking source -/

inductive Delivery (α : Type u) where
  | data (chunk : Chunk α)
  /-- The call is interrupted and made again. -/
  | interrupted

def Delivery.items : Delivery α → List α
  | .data chunk => chunk.items
  | .interrupted => []

structure BlockingSource (α : Type u) (κ : Type v) where
  deliveries : List (Delivery α)
  ending : Ending κ

namespace BlockingSource

def items (source : BlockingSource α κ) : List α := source.deliveries.flatMap Delivery.items

/-- `std::io::Read::read_exact`: read until the buffer is full. -/
def fill (ending : Ending κ) : Nat → List (Delivery α) → Progress (BlockingSource α κ) α κ
  | 0, deliveries => ⟨[], ⟨deliveries, ending⟩, .ok ()⟩
  | _ + 1, [] => ⟨[], ⟨[], ending⟩, .error ending.error⟩
  | room + 1, .interrupted :: deliveries => fill ending (room + 1) deliveries
  | room + 1, .data chunk :: deliveries =>
      if room + 1 ≤ chunk.items.length then
        ⟨chunk.items.take (room + 1),
          ⟨(Chunk.ofItems (chunk.items.drop (room + 1))).map .data ++ deliveries, ending⟩, .ok ()⟩
      else (fill ending (room + 1 - chunk.items.length) deliveries).after chunk.items

theorem fill_exact (ending : Ending κ) (n : Nat) (deliveries : List (Delivery α)) :
    (fill ending n deliveries).Exact items BlockingSource.ending
      (deliveries.flatMap Delivery.items) ending n := by
  induction deliveries generalizing n with
  | nil =>
      cases n with
      | zero => exact .zero rfl rfl
      | succ room => exact .stopped rfl rfl (Nat.succ_pos room)
  | cons delivery deliveries ih =>
      cases n with
      | zero => exact .zero rfl rfl
      | succ room =>
          cases delivery with
          | interrupted => exact ih (room + 1)
          | data chunk =>
              rw [List.flatMap_cons, Delivery.items]
              unfold fill
              split
              next hfull =>
                refine .filled hfull ?_ rfl
                rw [items, List.flatMap_append, List.flatMap_map]
                exact congrArg (· ++ _) (Chunk.flatMap_items_ofItems _)
              next hshort => exact .after (Nat.le_of_not_le hshort) (ih _)

def reader : ExactReader (BlockingSource α κ) α κ where
  items := items
  ending := BlockingSource.ending
  readExact n source := fill source.ending n source.deliveries
  exact n source := fill_exact source.ending n source.deliveries

end BlockingSource

/-! ## An asynchronous source -/

/-- The chunks that are ready at each poll. -/
structure AsyncSource (α : Type u) (κ : Type v) where
  bursts : List (List (Chunk α))
  ending : Ending κ

namespace AsyncSource

def items (source : AsyncSource α κ) : List α :=
  source.bursts.flatMap fun burst => burst.flatMap Chunk.items

/-- What a poll returns, with the items it took. -/
inductive Poll (α : Type u) where
  | ready (consumed : List α) (left : List (Chunk α))
  | pending (consumed : List α) (room : Nat)

def Poll.after (taken : List α) : Poll α → Poll α
  | .ready consumed left => .ready (taken ++ consumed) left
  | .pending consumed room => .pending (taken ++ consumed) room

/-- One poll of `ReadExact`: read until the buffer is full or nothing is ready. -/
def poll : Nat → List (Chunk α) → Poll α
  | 0, burst => .ready [] burst
  | room + 1, [] => .pending [] (room + 1)
  | room + 1, chunk :: burst =>
      if room + 1 ≤ chunk.items.length then
        .ready (chunk.items.take (room + 1))
          (Chunk.ofItems (chunk.items.drop (room + 1)) ++ burst)
      else (poll (room + 1 - chunk.items.length) burst).after chunk.items

/-- The future is polled again for every burst; behind the last one the stream stops. -/
def drive (ending : Ending κ) : List (List (Chunk α)) → Nat → Progress (AsyncSource α κ) α κ
  | [], 0 => ⟨[], ⟨[], ending⟩, .ok ()⟩
  | [], _ + 1 => ⟨[], ⟨[], ending⟩, .error ending.error⟩
  | burst :: bursts, room =>
      match poll room burst with
      | .ready consumed left => ⟨consumed, ⟨left :: bursts, ending⟩, .ok ()⟩
      | .pending consumed room => (drive ending bursts room).after consumed

/-- A poll that is ready has the next items of the burst; one that is pending has them all. -/
theorem poll_cases (n : Nat) (burst : List (Chunk α)) :
    (∃ left, poll n burst = .ready ((burst.flatMap Chunk.items).take n) left ∧
      n ≤ (burst.flatMap Chunk.items).length ∧
      left.flatMap Chunk.items = (burst.flatMap Chunk.items).drop n) ∨
    poll n burst = .pending (burst.flatMap Chunk.items)
        (n - (burst.flatMap Chunk.items).length) ∧
      (burst.flatMap Chunk.items).length < n := by
  induction burst generalizing n with
  | nil =>
      cases n with
      | zero => exact .inl ⟨[], rfl, Nat.le_refl 0, rfl⟩
      | succ room => exact .inr ⟨rfl, Nat.succ_pos room⟩
  | cons chunk burst ih =>
      cases n with
      | zero => exact .inl ⟨chunk :: burst, rfl, Nat.zero_le _, rfl⟩
      | succ room =>
          rw [List.flatMap_cons]
          unfold poll
          split
          next hfull =>
            refine .inl ⟨Chunk.ofItems (chunk.items.drop (room + 1)) ++ burst, ?_, ?_, ?_⟩
            · rw [List.take_append_of_le_length hfull]
            · rw [List.length_append]
              omega
            · rw [List.flatMap_append, Chunk.flatMap_items_ofItems,
                List.drop_append_of_le_length hfull]
          next hshort =>
            have hle := Nat.le_of_not_le hshort
            rcases ih (room + 1 - chunk.items.length) with ⟨left, hready, hlength, hleft⟩ |
              ⟨hpending, hlength⟩
            · refine .inl ⟨left, ?_, ?_, ?_⟩
              · rw [hready, Poll.after, List.take_append, List.take_of_length_le hle]
              · rw [List.length_append]
                omega
              · rw [hleft, List.drop_append, List.drop_of_length_le hle, List.nil_append]
            · refine .inr ⟨?_, ?_⟩
              · rw [hpending, Poll.after, List.length_append, Nat.sub_sub]
              · rw [List.length_append]
                omega

theorem drive_exact (ending : Ending κ) (n : Nat) (bursts : List (List (Chunk α))) :
    (drive ending bursts n).Exact items AsyncSource.ending
      (bursts.flatMap fun burst => burst.flatMap Chunk.items) ending n := by
  induction bursts generalizing n with
  | nil =>
      cases n with
      | zero => exact .zero rfl rfl
      | succ room => exact .stopped rfl rfl (Nat.succ_pos room)
  | cons burst bursts ih =>
      rw [List.flatMap_cons]
      unfold drive
      rcases poll_cases n burst with ⟨left, hready, hlength, hleft⟩ | ⟨hpending, hlength⟩
      · rw [hready]
        refine .filled hlength ?_ rfl
        rw [items, List.flatMap_cons, hleft]
      · rw [hpending]
        exact .after (Nat.le_of_lt hlength) (ih _)

def reader : ExactReader (AsyncSource α κ) α κ where
  items := items
  ending := AsyncSource.ending
  readExact n source := drive source.ending source.bursts n
  exact n source := drive_exact source.ending n source.bursts

end AsyncSource

end Wire
