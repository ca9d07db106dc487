import Mathlib.Data.List.Basic

/-! Broadcast channels with a bounded buffer. The channel keeps the last values
that were sent. A receiver is the position of the value it waits for. When that
value is gone, the receiver is told how many it has missed and goes on with the
oldest value that is left. -/

universe u

structure Broadcast (α : Type u) (capacity : Nat) where
  dropped : Nat
  kept : List α
  bounded : kept.length ≤ capacity

namespace Broadcast

variable {α : Type u} {capacity : Nat}

protected def empty : Broadcast α capacity := ⟨0, [], Nat.zero_le _⟩

/-- Where a new receiver starts. -/
def tail (channel : Broadcast α capacity) : Nat := channel.dropped + channel.kept.length

/-- Append a value and drop the oldest one when there is no room for it. -/
def send (channel : Broadcast α capacity) (a : α) : Broadcast α capacity where
  dropped := channel.dropped + (channel.kept.length + 1 - capacity)
  kept := (channel.kept ++ [a]).drop (channel.kept.length + 1 - capacity)
  bounded := by
    rw [List.length_drop, List.length_append, List.length_singleton]
    omega

/-- What a receiver gets. -/
inductive Received (α : Type u) where
  | value (a : α)
  | lagged (missed : Nat)
  | pending

/-- Receive at a position, with the position that follows. -/
def recv (channel : Broadcast α capacity) (next : Nat) : Received α × Nat :=
  if next < channel.dropped then (.lagged (channel.dropped - next), channel.dropped)
  else match channel.kept[next - channel.dropped]? with
    | some a => (.value a, next + 1)
    | none => (.pending, next)

/-- A channel that has been sent a list of values. -/
structure Records (channel : Broadcast α capacity) (history : List α) : Prop where
  dropped_le : channel.dropped ≤ history.length
  kept : channel.kept = history.drop channel.dropped

theorem records_empty : (Broadcast.empty : Broadcast α capacity).Records [] :=
  ⟨Nat.le_refl _, rfl⟩

variable {channel : Broadcast α capacity} {history : List α} {next after : Nat}

theorem Records.tail_eq (h : channel.Records history) : channel.tail = history.length := by
  have hDropped := h.dropped_le
  rw [tail, h.kept, List.length_drop]
  omega

theorem Records.send (h : channel.Records history) (a : α) :
    (channel.send a).Records (history ++ [a]) := by
  have hDropped := h.dropped_le
  have hTail : channel.dropped + channel.kept.length = history.length := h.tail_eq
  constructor
  · change channel.dropped + (channel.kept.length + 1 - capacity) ≤ (history ++ [a]).length
    rw [List.length_append, List.length_singleton]
    omega
  · change (channel.kept ++ [a]).drop (channel.kept.length + 1 - capacity) =
      (history ++ [a]).drop (channel.dropped + (channel.kept.length + 1 - capacity))
    rw [← List.drop_drop, List.drop_append_of_le_length hDropped, ← h.kept]

/-- A received value is the one at its position. -/
theorem Records.value {a : α} (h : channel.Records history)
    (hRecv : channel.recv next = (.value a, after)) :
    history[next]? = some a ∧ after = next + 1 := by
  unfold recv at hRecv
  split at hRecv
  · cases hRecv
  · rename_i hNext
    split at hRecv
    · rename_i b hSome
      cases hRecv
      rw [h.kept, List.getElem?_drop, Nat.add_sub_cancel' (Nat.not_lt.mp hNext)] at hSome
      exact ⟨hSome, rfl⟩
    · cases hRecv

/-- A receiver that lags jumps ahead, not beyond what was sent. -/
theorem Records.lagged {missed : Nat} (h : channel.Records history)
    (hRecv : channel.recv next = (.lagged missed, after)) :
    next < after ∧ after ≤ history.length := by
  unfold recv at hRecv
  split at hRecv
  · rename_i hNext
    cases hRecv
    exact ⟨hNext, h.dropped_le⟩
  · split at hRecv <;> cases hRecv

end Broadcast
