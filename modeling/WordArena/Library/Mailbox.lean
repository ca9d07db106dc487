import Mathlib.Data.List.Basic

/-! Bounded mailboxes of several senders and one receiver. What was put in comes out in the same
order; a mailbox ends when it is empty and has no senders, and is closed without its receiver. -/
namespace Mailbox

universe u

/-- A mailbox never holds more than its capacity. -/
structure Box (α : Type u) (capacity : Nat) where
  queue : List α
  bounded : queue.length ≤ capacity
  senders : Nat
  receiving : Bool

variable {α : Type u} {capacity : Nat} {box next : Box α capacity} {a : α}

def empty (α : Type u) (capacity senders : Nat) : Box α capacity :=
  ⟨[], Nat.zero_le capacity, senders, true⟩

inductive Sending (α : Type u) (capacity : Nat) where
  | closed
  | full
  | sent (box : Box α capacity)

/-- A sender waits while the mailbox is full. -/
def Box.send (box : Box α capacity) (a : α) : Sending α capacity :=
  if box.receiving then
    if hRoom : box.queue.length < capacity then
      .sent { box with queue := box.queue ++ [a], bounded := by simpa using Nat.succ_le_of_lt hRoom }
    else .full
  else .closed

inductive Receiving (α : Type u) (capacity : Nat) where
  | received (a : α) (box : Box α capacity)
  | ended
  | waiting

/-- The receiver waits while there is nothing but may be something later. -/
def Box.receive (box : Box α capacity) : Receiving α capacity :=
  match hQueue : box.queue with
  | a :: rest =>
      .received a { box with
        queue := rest
        bounded := by
          have hBound := box.bounded
          rw [hQueue, List.length_cons] at hBound
          omega }
  | [] => if box.senders = 0 then .ended else .waiting

def Box.retain (box : Box α capacity) : Box α capacity := { box with senders := box.senders + 1 }

def Box.release (box : Box α capacity) : Box α capacity := { box with senders := box.senders - 1 }

/-- The receiver leaves, and what is in the mailbox is lost. -/
def Box.close (box : Box α capacity) : Box α capacity :=
  ⟨[], Nat.zero_le capacity, box.senders, false⟩

@[simp] theorem retain_queue : box.retain.queue = box.queue := rfl
@[simp] theorem retain_senders : box.retain.senders = box.senders + 1 := rfl
@[simp] theorem retain_receiving : box.retain.receiving = box.receiving := rfl
@[simp] theorem release_queue : box.release.queue = box.queue := rfl
@[simp] theorem release_senders : box.release.senders = box.senders - 1 := rfl
@[simp] theorem release_receiving : box.release.receiving = box.receiving := rfl
@[simp] theorem close_queue : box.close.queue = [] := rfl
@[simp] theorem close_senders : box.close.senders = box.senders := rfl
@[simp] theorem close_receiving : box.close.receiving = false := rfl

theorem send_sent (h : box.send a = .sent next) : box.receiving = true ∧
    next.queue = box.queue ++ [a] ∧ next.senders = box.senders ∧ next.receiving = true := by
  rw [Box.send] at h
  split_ifs at h with hReceiving
  cases h
  exact ⟨hReceiving, rfl, rfl, hReceiving⟩

theorem send_closed : box.send a = .closed ↔ box.receiving = false := by
  rw [Box.send]
  split_ifs with hReceiving <;> simp [hReceiving]

theorem receive_received (h : box.receive = .received a next) : box.queue = a :: next.queue ∧
    next.senders = box.senders ∧ next.receiving = box.receiving := by
  rw [Box.receive] at h
  split at h
  · next hQueue =>
      cases h
      exact ⟨hQueue, rfl, rfl⟩
  · split_ifs at h

theorem receive_ended (h : box.receive = .ended) : box.queue = [] ∧ box.senders = 0 := by
  rw [Box.receive] at h
  split at h
  · cases h
  · next hQueue =>
      split_ifs at h with hSenders
      exact ⟨hQueue, hSenders⟩

end Mailbox
