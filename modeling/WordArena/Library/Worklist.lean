import Mathlib.Algebra.GroupWithZero.Nat
import Mathlib.Algebra.Order.BigOperators.Group.List
import Mathlib.Algebra.Order.Group.Nat
import Mathlib.Logic.Relation
import WordArena.Library.Fallible

/-! Worklists over finite trees. A round takes an element off a stack and puts smaller ones on
top; the loop then visits everything below the stack, one element after another. -/
namespace Worklist

open Fallible

universe u v w

variable {α : Type u} {ε : Type v} {σ : Type w}

section Descendants

variable (size : α → Nat) (children : α → List α)

/-- What is below an element weighs less than it does. -/
def Shrinks : Prop := ∀ a, ((children a).map size).sum < size a

variable {size children}

theorem Shrinks.lt (h : Shrinks size children) {a b : α} (hMem : b ∈ children a) :
    size b < size a :=
  Nat.lt_of_le_of_lt (List.le_sum_of_mem (List.mem_map_of_mem hMem)) (h a)

/-- An element and everything below it, each before what is below it. -/
def descendants (hShrinks : Shrinks size children) (a : α) : List α :=
  a :: (children a).attach.flatMap fun b => descendants hShrinks b.1
termination_by size a
decreasing_by exact hShrinks.lt b.2

theorem descendants_eq (hShrinks : Shrinks size children) (a : α) :
    descendants hShrinks a = a :: (children a).flatMap (descendants hShrinks) := by
  rw [descendants]
  simp

end Descendants

section Loop

variable {size : α → Nat} {children : α → List α} {round : α → σ → Except ε (List α × σ)}

/-- A round that goes on puts the children of its element on the stack. -/
def Pushes (children : α → List α) (round : α → σ → Except ε (List α × σ)) : Prop :=
  ∀ a s next s', round a s = .ok (next, s') → next = children a

/-- Rounds until the stack is empty or one of them stops. -/
def loop (round : α → σ → Except ε (List α × σ)) (hShrinks : Shrinks size children)
    (hPushes : Pushes children round) : List α → σ → Except ε σ
  | [], s => .ok s
  | a :: pending, s =>
      match _hRound : round a s with
      | .error e => .error e
      | .ok (next, s') => loop round hShrinks hPushes (next ++ pending) s'
termination_by pending => (pending.map size).sum
decreasing_by
  have hNext := hPushes a s next s' _hRound
  have hLess := hShrinks a
  simp only [hNext, List.map_append, List.sum_append, List.map_cons, List.sum_cons]
  omega

/-- The loop visits the stack and everything below it. -/
theorem loop_eq_foldlM (hShrinks : Shrinks size children) (hPushes : Pushes children round)
    (pending : List α) (s : σ) : loop round hShrinks hPushes pending s =
      (pending.flatMap (descendants hShrinks)).foldlM (fun s a => (round a s).map Prod.snd) s := by
  fun_induction loop round hShrinks hPushes pending s with
  | case1 s => rfl
  | case2 a pending s e hRound =>
      rw [List.flatMap_cons, descendants_eq, List.cons_append, List.foldlM_cons, hRound]
      rfl
  | case3 a pending s next s' hRound ih =>
      rw [ih, hPushes a s next s' hRound, List.flatMap_append, List.flatMap_cons, descendants_eq,
        List.cons_append, List.foldlM_cons, hRound]
      rfl

/-- A loop that only keeps the states of its rounds. -/
theorem map_snd_eq_ok {x : Except ε (List α × σ)} {s : σ} :
    x.map Prod.snd = .ok s ↔ ∃ next, x = .ok (next, s) := by
  cases x <;> simp [Except.map, Prod.ext_iff]

end Loop

section Totals

variable {γ : Type w} {f : σ → γ → Except ε σ} {add : σ → γ → σ}

/-- A total that grows was within its bounds before it is within them. -/
theorem within_of_foldl (within possible : σ → Prop)
    (hPossible : ∀ s x, possible s → possible (add s x))
    (hGrows : ∀ s x, possible s → within (add s x) → within s) {xs : List γ} {s : σ}
    (hStart : possible s) (hWithin : within (xs.foldl add s)) : within s := by
  induction xs generalizing s with
  | nil => exact hWithin
  | cons x xs ih => exact hGrows s x hStart (ih (hPossible s x hStart) hWithin)

/-- A loop that stops when its total, which only grows, leaves its bounds. -/
theorem foldlM_within (ok : γ → Prop) (within possible : σ → Prop)
    (hStep : ∀ s x t, within s → (f s x = .ok t ↔ ok x ∧ within (add s x) ∧ t = add s x))
    (hPossible : ∀ s x, possible s → possible (add s x))
    (hGrows : ∀ s x, possible s → within (add s x) → within s) {xs : List γ} {s t : σ}
    (hStart : possible s) (hWithin : within s) : xs.foldlM f s = .ok t ↔
      (∀ x ∈ xs, ok x) ∧ within (xs.foldl add s) ∧ t = xs.foldl add s := by
  induction xs generalizing s with
  | nil =>
      rw [List.foldlM_nil, pure_eq_ok]
      simp [hWithin, eq_comm]
  | cons x xs ih =>
      have hNextStart := hPossible s x hStart
      rw [List.foldlM_cons, bind_eq_ok, List.forall_mem_cons, List.foldl_cons]
      constructor
      · intro ⟨next, hFirst, hRest⟩
        obtain ⟨hOk, hNext, rfl⟩ := (hStep s x next hWithin).mp hFirst
        obtain ⟨hOthers, hEnd⟩ := (ih hNextStart hNext).mp hRest
        exact ⟨⟨hOk, hOthers⟩, hEnd⟩
      · intro ⟨⟨hOk, hOthers⟩, hEnd⟩
        have hNext := within_of_foldl within possible hPossible hGrows hNextStart hEnd.1
        exact ⟨_, (hStep s x _ hWithin).mpr ⟨hOk, hNext, rfl⟩,
          (ih hNextStart hNext).mpr ⟨hOthers, hEnd⟩⟩

end Totals

end Worklist
