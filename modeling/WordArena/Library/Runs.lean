import Mathlib.Data.List.Chain
import Mathlib.Data.Set.Basic

/-! Maximal runs along a relation that has at most one next and one previous
element. A run stays in a set and cannot be prolonged at either end, so it is
determined by any one of its elements. -/
namespace Runs

universe u

variable {α : Type u} {next : α → α → Prop} {S : Set α}

/-- A run that stays in the set and ends only where the set does. -/
structure Maximal (next : α → α → Prop) (S : Set α) (run : List α) : Prop where
  chain : run.IsChain next
  mem : ∀ a ∈ run, a ∈ S
  first : ∀ a ∈ run.head?, ∀ b ∈ S, ¬ next b a
  last : ∀ a ∈ run.getLast?, ∀ b ∈ S, ¬ next a b

/-- Every element has at most one next and at most one previous element. -/
structure Linear (next : α → α → Prop) : Prop where
  right : ∀ {a b c}, next a b → next a c → b = c
  left : ∀ {a b c}, next b a → next c a → b = c

theorem Linear.flip (h : Linear next) : Linear fun a b => next b a := ⟨h.left, h.right⟩

theorem Maximal.reverse {run : List α} (h : Maximal next S run) :
    Maximal (fun a b => next b a) S run.reverse where
  chain := List.isChain_reverse.mpr h.chain
  mem a ha := h.mem a (List.mem_reverse.mp ha)
  first a ha := h.last a (by rwa [List.head?_reverse] at ha)
  last a ha := h.first a (by rwa [List.getLast?_reverse] at ha)

/-- What follows an element is determined by it. -/
theorem suffix_unique (hLinear : Linear next) {a : α} {xs ys : List α}
    (hx : (a :: xs).IsChain next) (hy : (a :: ys).IsChain next) (mx : ∀ b ∈ xs, b ∈ S)
    (my : ∀ b ∈ ys, b ∈ S) (lx : ∀ c ∈ (a :: xs).getLast?, ∀ b ∈ S, ¬ next c b)
    (ly : ∀ c ∈ (a :: ys).getLast?, ∀ b ∈ S, ¬ next c b) : xs = ys := by
  induction xs generalizing a ys with
  | nil =>
      cases ys with
      | nil => rfl
      | cons b ys =>
          have hNext := (List.isChain_cons_cons.mp hy).1
          exact absurd hNext (lx a rfl b (my b List.mem_cons_self))
  | cons b xs ih =>
      have hNext := (List.isChain_cons_cons.mp hx).1
      cases ys with
      | nil => exact absurd hNext (ly a rfl b (mx b List.mem_cons_self))
      | cons c ys =>
          obtain rfl := hLinear.right hNext (List.isChain_cons_cons.mp hy).1
          rw [List.getLast?_cons_cons] at lx ly
          rw [ih (List.isChain_cons_cons.mp hx).2 (List.isChain_cons_cons.mp hy).2
            (fun d hd => mx d (List.mem_cons_of_mem _ hd))
            (fun d hd => my d (List.mem_cons_of_mem _ hd)) lx ly]

theorem Maximal.suffix {a : α} {before after : List α}
    (h : Maximal next S (before ++ a :: after)) :
    (a :: after).IsChain next ∧ (∀ b ∈ after, b ∈ S) ∧
      ∀ c ∈ (a :: after).getLast?, ∀ b ∈ S, ¬ next c b := by
  refine ⟨(List.isChain_append.mp h.chain).2.1, fun b hb => ?_, fun c hc => ?_⟩
  · exact h.mem b (List.mem_append_right _ (List.mem_cons_of_mem _ hb))
  · refine h.last c ?_
    rw [List.getLast?_append, Option.mem_def.mp hc]
    rfl

/-- Two maximal runs with a common element are the same run. -/
theorem Maximal.unique (hLinear : Linear next) {xs ys : List α} {a : α}
    (hx : Maximal next S xs) (hy : Maximal next S ys) (ax : a ∈ xs) (ay : a ∈ ys) : xs = ys := by
  obtain ⟨before, after, rfl⟩ := List.append_of_mem ax
  obtain ⟨before', after', rfl⟩ := List.append_of_mem ay
  have hAfter : after = after' := by
    obtain ⟨cx, mx, lx⟩ := hx.suffix
    obtain ⟨cy, my, ly⟩ := hy.suffix
    exact suffix_unique hLinear cx cy mx my lx ly
  have hBefore : before.reverse = before'.reverse := by
    have rx := hx.reverse
    have ry := hy.reverse
    rw [List.reverse_append, List.reverse_cons, List.append_assoc, List.singleton_append] at rx ry
    obtain ⟨cx, mx, lx⟩ := rx.suffix
    obtain ⟨cy, my, ly⟩ := ry.suffix
    exact suffix_unique hLinear.flip cx cy mx my lx ly
  rw [hAfter, List.reverse_inj.mp hBefore]

/-- A maximal run contains the next element whenever the set does. -/
theorem Maximal.next_mem (hLinear : Linear next) {run : List α} {a b : α}
    (h : Maximal next S run) (ha : a ∈ run) (hNext : next a b) (hb : b ∈ S) : b ∈ run := by
  obtain ⟨before, after, rfl⟩ := List.append_of_mem ha
  obtain ⟨hChain, -, hLast⟩ := h.suffix
  cases after with
  | nil => exact absurd hNext (hLast a rfl b hb)
  | cons c after =>
      rw [hLinear.right hNext (List.isChain_cons_cons.mp hChain).1]
      exact List.mem_append_right _ (List.mem_cons_of_mem _ List.mem_cons_self)

theorem Maximal.previous_mem (hLinear : Linear next) {run : List α} {a b : α}
    (h : Maximal next S run) (ha : a ∈ run) (hNext : next b a) (hb : b ∈ S) : b ∈ run :=
  List.mem_reverse.mp
    (h.reverse.next_mem hLinear.flip (List.mem_reverse.mpr ha) hNext hb)

/-- A run that avoids the new elements of a larger set was maximal before. -/
theorem Maximal.restrict {T : Set α} {run : List α} (h : Maximal next S run) (hSub : T ⊆ S)
    (hOld : ∀ a ∈ run, a ∈ T) : Maximal next T run :=
  ⟨h.chain, hOld, fun a ha b hb => h.first a ha b (hSub hb),
    fun a ha b hb => h.last a ha b (hSub hb)⟩

/-- In a run of at least two elements every element has a neighbour. -/
theorem exists_neighbor {run : List α} {a : α} (hChain : run.IsChain next) (hTwo : 2 ≤ run.length)
    (ha : a ∈ run) : ∃ b ∈ run, next a b ∨ next b a := by
  induction run with
  | nil => cases ha
  | cons x rest ih =>
      cases rest with
      | nil => simp at hTwo
      | cons y rest =>
          obtain ⟨hNext, hRest⟩ := List.isChain_cons_cons.mp hChain
          rcases List.mem_cons.mp ha with rfl | ha
          · exact ⟨y, List.mem_cons_of_mem _ List.mem_cons_self, .inl hNext⟩
          · rcases List.mem_cons.mp ha with rfl | hTail
            · exact ⟨x, List.mem_cons_self, .inr hNext⟩
            · have hLength : 2 ≤ (y :: rest).length := by
                have := List.length_pos_of_mem hTail
                rw [List.length_cons]
                omega
              obtain ⟨b, hb, hEither⟩ := ih hRest hLength ha
              exact ⟨b, List.mem_cons_of_mem _ hb, hEither⟩

theorem two_le_length {run : List α} {a b : α} (ha : a ∈ run) (hb : b ∈ run) (hNe : a ≠ b) :
    2 ≤ run.length := by
  match run, ha, hb with
  | [x], ha, hb => exact absurd ((List.mem_singleton.mp ha).trans (List.mem_singleton.mp hb).symm) hNe
  | x :: y :: rest, _, _ => exact Nat.le_add_left 2 rest.length

end Runs
