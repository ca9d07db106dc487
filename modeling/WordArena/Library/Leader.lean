import Mathlib.Data.Set.Insert
import Mathlib.Order.Basic

/-! Searching for a strict maximum in one pass. The pass keeps the best element
so far and a flag that says whether another element is level with it. -/

universe u v

variable {α : Type u} {β : Type v} [LinearOrder β] {value : α → β}

/-- An element of the set whose value exceeds every other value. -/
def StrictMax (value : α → β) (seen : Set α) (winner : α) : Prop :=
  winner ∈ seen ∧ ∀ other ∈ seen, other ≠ winner → value other < value winner

/-- What the pass knows about the elements seen so far. -/
inductive Leader (value : α → β) (seen : Set α) : Option α → Bool → Prop where
  | empty (h : seen = ∅) : Leader value seen none false
  | best {best : α} {tied : Bool} (mem : best ∈ seen) (top : ∀ a ∈ seen, value a ≤ value best)
      (tie : tied = true ↔ ∃ a ∈ seen, a ≠ best ∧ value a = value best) :
      Leader value seen (some best) tied

namespace Leader

variable {seen : Set α} {best a : α} {tied : Bool}

/-- The first element leads alone. -/
theorem first (h : Leader value seen none tied) : Leader value (insert a seen) (some a) false := by
  cases h with
  | empty hEmpty =>
      subst hEmpty
      refine .best (Set.mem_insert a ∅) ?_ ?_
      · intro b hb
        rw [insert_empty_eq, Set.mem_singleton_iff] at hb
        rw [hb]
      · simp

/-- A larger element leads alone. -/
theorem ahead (h : Leader value seen (some best) tied) (hValue : value best < value a) :
    Leader value (insert a seen) (some a) false := by
  cases h with
  | best mem top tie =>
      refine .best (Set.mem_insert a seen) ?_ ?_
      · rintro b (rfl | hb)
        · exact le_refl _
        · exact (top b hb).trans hValue.le
      · simp only [Bool.false_eq_true, false_iff, not_exists, not_and]
        rintro b (rfl | hb) hNe hEq
        · exact hNe rfl
        · exact absurd (hEq ▸ top b hb) hValue.not_ge

/-- A level element ties with the leader. -/
theorem level (h : Leader value seen (some best) tied) (hNew : a ∉ seen)
    (hValue : value a = value best) : Leader value (insert a seen) (some best) true := by
  cases h with
  | best mem top tie =>
      refine .best (Set.mem_insert_of_mem a mem) ?_ ?_
      · rintro b (rfl | hb)
        · exact hValue.le
        · exact top b hb
      · have hNe : a ≠ best := fun h => hNew (h ▸ mem)
        exact iff_of_true rfl ⟨a, Set.mem_insert a seen, hNe, hValue⟩

/-- A smaller element changes nothing. -/
theorem behind (h : Leader value seen (some best) tied) (hValue : value a < value best) :
    Leader value (insert a seen) (some best) tied := by
  cases h with
  | best mem top tie =>
      refine .best (Set.mem_insert_of_mem a mem) ?_ (tie.trans ⟨?_, ?_⟩)
      · rintro b (rfl | hb)
        · exact hValue.le
        · exact top b hb
      · rintro ⟨b, hb, hRest⟩
        exact ⟨b, Set.mem_insert_of_mem a hb, hRest⟩
      · rintro ⟨b, rfl | hb, hNe, hEq⟩
        · exact absurd hEq hValue.ne
        · exact ⟨b, hb, hNe, hEq⟩

/-- A leader that is not tied is the strict maximum, and only then is there one. -/
theorem winner_iff {found : Option α} {winner : α} (h : Leader value seen found tied) :
    (if tied then none else found) = some winner ↔ StrictMax value seen winner := by
  cases h with
  | empty hEmpty => simp [StrictMax, hEmpty]
  | @best best _ mem top tie =>
      cases tied with
      | true =>
          obtain ⟨b, hb, hNe, hEq⟩ := tie.mp rfl
          simp only [if_true, reduceCtorEq, false_iff]
          rintro ⟨hWinner, hMax⟩
          by_cases hBest : best = winner
          · subst hBest
            exact absurd hEq (hMax b hb hNe).ne
          · exact absurd (top winner hWinner) (hMax best mem hBest).not_ge
      | false =>
          have hAlone : ∀ b ∈ seen, b ≠ best → value b ≠ value best := by
            intro b hb hNe hEq
            exact Bool.false_ne_true (tie.mpr ⟨b, hb, hNe, hEq⟩)
          simp only [Bool.false_eq_true, if_false, Option.some.injEq]
          constructor
          · rintro rfl
            exact ⟨mem, fun b hb hNe => lt_of_le_of_ne (top b hb) (hAlone b hb hNe)⟩
          · rintro ⟨hWinner, hMax⟩
            by_contra hBest
            exact absurd (top winner hWinner) (hMax best mem hBest).not_ge

end Leader
