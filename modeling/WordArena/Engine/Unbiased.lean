import WordArena.Library.Uniform
import WordArena.Engine.Stream

/-! The bag's shuffle favours no ordering. Bounded draws reject the values that would favour a
residue, and a shuffle is determined by its draws. -/
namespace WordArena.Engine.DeterministicRng

open Uniform

section

variable {upper : UInt64}

/-- Values that a bounded draw accepts for a residue. -/
def Accepted (upper residue value : UInt64) : Prop :=
  (0 - upper) % upper ≤ value ∧ value % upper = residue

/-- A bounded draw returns the residue of an accepted word, which is below the bound. -/
theorem Sampled.lt {rng : DeterministicRng} {result : UInt64 × DeterministicRng}
    (hUpper : 0 < upper) (h : Sampled ((0 - upper) % upper) upper rng result) :
    result.1 < upper ∧ ∃ value, Accepted upper result.1 value := by
  induction h with
  | accept large => exact ⟨UInt64.mod_lt _ hUpper, _, large, rfl⟩
  | retry _ _ ih => exact ih

end

/-- A shuffle orders its values by valid choices. -/
theorem Shuffled.order {α : Type} {rng : DeterministicRng} {values : List α}
    {result : List α × DeterministicRng} (hLength : values.length < 2 ^ 64)
    (h : Shuffled rng values result) :
    ∃ choices : Choices (values.length - 1), result.1 = choices.order values := by
  have hDraws : ∀ (source : DeterministicRng) (upper : Nat) (drawn : Nat × DeterministicRng),
      0 < upper → upper ≤ 2 ^ 64 - 1 → (∃ selected, drawn.1 = UInt64.toNat selected ∧
        Sampled ((0 - UInt64.ofNat upper) % UInt64.ofNat upper) (UInt64.ofNat upper) source
          (selected, drawn.2)) → drawn.1 < upper := by
    rintro source upper drawn hPos hBound ⟨selected, hSelected, hSampled⟩
    have hNat : (UInt64.ofNat upper).toNat = upper :=
      UInt64.toNat_ofNat_of_lt' (by rw [UInt64.size]; omega)
    have hUpper : 0 < UInt64.ofNat upper := by
      rw [UInt64.lt_iff_toNat_lt, hNat]
      exact hPos
    have hLess := UInt64.lt_iff_toNat_lt.mp (hSampled.lt hUpper).1
    rw [hNat] at hLess
    rw [hSelected]
    exact hLess
  obtain ⟨choice, hChoice, hResult⟩ := exists_choice_of_descends hDraws h (by omega)
  obtain ⟨choices, hChoices⟩ := exists_choices (values.length - 1) hChoice values
  exact ⟨choices, hResult.trans hChoices.symm⟩

end WordArena.Engine.DeterministicRng
