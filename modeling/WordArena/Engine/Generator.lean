import Mathlib.Data.Fintype.Prod
import Mathlib.Dynamics.PeriodicPts.Lemmas
import WordArena.Engine.Stream

/-! The transition of the generator loses nothing. It is linear over the bits of the state, and its
only state that is mapped to zero is zero itself, so every generator comes back to where it began. -/
namespace WordArena.Engine.DeterministicRng

section Linear

variable {a b : UInt64}

theorem rotateLeft_xor (a b : UInt64) (amount : Nat) :
    rotateLeft (a ^^^ b) amount = rotateLeft a amount ^^^ rotateLeft b amount := by
  apply UInt64.toBitVec_inj.mp
  apply BitVec.eq_of_getLsbD_eq
  intro i hi
  simp only [rotateLeft, UInt64.toBitVec_xor, BitVec.getLsbD_xor, BitVec.getLsbD_rotateLeft, hi]
  by_cases hLow : i < amount % 64 <;> simp [hLow]

theorem rotateLeft_inj (h : rotateLeft a 45 = rotateLeft b 45) : a = b := by
  have hZero : rotateLeft (a ^^^ b) 45 = 0 := by rw [rotateLeft_xor, h, UInt64.xor_self]
  exact UInt64.xor_eq_zero_iff.mp (eq_zero_of_rotateLeft hZero)

/-- The shifted word does not hide the word that it is added to. -/
theorem xor_shiftLeft_inj (h : a ^^^ a <<< 17 = b ^^^ b <<< 17) : a = b := by
  have hShift : a ^^^ b = (a ^^^ b) <<< 17 := by
    rw [UInt64.shiftLeft_xor, ← UInt64.xor_eq_zero_iff]
    calc a ^^^ b ^^^ (a <<< 17 ^^^ b <<< 17)
        = (a ^^^ a <<< 17) ^^^ (b ^^^ b <<< 17) := by
          simp only [UInt64.xor_assoc, UInt64.xor_comm, xor_left_comm]
      _ = 0 := by rw [h, UInt64.xor_self]
  exact UInt64.xor_eq_zero_iff.mp (eq_zero_of_shiftLeft hShift)

end Linear

section Transition

variable {rng : DeterministicRng}

/-- The state before a draw can be told from the state after it. -/
theorem advance_injective : Function.Injective advance := by
  intro a b h
  obtain ⟨a0, a1, a2, a3⟩ := a
  obtain ⟨b0, b1, b2, b3⟩ := b
  simp only [advance, mk.injEq] at h ⊢
  obtain ⟨h0, h1, h2, h3⟩ := h
  have hThird : a3 ^^^ a1 = b3 ^^^ b1 := rotateLeft_inj h3
  have hZeroth : a0 = b0 := by
    rw [hThird] at h0
    exact (UInt64.xor_left_inj _).mp h0
  have hFirst : a1 = b1 := by
    apply xor_shiftLeft_inj
    calc a1 ^^^ a1 <<< 17
        = (a1 ^^^ (a2 ^^^ a0)) ^^^ (a2 ^^^ a0 ^^^ a1 <<< 17) := by
          rw [UInt64.xor_assoc a1, xor_cancel]
      _ = (b1 ^^^ (b2 ^^^ b0)) ^^^ (b2 ^^^ b0 ^^^ b1 <<< 17) := by rw [h1, h2]
      _ = b1 ^^^ b1 <<< 17 := by rw [UInt64.xor_assoc b1, xor_cancel]
  subst hZeroth hFirst
  refine ⟨rfl, rfl, ?_, ?_⟩
  · exact (UInt64.xor_left_inj _).mp ((UInt64.xor_right_inj _).mp h1)
  · exact (UInt64.xor_left_inj _).mp hThird

theorem silent_advance_iff : Silent rng.advance ↔ Silent rng := by
  constructor
  · exact Silent.of_advance
  · intro h
    rw [Silent] at h
    subst h
    rfl

theorem silent_iterate_iff (n : Nat) : Silent (advance^[n] rng) ↔ Silent rng := by
  induction n generalizing rng with
  | zero => rfl
  | succ n ih => rw [Function.iterate_succ_apply, ih, silent_advance_iff]

instance : Finite DeterministicRng := by
  apply Finite.of_injective (fun rng => (rng.s0.toFin, rng.s1.toFin, rng.s2.toFin, rng.s3.toFin))
  intro a b h
  obtain ⟨a0, a1, a2, a3⟩ := a
  obtain ⟨b0, b1, b2, b3⟩ := b
  simp only [Prod.mk.injEq, UInt64.toFin_inj] at h
  rw [h.1, h.2.1, h.2.2.1, h.2.2.2]

/-- A generator returns to its first state, and from there does the same again. -/
theorem periodic (rng : DeterministicRng) :
    ∃ period, 0 < period ∧ ∀ n, advance^[n + period] rng = advance^[n] rng := by
  obtain ⟨period, hPositive, hReturns⟩ := advance_injective.mem_periodicPts rng
  refine ⟨period, hPositive, fun n => ?_⟩
  rw [Function.iterate_add_apply, hReturns]

/-- No generator of a game is ever silent, and each one runs in a cycle. -/
theorem never_degenerates (platform : Platform) :
    Function.Injective (fun rng => (nextU64 rng).2) ∧
    (∀ rng, Silent (nextU64 rng).2 ↔ Silent rng) ∧
    (∀ seed n, ¬ Silent ((fun rng => (nextU64 rng).2)^[n] (new platform seed))) ∧
    (∀ seed transition n,
      ¬ Silent ((fun rng => (nextU64 rng).2)^[n] (forExchange platform seed transition))) ∧
    ∀ rng, ∃ period, 0 < period ∧
      ∀ n, (fun rng => (nextU64 rng).2)^[n + period] rng = (fun rng => (nextU64 rng).2)^[n] rng := by
  refine ⟨advance_injective, fun rng => silent_advance_iff, fun seed n => ?_,
    fun seed transition n => ?_, periodic⟩
  · exact (silent_iterate_iff n).not.mpr (ofDigest_not_silent _)
  · exact (silent_iterate_iff n).not.mpr (ofDigest_not_silent _)

end Transition

end WordArena.Engine.DeterministicRng
