import Mathlib.Data.Fintype.Basic
import Mathlib.Logic.Function.Iterate
import Mathlib.Tactic.FinCases
import Mathlib.Tactic.IntervalCases
import WordArena.Engine.Random

/-! The rejection loop ends. Bounds of a shuffle are small, so a draw is only
refused when the output word is below `128`. Such outputs pin down the second
state word up to its high bits, and nine of them in a row force the all-zero
state, which no seed expands to. -/
namespace WordArena.Engine.DeterministicRng

theorem xor_cancel (a b : UInt64) : a ^^^ (a ^^^ b) = b := by
  rw [← UInt64.xor_assoc, UInt64.xor_self, UInt64.zero_xor]

theorem xor_left_comm (a b c : UInt64) : a ^^^ (b ^^^ c) = b ^^^ (a ^^^ c) := by
  rw [← UInt64.xor_assoc, UInt64.xor_comm a, UInt64.xor_assoc]

theorem eq_zero_of_xor {a b c : UInt64} (h : a ^^^ b = a ^^^ c ^^^ b) : c = 0 := by
  have hCancel := xor_cancel a c
  rw [UInt64.xor_left_inj] at h
  rw [← h, UInt64.xor_self] at hCancel
  exact hCancel.symm

/-! The second word satisfies a recurrence of its own. -/

/-- The fourth word in terms of four successive second words. -/
def third (a b c d : UInt64) : UInt64 := d ^^^ b <<< 17 ^^^ a ^^^ c ^^^ a <<< 17

section

variable (rng : DeterministicRng)

theorem advance_s2 : rng.advance.s2 = rng.s1 ^^^ rng.advance.s1 ^^^ rng.s1 <<< 17 := by
  simp only [advance, xor_cancel]

theorem advance_s0 : rng.advance.s0 = rng.s1 ^^^ rng.advance.advance.s1 ^^^ rng.s1 <<< 17 := by
  have hNext : rng.advance.advance.s1 = rng.advance.s1 ^^^ (rng.advance.s2 ^^^ rng.advance.s0) :=
    rfl
  rw [hNext, advance_s2]
  generalize rng.s1 <<< 17 = shifted
  simp only [UInt64.xor_comm, xor_left_comm, xor_cancel, UInt64.xor_self, UInt64.zero_xor]

theorem advance_s3 : rng.advance.s3 =
    third rng.s1 rng.advance.s1 rng.advance.advance.s1 rng.advance.advance.advance.s1 := by
  have hFirst : rng.advance.advance.s0 = rng.advance.s0 ^^^ (rng.advance.s3 ^^^ rng.advance.s1) :=
    rfl
  have hLast : rng.advance.s3 =
      rng.advance.s0 ^^^ (rng.advance.advance.s0 ^^^ rng.advance.s1) := by
    rw [hFirst, UInt64.xor_assoc, xor_cancel, UInt64.xor_assoc, UInt64.xor_self, UInt64.xor_zero]
  rw [hLast, advance_s0, advance_s0, third]
  generalize rng.s1 <<< 17 = shifted
  generalize rng.advance.s1 <<< 17 = shifted'
  simp only [UInt64.xor_assoc, UInt64.xor_comm, xor_left_comm, xor_cancel]

/-- The second word after a number of draws. -/
def word (n : Nat) : UInt64 := (advance^[n] rng).s1

theorem word_advance (n : Nat) : rng.advance.word n = rng.word (n + 1) := rfl

theorem recurrence : third (rng.word 1) (rng.word 2) (rng.word 3) (rng.word 4) =
    rotateLeft (third (rng.word 0) (rng.word 1) (rng.word 2) (rng.word 3) ^^^ rng.word 1) 45 := by
  have hStep : rng.advance.advance.s3 = rotateLeft (rng.advance.s3 ^^^ rng.advance.s1) 45 := rfl
  rw [advance_s3, advance_s3] at hStep
  exact hStep

end

/-! Small outputs. -/

/-- The low bits of a word that is mapped to a small output. -/
def echo (j : Nat) : Nat := 25620477880152155 * j % 2 ^ 57

/-- Words that are mapped to small outputs have one of nine low parts. -/
def Quiet (x : UInt64) : Prop := ∃ j < 9, (45 * x.toNat + j) % 2 ^ 57 = 0

theorem Quiet.low {x : UInt64} (h : Quiet x) : ∃ j : Fin 9, x.toNat % 2 ^ 57 = echo j := by
  obtain ⟨j, hj, hSum⟩ := h
  refine ⟨⟨j, hj⟩, ?_⟩
  -- `45 * 25620477880152155 = 2 ^ 60 - 1`.
  change x.toNat % 2 ^ 57 = 25620477880152155 * j % 2 ^ 57
  omega

theorem Quiet.small {x : UInt64} (h : Quiet x) : (45 * (x.toNat % 2 ^ 38) + 8) % 2 ^ 38 < 9 := by
  obtain ⟨j, hj, hSum⟩ := h
  have hLow : (45 * (x.toNat % 2 ^ 38) + j) % 2 ^ 38 = 0 := by omega
  generalize 45 * (x.toNat % 2 ^ 38) = n at hLow ⊢
  clear hSum
  omega

theorem toNat_rotateLeft_seven (x : UInt64) :
    (rotateLeft x 7).toNat = x.toNat % 2 ^ 57 * 128 + x.toNat / 2 ^ 57 := by
  have hLow : x.toNat / 2 ^ 57 < 2 ^ 7 := by
    have := x.toNat_lt
    omega
  have hShift : x.toNat <<< 7 % 2 ^ 64 = (x.toNat % 2 ^ 57) <<< 7 := by
    rw [Nat.shiftLeft_eq, Nat.shiftLeft_eq]
    omega
  change (x.toBitVec.rotateLeft 7).toNat = _
  rw [BitVec.toNat_rotateLeft, UInt64.toNat_toBitVec]
  change x.toNat <<< 7 % 2 ^ 64 ||| x.toNat >>> 57 = _
  rw [hShift, Nat.shiftRight_eq_div_pow, ← Nat.shiftLeft_add_eq_or_of_lt hLow, Nat.shiftLeft_eq]

theorem quiet_of_output {rng : DeterministicRng} (h : rng.output.toNat < 128) : Quiet rng.s1 := by
  obtain ⟨z, hz⟩ : ∃ z, z = (rng.s1 * 5).toNat := ⟨_, rfl⟩
  have hOutput : rng.output.toNat = (z % 2 ^ 57 * 128 + z / 2 ^ 57) * 9 % 2 ^ 64 := by
    rw [output, UInt64.toNat_mul, toNat_rotateLeft_seven, ← hz]
    rfl
  rw [UInt64.toNat_mul, show (5 : UInt64).toNat = 5 from rfl] at hz
  generalize rng.output.toNat = v at h hOutput
  obtain ⟨q, hq⟩ : ∃ q, q = z % 2 ^ 57 := ⟨_, rfl⟩
  obtain ⟨t, ht⟩ : ∃ t, t = z / 2 ^ 57 := ⟨_, rfl⟩
  obtain ⟨k, hk⟩ : ∃ k, 9 * (q * 128 + t) = v + 2 ^ 64 * k :=
    ⟨9 * (q * 128 + t) / 2 ^ 64, by omega⟩
  obtain ⟨m, hm⟩ : ∃ m, 5 * rng.s1.toNat = z + 2 ^ 64 * m := ⟨5 * rng.s1.toNat / 2 ^ 64, by omega⟩
  have hSplit : z = q + 2 ^ 57 * t := by omega
  have hSmall : t < 128 := by omega
  clear hq ht hOutput hz
  refine ⟨(9 * t - v) / 128, by omega, ?_⟩
  have hLow : 9 * q + (9 * t - v) / 128 = 2 ^ 57 * k := by omega
  have hAll : 45 * rng.s1.toNat + (9 * t - v) / 128 = 2 ^ 57 * (k + 9 * t + 9 * 128 * m) := by omega
  omega

/-! The recurrence on low bits. -/

def thirdLow (a b c d : Nat) : Nat := d ^^^ (b <<< 17) ^^^ a ^^^ c ^^^ (a <<< 17)

/-- The low bits of the next word, from the low bits of four words. -/
def nextLow (a b c d : Nat) : Nat :=
  (thirdLow b c d 0 ^^^ ((thirdLow a b c d ^^^ b) >>> 19)) % 2 ^ 38

theorem getLsbD_third (a b c d : UInt64) {i : Nat} (hi : i < 64) :
    (third a b c d).toBitVec.getLsbD i =
      (thirdLow a.toNat b.toNat c.toNat d.toNat).testBit i := by
  have hShift : ∀ w : UInt64, (w <<< (17 : UInt64)).toBitVec = w.toBitVec <<< 17 := fun _ => rfl
  simp only [third, thirdLow, UInt64.toBitVec_xor, hShift, BitVec.getLsbD_xor,
    BitVec.getLsbD_shiftLeft, hi, Nat.testBit_xor, Nat.testBit_shiftLeft, decide_true,
    Bool.true_and]
  by_cases h : i < 17
  · simp [h, Nat.not_le.mpr h, BitVec.getLsbD]
  · simp [h, Nat.not_lt.mp h, BitVec.getLsbD]

/-- Bits below 57 do not depend on the bits above. -/
theorem testBit_thirdLow_mod (a b c d : Nat) {i : Nat} (hi : i < 57) :
    (thirdLow (a % 2 ^ 57) (b % 2 ^ 57) (c % 2 ^ 57) (d % 2 ^ 57)).testBit i =
      (thirdLow a b c d).testBit i := by
  have hShifted : i - 17 < 57 := by omega
  simp only [thirdLow, Nat.testBit_xor, Nat.testBit_shiftLeft, Nat.testBit_mod_two_pow, hi,
    hShifted, decide_true, Bool.true_and]

theorem testBit_thirdLow (a b c d i : Nat) :
    (thirdLow a b c d).testBit i = (d.testBit i ^^ (thirdLow a b c 0).testBit i) := by
  simp only [thirdLow, Nat.testBit_xor, Nat.zero_testBit, Bool.false_xor, Bool.xor_assoc]

theorem low_word (rng : DeterministicRng) : (rng.word 4).toNat % 2 ^ 38 =
    nextLow ((rng.word 0).toNat % 2 ^ 57) ((rng.word 1).toNat % 2 ^ 57)
      ((rng.word 2).toNat % 2 ^ 57) ((rng.word 3).toNat % 2 ^ 57) := by
  have hWords := rng.recurrence
  generalize rng.word 0 = x0, rng.word 1 = x1, rng.word 2 = x2, rng.word 3 = x3,
    rng.word 4 = x4 at hWords ⊢
  apply Nat.eq_of_testBit_eq
  intro i
  by_cases hi : i < 38
  · have h64 : i < 64 := by omega
    have h45 : i < 45 := by omega
    have h57 : i < 57 := by omega
    have hRotated : 19 + i < 57 := by omega
    have hHigh : 19 + i < 64 := by omega
    have hZero := testBit_thirdLow_mod x1.toNat x2.toNat x3.toNat 0 h57
    rw [Nat.zero_mod] at hZero
    have hBit := congrArg (fun w => w.toBitVec.getLsbD i) hWords
    simp only [rotateLeft, BitVec.getLsbD_rotateLeft, UInt64.toBitVec_xor, BitVec.getLsbD_xor,
      getLsbD_third _ _ _ _ h64, Nat.reduceMod, h45, decide_true, cond_true, Nat.reduceSub,
      getLsbD_third _ _ _ _ hHigh, testBit_thirdLow _ _ _ x4.toNat] at hBit
    simp only [nextLow, Nat.testBit_mod_two_pow, hi, decide_true, Bool.true_and, Nat.testBit_xor,
      hZero, Nat.testBit_shiftRight, testBit_thirdLow_mod _ _ _ _ hRotated, hRotated]
    change _ = (_ ^^ (_ ^^ x1.toBitVec.getLsbD (19 + i)))
    rw [← hBit, Bool.xor_comm, Bool.xor_assoc, Bool.xor_self, Bool.xor_false]
  · simp only [nextLow, Nat.testBit_mod_two_pow, hi, decide_false, Bool.false_and]

/-- Among the nine low parts, two successive windows of the recurrence leave
only zeros. -/
theorem echo_windows : ∀ a b c d : Fin 9,
    (45 * nextLow (echo a) (echo b) (echo c) (echo d) + 8) % 2 ^ 38 < 9 →
    ∀ e : Fin 9, echo e % 2 ^ 38 = nextLow (echo a) (echo b) (echo c) (echo d) →
      (45 * nextLow (echo b) (echo c) (echo d) (echo e) + 8) % 2 ^ 38 < 9 →
      a = 0 ∧ b = 0 ∧ c = 0 ∧ d = 0 ∧ e = 0 := by
  intro a
  fin_cases a <;> decide +kernel

/-! High words. -/

/-- Words whose low bits are all zero. -/
def High (x : UInt64) : Prop := ∀ i < 57, x.toBitVec.getLsbD i = false

theorem High.of_low {x : UInt64} (h : x.toNat % 2 ^ 57 = 0) : High x := by
  intro i hi
  have hBit := congrArg (fun n => n.testBit i) h
  simp only [Nat.testBit_mod_two_pow, hi, decide_true, Bool.true_and, Nat.zero_testBit] at hBit
  exact hBit

theorem High.xor {x y : UInt64} (hx : High x) (hy : High y) : High (x ^^^ y) := by
  intro i hi
  rw [UInt64.toBitVec_xor, BitVec.getLsbD_xor, hx i hi, hy i hi, Bool.xor_false]

theorem High.shiftLeft {x : UInt64} (hx : High x) : x <<< 17 = 0 := by
  apply UInt64.toBitVec_inj.mp
  apply BitVec.eq_of_getLsbD_eq
  intro i hi
  change (x.toBitVec <<< 17).getLsbD i = _
  rw [BitVec.getLsbD_shiftLeft, hx (i - 17) (by omega), Bool.and_false, UInt64.toBitVec_zero,
    BitVec.getLsbD_zero]

/-- A high word is a rotation of another one only if both are zero. -/
theorem High.eq_zero {x y : UInt64} (hx : High x) (hy : High y) (h : x = rotateLeft y 45) :
    x = 0 ∧ y = 0 := by
  have hBit : ∀ i < 64, x.toBitVec.getLsbD i =
      if i < 45 then y.toBitVec.getLsbD (19 + i) else y.toBitVec.getLsbD (i - 45) := by
    intro i hi
    rw [h, rotateLeft, BitVec.getLsbD_rotateLeft]
    simp [hi, cond_eq_ite]
  constructor
  · apply UInt64.toBitVec_inj.mp
    apply BitVec.eq_of_getLsbD_eq
    intro i hi
    rw [UInt64.toBitVec_zero, BitVec.getLsbD_zero]
    by_cases hLow : i < 57
    · exact hx i hLow
    · rw [hBit i hi, if_neg (by omega)]
      exact hy _ (by omega)
  · apply UInt64.toBitVec_inj.mp
    apply BitVec.eq_of_getLsbD_eq
    intro i hi
    rw [UInt64.toBitVec_zero, BitVec.getLsbD_zero]
    by_cases hLow : i < 57
    · exact hy i hLow
    · have hMoved := hBit (i - 19) (by omega)
      rw [if_pos (by omega), hx _ (by omega), Nat.add_sub_cancel' (by omega)] at hMoved
      exact hMoved.symm

/-! Nine small outputs in a row. -/

section

variable {rng : DeterministicRng}

/-- Six quiet words in a row are high, the last one aside. -/
theorem high_of_quiet (h : ∀ n < 6, Quiet (rng.word n)) : ∀ n < 5, High (rng.word n) := by
  obtain ⟨a, ha⟩ := (h 0 (by decide)).low
  obtain ⟨b, hb⟩ := (h 1 (by decide)).low
  obtain ⟨c, hc⟩ := (h 2 (by decide)).low
  obtain ⟨d, hd⟩ := (h 3 (by decide)).low
  obtain ⟨e, he⟩ := (h 4 (by decide)).low
  have hFirst := rng.low_word
  have hSecond := rng.advance.low_word
  simp only [word_advance, Nat.reduceAdd] at hSecond
  rw [ha, hb, hc, hd] at hFirst
  rw [hb, hc, hd, he] at hSecond
  have hSmall := (h 4 (by decide)).small
  have hSmall' := (h 5 (by decide)).small
  have hEcho : echo e % 2 ^ 38 = nextLow (echo a) (echo b) (echo c) (echo d) := by
    rw [← hFirst, ← he, Nat.mod_mod_of_dvd _ (Nat.pow_dvd_pow 2 (by decide))]
  rw [hFirst] at hSmall
  rw [hSecond] at hSmall'
  obtain ⟨rfl, rfl, rfl, rfl, rfl⟩ := echo_windows a b c d hSmall e hEcho hSmall'
  intro n hn
  interval_cases n
  exacts [.of_low ha, .of_low hb, .of_low hc, .of_low hd, .of_low he]

/-- On high words the recurrence splits into two. -/
theorem high_recurrence (h : ∀ n < 5, High (rng.word n)) :
    rng.word 4 = rng.word 1 ^^^ rng.word 3 ∧
      rng.word 3 = rng.word 0 ^^^ rng.word 1 ^^^ rng.word 2 := by
  have h0 := h 0 (by decide)
  have h1 := h 1 (by decide)
  have h2 := h 2 (by decide)
  have h3 := h 3 (by decide)
  have h4 := h 4 (by decide)
  have hWords := rng.recurrence
  rw [third, third, h2.shiftLeft, h1.shiftLeft, h0.shiftLeft] at hWords
  simp only [UInt64.xor_zero] at hWords
  obtain ⟨hLeft, hRight⟩ := ((h4.xor h1).xor h3).eq_zero (((h3.xor h0).xor h2).xor h1) hWords
  rw [UInt64.xor_assoc, UInt64.xor_eq_zero_iff] at hLeft
  rw [UInt64.xor_assoc, UInt64.xor_assoc, UInt64.xor_eq_zero_iff] at hRight
  refine ⟨hLeft, hRight.trans ?_⟩
  rw [UInt64.xor_comm (rng.word 2), UInt64.xor_assoc]

/-- Only the all-zero state stays silent for nine draws. -/
theorem word_zero_of_quiet (h : ∀ n < 9, Quiet (rng.word n)) : ∀ n < 4, rng.word n = 0 := by
  have hHigh : ∀ n < 8, High (rng.word n) := by
    intro n hn
    by_cases hLow : n < 5
    · exact high_of_quiet (fun m hm => h m (by omega)) n hLow
    · have hLater := @high_of_quiet rng.advance.advance.advance
        (fun m hm => h (m + 3) (by omega)) (n - 3) (by omega)
      rw [word_advance, word_advance, word_advance] at hLater
      rwa [show n - 3 + 1 + 1 + 1 = n by omega] at hLater
  obtain ⟨h4, h3⟩ := high_recurrence fun n hn => hHigh n (by omega)
  obtain ⟨h5, h4'⟩ := @high_recurrence rng.advance fun n hn => hHigh (n + 1) (by omega)
  obtain ⟨h6, h5'⟩ := @high_recurrence rng.advance.advance fun n hn => hHigh (n + 2) (by omega)
  obtain ⟨-, h6'⟩ := @high_recurrence rng.advance.advance.advance
    fun n hn => hHigh (n + 3) (by omega)
  simp only [word_advance, Nat.reduceAdd] at h4' h5 h5' h6 h6'
  have hTwo : rng.word 2 = 0 := eq_zero_of_xor (h4.symm.trans h4')
  have hThree : rng.word 3 = 0 := eq_zero_of_xor (h5.symm.trans h5')
  have hFour : rng.word 4 = 0 := eq_zero_of_xor (h6.symm.trans h6')
  have hOne : rng.word 1 = 0 := by
    rw [hFour, hTwo, hThree, UInt64.xor_zero, UInt64.xor_zero] at h4'
    exact h4'.symm
  have hZero : rng.word 0 = 0 := by
    rw [hThree, hOne, hTwo, UInt64.xor_zero, UInt64.xor_zero] at h3
    exact h3.symm
  intro n hn
  interval_cases n
  exacts [hZero, hOne, hTwo, hThree]

/-- The state that only repeats itself. -/
def Silent (rng : DeterministicRng) : Prop := rng = ⟨0, 0, 0, 0⟩

theorem eq_zero_of_rotateLeft {x : UInt64} (h : rotateLeft x 45 = 0) : x = 0 := by
  have hBits : x.toNat <<< 45 % 2 ^ 64 ||| x.toNat >>> 19 = 0 := by
    have hNat := congrArg (fun w => w.toBitVec.toNat) h
    rwa [rotateLeft, BitVec.toNat_rotateLeft] at hNat
  rw [Nat.or_eq_zero_iff, Nat.shiftLeft_eq, Nat.shiftRight_eq_div_pow] at hBits
  apply UInt64.toNat_inj.mp
  change x.toNat = 0
  omega

theorem eq_zero_of_shiftLeft {x : UInt64} (h : x = x <<< 17) : x = 0 := by
  have hBits : ∀ i, x.toBitVec.getLsbD i = false := by
    intro i
    induction i using Nat.strong_induction_on with
    | _ i ih =>
        rw [h]
        change (x.toBitVec <<< 17).getLsbD i = false
        rw [BitVec.getLsbD_shiftLeft]
        by_cases hLow : i < 17
        · simp [hLow]
        · rw [ih (i - 17) (by omega), Bool.and_false]
  apply UInt64.toBitVec_inj.mp
  apply BitVec.eq_of_getLsbD_eq
  intro i _
  rw [hBits i, UInt64.toBitVec_zero, BitVec.getLsbD_zero]

/-- No other state leads to it. -/
theorem Silent.of_advance (h : Silent rng.advance) : Silent rng := by
  obtain ⟨s0, s1, s2, s3⟩ := rng
  simp only [Silent, advance, mk.injEq, UInt64.xor_eq_zero_iff] at h ⊢
  obtain ⟨h0, h1, h2, h3⟩ := h
  have hLast := eq_zero_of_rotateLeft h3
  rw [hLast] at h0
  rw [← h1] at h2
  have hSecond := eq_zero_of_shiftLeft h2
  rw [h0, hSecond, UInt64.xor_zero] at h1
  rw [hSecond, UInt64.xor_zero] at hLast
  exact ⟨h0, hSecond, h1.symm, hLast⟩

theorem silent_of_quiet (h : ∀ n < 9, Quiet (rng.word n)) : Silent rng := by
  have hWords := word_zero_of_quiet h
  have h0 : rng.s1 = 0 := hWords 0 (by decide)
  have h1 : rng.advance.s1 = 0 := hWords 1 (by decide)
  have h2 : rng.advance.advance.s1 = 0 := hWords 2 (by decide)
  have h3 : rng.advance.advance.advance.s1 = 0 := hWords 3 (by decide)
  apply Silent.of_advance
  have hs0 := rng.advance_s0
  have hs2 := rng.advance_s2
  have hs3 := rng.advance_s3
  rw [h0, h2] at hs0
  rw [h0, h1] at hs2
  rw [h0, h1, h2, h3] at hs3
  calc rng.advance
      = ⟨rng.advance.s0, rng.advance.s1, rng.advance.s2, rng.advance.s3⟩ := rfl
    _ = ⟨0, 0, 0, 0⟩ := by
        rw [hs0, h1, hs2, hs3]
        rfl

/-- Nine draws contain a large output. -/
theorem exists_large_output (h : ¬ Silent rng) : ∃ n < 9, 128 ≤ (advance^[n] rng).output.toNat := by
  by_contra hNone
  push Not at hNone
  exact h (silent_of_quiet fun n hn => quiet_of_output (hNone n hn))

theorem ofDigest_not_silent (digest : Vector UInt8 32) : ¬ Silent (ofDigest digest) := by
  intro h
  simp only [ofDigest, Silent] at h
  split at h
  · simp only [mk.injEq] at h
    exact absurd h.1 (by decide)
  · rename_i hZero
    exact hZero h

end

/-! The loop of the source, without a bound on its turns. -/

/-- One bounded draw. -/
inductive Sampled (threshold upper : UInt64) :
    DeterministicRng → UInt64 × DeterministicRng → Prop where
  | accept {rng : DeterministicRng} (large : threshold ≤ rng.output) :
      Sampled threshold upper rng (rng.output % upper, rng.advance)
  | retry {rng : DeterministicRng} {result : UInt64 × DeterministicRng}
      (small : rng.output < threshold) (rest : Sampled threshold upper rng.advance result) :
      Sampled threshold upper rng result

theorem sample_succ (threshold upper : UInt64) (fuel : Nat) (rng : DeterministicRng) :
    sample threshold upper (fuel + 1) rng =
      if threshold ≤ rng.output then (rng.output % upper, rng.advance)
      else sample threshold upper fuel rng.advance := rfl

theorem sample_sampled {threshold upper : UInt64} {fuel n : Nat} {rng : DeterministicRng}
    (hn : n < fuel) (h : threshold ≤ (advance^[n] rng).output) :
    Sampled threshold upper rng (sample threshold upper fuel rng) := by
  induction fuel generalizing n rng with
  | zero => omega
  | succ fuel ih =>
      by_cases hLarge : threshold ≤ rng.output
      · rw [sample_succ, if_pos hLarge]
        exact .accept hLarge
      · rw [sample_succ, if_neg hLarge]
        refine .retry (UInt64.not_le.mp hLarge) ?_
        cases n with
        | zero => exact absurd h hLarge
        | succ n => exact ih (by omega) h

theorem Sampled.not_silent {threshold upper : UInt64} {rng : DeterministicRng}
    {result : UInt64 × DeterministicRng} (h : Sampled threshold upper rng result)
    (hRng : ¬ Silent rng) : ¬ Silent result.2 := by
  induction h with
  | accept _ => exact fun hNext => hRng hNext.of_advance
  | retry _ _ ih => exact ih fun hNext => hRng hNext.of_advance

/-- A bounded draw ends, and the model computes its result. -/
theorem uniformBelow_sampled {rng : DeterministicRng} {upper : UInt64} (hRng : ¬ Silent rng)
    (hPos : 0 < upper.toNat) (hUpper : upper.toNat ≤ 128) :
    Sampled ((0 - upper) % upper) upper rng (rng.uniformBelow upper) := by
  obtain ⟨n, hn, hLarge⟩ := exists_large_output hRng
  refine sample_sampled (n := n) (by omega) ?_
  have hThreshold : ((0 - upper) % upper).toNat < upper.toNat := by
    rw [UInt64.toNat_mod]
    exact Nat.mod_lt _ hPos
  rw [UInt64.le_iff_toNat_le]
  omega

/-- One whole shuffle. -/
def Shuffled {α : Type} (rng : DeterministicRng) (values : List α)
    (result : List α × DeterministicRng) : Prop :=
  Shuffle.Descends (fun rng upper drawn => ∃ selected, drawn.1 = UInt64.toNat selected ∧
    Sampled ((0 - UInt64.ofNat upper) % UInt64.ofNat upper) (UInt64.ofNat upper) rng
      (selected, drawn.2)) (values.length - 1) rng values result

/-- Every shuffle of a bag ends, and the model computes its result. -/
theorem shuffle_shuffled {α : Type} {rng : DeterministicRng} (hRng : ¬ Silent rng)
    {values : List α} (hLength : values.length ≤ 128) :
    Shuffled rng values (rng.shuffle values) := by
  refine Shuffle.descend_descends (fun rng => ¬ Silent rng) 128 ?_ values hRng (by omega)
  intro rng upper hLive hPos hUpper
  have hNat : (UInt64.ofNat upper).toNat = upper :=
    UInt64.toNat_ofNat_of_lt' (by rw [UInt64.size]; omega)
  have hSampled := @uniformBelow_sampled rng (UInt64.ofNat upper) hLive (by omega) (by omega)
  exact ⟨⟨_, rfl, hSampled⟩, hSampled.not_silent hLive⟩

end WordArena.Engine.DeterministicRng
