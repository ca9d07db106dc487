import Mathlib.Order.Bounds.Basic
import WordArena.Library.Meter
import WordArena.Scheduler.Model

/-! A token bucket is a meter that counts in shares of a token: one token costs
the refill interval, and each millisecond brings in the refill rate. -/
namespace WordArena.Scheduler

open WordArena.Application

/-- The shares of one token. -/
def RatePolicy.interval (policy : RatePolicy) : Nat := policy.refillIntervalMs.toNat

/-- The shares of a full bucket. -/
def RatePolicy.ceiling (policy : RatePolicy) : Nat := policy.capacity * policy.interval

def TokenBucketState.level (policy : RatePolicy) (state : TokenBucketState) : Nat :=
  state.tokens * policy.interval + state.remainder

/-- The bucket that holds a level: whole tokens and the rest. -/
def TokenBucketState.ofLevel (policy : RatePolicy) (level : Nat) (now : UnixMillis) :
    TokenBucketState :=
  ⟨level / policy.interval, level % policy.interval, now⟩

/-- The level of a bucket after it is refilled. -/
def TokenBucketState.filled (policy : RatePolicy) (state : TokenBucketState) (now : UnixMillis) :
    Nat :=
  Meter.fill policy.ceiling policy.refillTokens (state.level policy) (now - state.updatedAt).toNat

@[simp] theorem TokenBucketState.level_ofLevel (policy : RatePolicy) (level : Nat)
    (now : UnixMillis) : (TokenBucketState.ofLevel policy level now).level policy = level :=
  Nat.div_add_mod' level policy.interval

section

variable {policy : RatePolicy} {state : TokenBucketState} {now : UnixMillis}

theorem RatePolicy.validate_bounds (h : policy.validate = true) :
    0 < policy.capacity ∧ policy.capacity ≤ 1000000 ∧ 0 < policy.refillTokens ∧
      policy.refillTokens ≤ 1000000 ∧ 0 < policy.interval ∧ policy.interval ≤ 86400000 ∧
      (policy.interval : Int) = policy.refillIntervalMs := by
  simp only [RatePolicy.validate, Bool.and_eq_true, decide_eq_true_eq] at h
  unfold maxRateCapacity at h
  unfold RatePolicy.interval
  omega

/-- Added tokens saturate far above any capacity. -/
theorem clamp_tokens {tokens added capacity limit : Nat} (h : capacity < limit) :
    min (min (tokens + if added < limit then added else limit - 1) (limit - 1)) capacity =
      min capacity (tokens + added) := by
  split <;> omega

/-- The products never saturate below the capacity, so a refill is exact. -/
theorem refillBucket_eq (hValid : policy.validate = true) (hClock : state.updatedAt ≤ now) :
    refillBucket state policy now = some (.ofLevel policy (state.filled policy now) now) := by
  obtain ⟨hCapacity, hSmall, hRefill, -, hInterval, hShort, hInt⟩ := RatePolicy.validate_bounds hValid
  have hGuard : ¬ (now < state.updatedAt ∨ policy.capacity = 0 ∨ policy.refillTokens = 0 ∨
      policy.refillIntervalMs ≤ 0) := by
    unfold UnixMillis at hClock ⊢
    omega
  have hFull : TokenBucketState.ofLevel policy policy.ceiling now = ⟨policy.capacity, 0, now⟩ := by
    rw [TokenBucketState.ofLevel, RatePolicy.ceiling, Nat.mul_div_cancel _ hInterval,
      Nat.mul_mod_left]
  rw [refillBucket, if_neg hGuard]
  split
  · rename_i hTokens
    have hOver : policy.ceiling ≤ state.level policy :=
      (Nat.mul_le_mul_right _ hTokens).trans (Nat.le_add_right _ _)
    rw [TokenBucketState.filled, Meter.fill, min_eq_left (hOver.trans (Nat.le_add_right _ _)), hFull]
  rename_i hBelow
  change _ = some (TokenBucketState.ofLevel policy
    (min policy.ceiling (state.level policy + (now - state.updatedAt).toNat * policy.refillTokens)) now)
  simp only
  rw [← RatePolicy.interval]
  generalize (now - state.updatedAt).toNat * policy.refillTokens = added
  have hWord : policy.capacity < 2 ^ 32 := hSmall.trans_lt (by decide)
  have hTop : 2 ^ 32 * 86400000 ≤ 2 ^ 128 - 1 := by decide
  generalize 2 ^ 128 - 1 = top at hTop ⊢
  have hLevel : state.level policy + added =
      added + state.remainder + state.tokens * policy.interval := by
    rw [TokenBucketState.level]
    omega
  have hWhole : (state.level policy + added) / policy.interval =
      state.tokens + (added + state.remainder) / policy.interval := by
    rw [hLevel, Nat.add_mul_div_right _ _ hInterval, Nat.add_comm]
  have hRest : (state.level policy + added) % policy.interval =
      (added + state.remainder) % policy.interval := by
    rw [hLevel, Nat.add_mul_mod_self_right]
  by_cases hHuge : top ≤ added + state.remainder
  · -- A saturated product holds far more than the capacity, and so does the exact one.
    have hSaturated : min (min added top + state.remainder) top = top := by omega
    have hMany : 2 ^ 32 ≤ top / policy.interval := by
      rw [Nat.le_div_iff_mul_le hInterval]
      omega
    have hClamped : min policy.capacity (state.tokens + top / policy.interval) = policy.capacity := by
      omega
    have hOver : policy.ceiling ≤ state.level policy + added := by
      have hProduct : policy.capacity * policy.interval ≤ 1000000 * 86400000 :=
        Nat.mul_le_mul hSmall hShort
      rw [hLevel, RatePolicy.ceiling]
      omega
    rw [hSaturated, clamp_tokens hWord, hClamped, if_pos rfl, min_eq_left hOver, hFull]
  · have hExact : min (min added top + state.remainder) top = added + state.remainder := by omega
    rw [hExact]
    generalize hQuotient : (added + state.remainder) / policy.interval = quotient at hWhole ⊢
    have hOver : policy.ceiling ≤ state.level policy + added ↔
        policy.capacity ≤ state.tokens + quotient := by
      rw [← hWhole, Nat.le_div_iff_mul_le hInterval, RatePolicy.ceiling]
    rw [clamp_tokens hWord]
    by_cases hCeiling : policy.capacity ≤ state.tokens + quotient
    · rw [min_eq_left hCeiling, if_pos rfl, min_eq_left (hOver.mpr hCeiling), hFull]
    · have hUnder : state.tokens + quotient < policy.capacity := by omega
      have hRemainder : (added + state.remainder) % policy.interval < 2 ^ 64 :=
        (Nat.mod_lt _ hInterval).trans_le (by omega)
      rw [min_eq_right hUnder.le, if_neg hUnder.ne, if_pos hRemainder,
        min_eq_right (Nat.le_of_not_le (mt hOver.mp hCeiling)), TokenBucketState.ofLevel, hWhole,
        hRest]

/-- A refill succeeds unless the clock went back. -/
theorem refillBucket_eq_some (hValid : policy.validate = true) {next : TokenBucketState} :
    refillBucket state policy now = some next ↔
      state.updatedAt ≤ now ∧ next = .ofLevel policy (state.filled policy now) now := by
  by_cases hClock : state.updatedAt ≤ now
  · rw [refillBucket_eq hValid hClock, Option.some.injEq]
    exact ⟨fun h => ⟨hClock, h.symm⟩, fun h => h.2.symm⟩
  · have hBack : refillBucket state policy now = none := if_pos (.inl (Int.not_le.mp hClock))
    rw [hBack]
    exact ⟨nofun, fun h => absurd h.1 hClock⟩

/-- The tokens of a refilled bucket. -/
theorem refillBucket_tokens (hValid : policy.validate = true) :
    (TokenBucketState.ofLevel policy (state.filled policy now) now).tokens =
      min policy.capacity (state.tokens +
        ((now - state.updatedAt).toNat * policy.refillTokens + state.remainder) / policy.interval) := by
  obtain ⟨-, -, -, -, hInterval, -⟩ := RatePolicy.validate_bounds hValid
  have hLevel : state.level policy + (now - state.updatedAt).toNat * policy.refillTokens =
      (now - state.updatedAt).toNat * policy.refillTokens + state.remainder +
        state.tokens * policy.interval := by
    rw [TokenBucketState.level]
    omega
  change min _ _ / policy.interval = _
  rw [hLevel, RatePolicy.ceiling, Nat.add_comm state.tokens, ← Nat.add_mul_div_right _ _ hInterval]
  rcases Nat.le_total (policy.capacity * policy.interval)
    ((now - state.updatedAt).toNat * policy.refillTokens + state.remainder +
      state.tokens * policy.interval) with hOver | hUnder
  · rw [min_eq_left hOver, Nat.mul_div_cancel _ hInterval,
      min_eq_left ((Nat.le_div_iff_mul_le hInterval).mpr hOver)]
  · rw [min_eq_right hUnder,
      min_eq_right ((Nat.div_le_div_right hUnder).trans_eq (Nat.mul_div_cancel _ hInterval))]

/-- A poll in between changes nothing. -/
theorem refillBucket_refillBucket (hValid : policy.validate = true) {first second : UnixMillis}
    (hFirst : state.updatedAt ≤ first) (hSecond : first ≤ second) :
    ((refillBucket state policy first).bind fun next => refillBucket next policy second) =
      refillBucket state policy second := by
  have hElapsed : (first - state.updatedAt).toNat + (second - first).toNat =
      (second - state.updatedAt).toNat := by
    unfold UnixMillis at hFirst hSecond
    omega
  rw [refillBucket_eq hValid hFirst, Option.bind_some, refillBucket_eq hValid hSecond,
    refillBucket_eq hValid (hFirst.trans hSecond), TokenBucketState.filled,
    TokenBucketState.level_ofLevel, TokenBucketState.filled]
  change some (TokenBucketState.ofLevel policy (Meter.fill _ _ _ (second - first).toNat) second) = _
  rw [Meter.fill_fill, hElapsed, TokenBucketState.filled]

/-! Waiting for a token. -/

/-- At this time a refill brings at least one token. -/
def HasToken (policy : RatePolicy) (state : TokenBucketState) (time : UnixMillis) : Prop :=
  ∃ next, refillBucket state policy time = some next ∧ 0 < next.tokens

theorem hasToken_iff (hValid : policy.validate = true) (hClock : state.updatedAt ≤ now) :
    HasToken policy state now ↔
      (policy.interval - state.level policy) ⌈/⌉ policy.refillTokens ≤
        (now - state.updatedAt).toNat := by
  obtain ⟨hCapacity, -, hRefill, -, hInterval, -⟩ := RatePolicy.validate_bounds hValid
  have hCost : policy.interval ≤ policy.ceiling := Nat.le_mul_of_pos_left _ hCapacity
  rw [← Meter.le_fill_iff hCost hRefill, HasToken, refillBucket_eq hValid hClock]
  simp [TokenBucketState.ofLevel, TokenBucketState.filled, Nat.div_pos_iff, hInterval]

/-- Once there is a token it stays until somebody takes it. -/
theorem HasToken.later (hValid : policy.validate = true) {first second : UnixMillis}
    (h : HasToken policy state first) (hClock : state.updatedAt ≤ first) (hLater : first ≤ second) :
    HasToken policy state second := by
  rw [hasToken_iff hValid hClock] at h
  rw [hasToken_iff hValid (hClock.trans hLater)]
  exact h.trans (Int.toNat_le_toNat (Int.sub_le_sub_right hLater _))

/-- The milliseconds a bucket waits for its next token. -/
def TokenBucketState.wait (policy : RatePolicy) (state : TokenBucketState) : Nat :=
  (policy.interval - state.level policy) ⌈/⌉ policy.refillTokens

theorem isLeast_hasToken (hValid : policy.validate = true) (hNow : state.updatedAt = now) :
    IsLeast {time | now ≤ time ∧ HasToken policy state time} (now + state.wait policy) := by
  subst hNow
  have hLater : state.updatedAt ≤ state.updatedAt + state.wait policy :=
    Int.le_add_of_nonneg_right (Int.natCast_nonneg _)
  constructor
  · refine ⟨hLater, (hasToken_iff hValid hLater).mpr ?_⟩
    rw [← TokenBucketState.wait, add_sub_cancel_left, Int.toNat_natCast]
  · rintro time ⟨hTime, hToken⟩
    rw [hasToken_iff hValid hTime, ← TokenBucketState.wait] at hToken
    unfold UnixMillis at hTime ⊢
    omega

theorem TokenBucketState.wait_eq_zero (h : 0 < state.tokens) : state.wait policy = 0 := by
  have hOver : policy.interval ≤ state.level policy :=
    (Nat.le_mul_of_pos_left _ h).trans (Nat.le_add_right _ _)
  rw [TokenBucketState.wait, Nat.sub_eq_zero_of_le hOver, zero_ceilDiv]

/-- The retry time is the end of the wait, unless the clock cannot show it. -/
theorem tokenRetryAt_eq (hValid : policy.validate = true) (hFraction : state.remainder < policy.interval)
    (hLow : -2 ^ 63 ≤ now) (hHigh : now < 2 ^ 63) :
    tokenRetryAt state policy now =
      if now + state.wait policy < 2 ^ 63 then some (now + state.wait policy) else none := by
  obtain ⟨-, -, hRefill, hRate, hInterval, hShort, hInt⟩ := RatePolicy.validate_bounds hValid
  unfold tokenRetryAt
  split
  · rename_i hTokens
    rw [TokenBucketState.wait_eq_zero hTokens, Nat.cast_zero, Int.add_zero, if_pos hHigh]
  rename_i hEmpty
  have hLevel : state.level policy = state.remainder := by
    rw [TokenBucketState.level, Nat.eq_zero_of_not_pos hEmpty, Nat.zero_mul, Nat.zero_add]
  have hDelay : min (policy.refillIntervalMs.toNat - state.remainder + (policy.refillTokens - 1))
      (2 ^ 64 - 1) / policy.refillTokens = state.wait policy := by
    rw [← RatePolicy.interval, min_eq_left (by omega), TokenBucketState.wait, hLevel,
      Nat.ceilDiv_eq_add_pred_div, Nat.add_sub_assoc hRefill]
  have hWait : state.wait policy < 2 ^ 63 := by
    rw [← hDelay]
    exact (Nat.div_le_self _ _).trans_lt (by unfold RatePolicy.interval at hShort; omega)
  simp only
  rw [if_neg (by omega), hDelay, if_pos hWait, Checked.addI64]
  refine if_congr (and_iff_right ?_) rfl rfl
  exact hLow.trans (Int.le_add_of_nonneg_right (Int.natCast_nonneg _))

end

end WordArena.Scheduler
