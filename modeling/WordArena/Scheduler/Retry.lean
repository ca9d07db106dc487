import WordArena.Scheduler.Buckets

/-! The retry time of a limited acquisition. -/
namespace WordArena.Scheduler

open Fallible WordArena.Application

section

variable {s t : SchedulerStore} {now : UnixMillis}

theorem maxTime_eq_some {left right : Option UnixMillis} {latest : UnixMillis}
    (h : maxTime left right = some latest) :
    (∀ time, left = some time → time ≤ latest) ∧ (∀ time, right = some time → time ≤ latest) ∧
      (left = some latest ∨ right = some latest) := by
  cases left with
  | none =>
      cases right with
      | none => cases h
      | some time =>
          cases h
          exact ⟨nofun, fun _ h => (Option.some.inj h).ge, .inr rfl⟩
  | some first =>
      cases right with
      | none =>
          cases h
          exact ⟨fun _ h => (Option.some.inj h).ge, nofun, .inl rfl⟩
      | some second =>
          obtain rfl : max first second = latest := Option.some.inj h
          refine ⟨fun _ h => (Option.some.inj h).ge.trans (le_max_left _ _),
            fun _ h => (Option.some.inj h).ge.trans (le_max_right _ _), ?_⟩
          rcases max_choice first second with hMax | hMax
          · exact .inl (by rw [hMax])
          · exact .inr (by rw [hMax])

/-- The latest of some times is at least each of them, and it is one of them. -/
theorem foldl_maxTime {α : Type} {times : α → Option UnixMillis} {items : List α}
    {first : Option UnixMillis} {latest : UnixMillis}
    (h : items.foldl (fun time item => maxTime time (times item)) first = some latest) :
    (∀ time, first = some time → time ≤ latest) ∧
      (∀ item ∈ items, ∀ time, times item = some time → time ≤ latest) ∧
      (first = some latest ∨ ∃ item ∈ items, times item = some latest) := by
  induction items generalizing first with
  | nil => exact ⟨fun time hTime => by cases hTime; exact (Option.some.inj h).le,
      fun _ h => absurd h List.not_mem_nil, .inl h⟩
  | cons item items ih =>
      obtain ⟨hSoFar, hItems, hLatest⟩ := ih h
      -- Only the first time and that of the head are new.
      have hBelow (time : UnixMillis) (hTime : first = some time ∨ times item = some time) :
          time ≤ latest := by
        cases hMax : maxTime first (times item) with
        | none => rcases hTime with hTime | hTime <;> simp [maxTime, hTime] at hMax <;> grind
        | some middle =>
            obtain ⟨hFirst, hItem, -⟩ := maxTime_eq_some hMax
            exact (hTime.elim (hFirst time) (hItem time)).trans (hSoFar middle hMax)
      refine ⟨fun time hTime => hBelow time (.inl hTime),
        List.forall_mem_cons.mpr ⟨fun time hTime => hBelow time (.inr hTime), hItems⟩, ?_⟩
      rcases hLatest with hMax | ⟨other, hOther, hTime⟩
      · rcases (maxTime_eq_some hMax).2.2 with hFirst | hItem
        · exact .inl hFirst
        · exact .inr ⟨item, List.mem_cons_self, hItem⟩
      · exact .inr ⟨other, List.mem_cons_of_mem _ hOther, hTime⟩

/-- A limited answer comes from a scan at a time that the clock can show. -/
theorem limited_scan {request : ReservationRequest} {retryAt : UnixMillis}
    (h : schedulerRepository.step s (.acquire request) = (.acquired (.ok (.limited (some retryAt))), t)) :
    (0 ≤ request.now ∧ request.now < 2 ^ 63) ∧ ∃ stored,
      scanScopes (s.expire request.now) request.now request.scopes [] none =
        .ok (some (stored, some retryAt)) ∧
      persistBuckets (s.expire request.now) stored = .ok t := by
  rcases transact_cases s (acquireReservation s request) with ⟨result, next, hOk, hEq⟩ | ⟨e, -, hEq⟩
  · have hAnswer : SchedulerResponse.acquired (.ok result) = .acquired (.ok (.limited (some retryAt))) :=
      (congrArg (SchedulerResponse.acquired ∘ Prod.fst) hEq).symm.trans (congrArg Prod.fst h)
    have hNext : next = t := (congrArg Prod.snd hEq).symm.trans (congrArg Prod.snd h)
    cases hAnswer
    subst hNext
    constructor
    · obtain ⟨_, hValid, hRest⟩ := bind_eq_ok.mp hOk
      obtain ⟨expiresAt, hExpires, -⟩ := bind_eq_ok.mp hRest
      obtain ⟨hRange, -⟩ := Checked.addI64_eq_some.mp (okOr_eq_ok.mp hExpires)
      have hValid : request.validate = true := by simpa using reject_eq_ok.mp hValid
      simp only [ReservationRequest.validate, Bool.and_eq_true, decide_eq_true_eq] at hValid
      obtain ⟨⟨-, hNow⟩, hDuration, -⟩ := hValid
      unfold UnixMillis at hNow ⊢
      omega
    · rcases acquireReservation_eq_ok hOk with ⟨-, -, hNone⟩ | ⟨stored, time, hTime, hScan, hPersist⟩ |
        ⟨_, _, hGranted, -⟩
      · exact absurd rfl (hNone retryAt)
      · cases hTime
        exact ⟨stored, hScan, hPersist⟩
      · cases hGranted
  · cases (congrArg (SchedulerResponse.acquired ∘ Prod.fst) hEq).symm.trans (congrArg Prod.fst h)

/-- The bucket of a scanned limit was refilled at the time of the scan. -/
theorem Scanned.refilled_at {scope : SchedulerScope} {policy : SchedulingLimit} {rate : RatePolicy}
    {bucket : TokenBucketState} (h : Scanned s now scope ⟨policy, some bucket⟩)
    (hRate : policy.rate = some rate) :
    rate.validate = true ∧ bucket.updatedAt = now ∧ bucket.remainder < rate.interval := by
  cases h with
  | metered hLoad hSame hRefill =>
      obtain rfl := Option.some.inj (hRate.symm.trans hSame)
      have hValid := loadLimit_valid hLoad hRate
      obtain ⟨-, -, -, -, hInterval, -⟩ := RatePolicy.validate_bounds hValid
      obtain ⟨-, rfl⟩ := (refillBucket_eq_some hValid).mp hRefill
      exact ⟨hValid, rfl, Nat.mod_lt _ hInterval⟩

theorem Scanned.retryAt_eq_some {scope : SchedulerScope} {limit : StoredLimit}
    (h : Scanned s now scope limit) (hLow : -2 ^ 63 ≤ now) (hHigh : now < 2 ^ 63)
    {time : UnixMillis} (hTime : limit.retryAt now = some time) : now ≤ time := by
  obtain ⟨policy, bucket?⟩ := limit
  cases bucket? with
  | none => cases hTime.symm.trans (StoredLimit.retryAt_unmetered policy now)
  | some bucket =>
      cases hRate : policy.rate with
      | none => simp [StoredLimit.retryAt, hRate] at hTime
      | some rate =>
          obtain ⟨hValid, -, hFraction⟩ := h.refilled_at hRate
          rw [StoredLimit.retryAt_metered hRate, tokenRetryAt_eq hValid hFraction hLow hHigh] at hTime
          split at hTime
          · split at hTime
            · rw [← Option.some.inj hTime]
              exact Int.le_add_of_nonneg_right (Int.natCast_nonneg _)
            · cases hTime
          · cases hTime

/-- A bucket that a limited acquisition wrote has a token at the retry time, if it has
one at any time that the clock can show. -/
theorem limited_hasToken {request : ReservationRequest} {retryAt : UnixMillis}
    (h : schedulerRepository.step s (.acquire request) = (.acquired (.ok (.limited (some retryAt))), t))
    {scope : SchedulerScope} (hScope : scope ∈ request.scopes) {rate : RatePolicy}
    (rated : s.Rated scope rate) {bucket : TokenBucketState} (hBucket : t.bucket scope.key = some bucket)
    {time : UnixMillis} (hTime : time < 2 ^ 63) (hToken : HasToken rate bucket time) :
    HasToken rate bucket retryAt := by
  obtain ⟨⟨hPositive, hHigh⟩, stored, hScan, hPersist⟩ := limited_scan h
  have hLow : -2 ^ 63 ≤ request.now := le_trans (by decide) hPositive
  obtain ⟨scanned, rfl, hScanned, hLatest⟩ := scanScopes_eq_ok hScan
  obtain ⟨-, hEach, hOne⟩ := foldl_maxTime hLatest.symm
  have hLater : request.now ≤ retryAt := by
    rcases hOne with hNone | ⟨limit, hLimit, hRetry⟩
    · cases hNone
    · obtain ⟨_, -, hHere, -⟩ := Slots.exists_of_forall₂_right hScanned hLimit
      exact hHere.retryAt_eq_some hLow hHigh hRetry
  obtain ⟨⟨policy, bucket?⟩, hLimit, hHere, -⟩ := Slots.exists_of_forall₂_left hScanned hScope
  -- The acquisition wrote the bucket as it was scanned.
  obtain rfl : bucket? = some bucket := by
    have rated : (s.expire request.now).Rated scope rate := rated
    obtain ⟨-, old, hOld, -, hRead⟩ := rated.scanned hHere
    obtain ⟨-, same, hSame, -, -, hNew⟩ := (scanned_buckets scope rate hScanned hPersist).2 hScope rated
    obtain rfl := Option.some.inj (hOld.symm.trans hSame)
    exact hRead.trans (hNew.symm.trans hBucket)
  have hRate : policy.rate = some rate := by
    cases hHere with
    | metered hLoad => exact SchedulerStore.Rated.rate_eq (s := s.expire request.now) rated hLoad
  obtain ⟨hValid, hNow, hFraction⟩ := hHere.refilled_at hRate
  obtain ⟨⟨-, hWaited⟩, hLeast⟩ := isLeast_hasToken hValid hNow
  have hClock : request.now ≤ time := by
    obtain ⟨next, hRefill, -⟩ := hToken
    exact hNow ▸ ((refillBucket_eq_some hValid).mp hRefill).1
  have hShown : request.now + bucket.wait rate < 2 ^ 63 := (hLeast ⟨hClock, hToken⟩).trans_lt hTime
  have hWait : request.now + bucket.wait rate ≤ retryAt := by
    rcases Nat.eq_zero_or_pos bucket.tokens with hEmpty | hTokens
    · refine hEach _ hLimit _ ?_
      rw [StoredLimit.retryAt_metered hRate, if_pos hEmpty, tokenRetryAt_eq hValid hFraction hLow hHigh,
        if_pos hShown]
    · rw [TokenBucketState.wait_eq_zero hTokens, Nat.cast_zero, Int.add_zero]
      exact hLater
  exact hWaited.later hValid (hNow ▸ Int.le_add_of_nonneg_right (Int.natCast_nonneg _)) hWait

/-- A limit loads as long as its bucket is there. -/
theorem loadLimit_of_limits {key : String} {limit : StoredLimit} (h : s.loadLimit key = .ok limit)
    (hLimits : t.limits = s.limits) (hBucket : limit.bucket.isSome → (t.bucket key).isSome) :
    ∃ loaded, t.loadLimit key = .ok loaded := by
  obtain ⟨row, hRow, h⟩ := bind_eq_ok.mp h
  obtain ⟨_, hKey, h⟩ := bind_eq_ok.mp h
  obtain ⟨_, hValid, h⟩ := bind_eq_ok.mp h
  rw [SchedulerStore.loadLimit, hLimits, hRow, ok_bind, hKey, ok_bind, hValid, ok_bind]
  split at h
  · rename_i hRate
    obtain ⟨bucket, -, h⟩ := bind_eq_ok.mp h
    cases pure_eq_ok.mp h
    have hThere := hBucket rfl
    rw [SchedulerStore.bucket, Option.isSome_map, Option.isSome_iff_exists] at hThere
    obtain ⟨written, hWritten⟩ := hThere
    rw [if_pos hRate, hWritten]
    exact ⟨_, rfl⟩
  · rename_i hRate
    rw [if_neg hRate]
    exact ⟨_, rfl⟩

theorem limited_loadLimit {request : ReservationRequest} {retryAt : UnixMillis}
    (h : schedulerRepository.step s (.acquire request) = (.acquired (.ok (.limited (some retryAt))), t))
    {scope : SchedulerScope} (hScope : scope ∈ request.scopes) :
    t.limits = s.limits ∧ ∃ limit, t.loadLimit scope.key = .ok limit := by
  have hLimits : t.limits = s.limits := by
    have hStep := (step_effect s (.acquire request)).limits_eq nofun
    rw [h] at hStep
    exact hStep.1
  obtain ⟨-, stored, hScan, hPersist⟩ := limited_scan h
  obtain ⟨scanned, rfl, hScanned, -⟩ := scanScopes_eq_ok hScan
  obtain ⟨limit, -, hHere, -⟩ := Slots.exists_of_forall₂_left hScanned hScope
  refine ⟨hLimits, ?_⟩
  cases hHere with
  | @metered policy rate bucket refilled hLoad hRate _ =>
      obtain ⟨row, hRow, hPolicy, -⟩ := loadLimit_policy hLoad
      obtain ⟨-, _, -, -, -, hNew⟩ := (scanned_buckets scope rate hScanned hPersist).2 hScope
        ⟨row, hRow, hPolicy ▸ hRate⟩
      exact loadLimit_of_limits hLoad hLimits fun _ => by rw [hNew]; rfl
  | unmetered hLoad => exact loadLimit_of_limits hLoad hLimits nofun

end

/-- Retry times are the earliest useful ones. For a bucket just refilled the retry time
is the least time at which a refill brings a token, if the clock can show it. When an
acquisition is limited until a time, the bucket of each of its scopes has a token at
that time, unless it has none at any time the clock can show. -/
theorem retry_times_earliest :
    (∀ (limit : SchedulingLimit) (policy : RatePolicy), limit.validate = true →
      limit.rate = some policy → ∀ (state : TokenBucketState) (now : UnixMillis),
      state.remainder < policy.refillIntervalMs.toNat → state.updatedAt = now →
      -2 ^ 63 ≤ now → now < 2 ^ 63 →
      ∃ t, IsLeast {time | now ≤ time ∧ HasToken policy state time} t ∧
        tokenRetryAt state policy now = if t < 2 ^ 63 then some t else none) ∧
    ∀ (s next : SchedulerStore) (request : ReservationRequest) (retryAt : UnixMillis),
      schedulerRepository.step s (.acquire request) =
        (.acquired (.ok (.limited (some retryAt))), next) →
      ∀ scope ∈ request.scopes, ∃ limit, next.loadLimit scope.key = .ok limit ∧
        ∀ policy bucket, limit.policy.rate = some policy → limit.bucket = some bucket →
          (∃ time < 2 ^ 63, HasToken policy bucket time) → HasToken policy bucket retryAt := by
  constructor
  · intro limit policy hLimit hRate state now hFraction hNow hLow hHigh
    have hValid : policy.validate = true := by
      rw [SchedulingLimit.validate, hRate, Bool.and_eq_true] at hLimit
      exact hLimit.2
    exact ⟨_, isLeast_hasToken hValid hNow, tokenRetryAt_eq hValid hFraction hLow hHigh⟩
  · intro s next request retryAt hStep scope hScope
    obtain ⟨hLimits, limit, hLoad⟩ := limited_loadLimit hStep hScope
    refine ⟨limit, hLoad, fun policy bucket hRate hBucket => ?_⟩
    rintro ⟨time, hTime, hToken⟩
    obtain ⟨row, hRow, hPolicy, -⟩ := loadLimit_policy hLoad
    obtain ⟨loaded, bucket?⟩ := limit
    obtain rfl : bucket? = some bucket := hBucket
    exact limited_hasToken hStep hScope ⟨row, hLimits ▸ hRow, hPolicy ▸ hRate⟩ (loadLimit_bucket hLoad)
      hTime hToken

/-- Two scopes that bring in one token, after a millisecond and after a second, and
one reservation that empties both just before the clock ends. -/
def lateRequests : List SchedulerRequest :=
  [.configure [⟨1, .global, 9, none⟩] 0, .configure [⟨1, .tournament "cup", 9, none⟩] 0,
    .configure [⟨1, .harness "harness", 9, some ⟨1, 1, 1⟩⟩] 0,
    .configure [⟨1, .provider "provider", 9, some ⟨1, 1, 1000⟩⟩] 0,
    .acquire { demoRequest "a" (2 ^ 63 - 3) with durationMs := 1 }]

def lateStore : SchedulerStore := schedulerRepository.after .empty lateRequests

def lateRequest : ReservationRequest := { demoRequest "b" (2 ^ 63 - 3) with durationMs := 1 }

/-- The retry time of the second scope is past the end of the clock and is left out of
the answer, so the bucket of that scope has no token at the time given. -/
theorem retry_time_leaves_out_overflow :
    let scope := SchedulerScope.provider "provider"
    let next := (schedulerRepository.step lateStore (.acquire lateRequest)).2
    (schedulerRepository.step lateStore (.acquire lateRequest)).1 =
        .acquired (.ok (.limited (some (2 ^ 63 - 2)))) ∧
      scope ∈ lateRequest.scopes ∧ next.Rated scope ⟨1, 1, 1000⟩ ∧
      ∃ bucket, next.bucket scope.key = some bucket ∧ ¬ HasToken ⟨1, 1, 1000⟩ bucket (2 ^ 63 - 2) := by
  intro scope next
  have hAnswer : (schedulerRepository.step lateStore (.acquire lateRequest)).1 =
      .acquired (.ok (.limited (some (2 ^ 63 - 2)))) := by decide +kernel
  have hRated : (next.limits.find? fun row => row.scopeKey = scope.key).bind (·.policy.rate) =
      some ⟨1, 1, 1000⟩ := by decide +kernel
  have hBucket : next.bucket scope.key = some ⟨0, 0, 2 ^ 63 - 3⟩ := by decide +kernel
  have hRefill : refillBucket ⟨0, 0, 2 ^ 63 - 3⟩ ⟨1, 1, 1000⟩ (2 ^ 63 - 2) =
      some ⟨0, 1, 2 ^ 63 - 2⟩ := by decide +kernel
  refine ⟨hAnswer, by decide, Option.bind_eq_some_iff.mp hRated, _, hBucket, ?_⟩
  rintro ⟨refilled, hNext, hPositive⟩
  cases hRefill.symm.trans hNext
  exact absurd hPositive (Nat.lt_irrefl 0)

/-- A bucket of the first scope, just refilled, waits for 350 milliseconds; and the answer
that leaves out the second scope is right about the first. -/
theorem retry_times_earliest_demo :
    (∃ t, IsLeast {time : UnixMillis | 700 ≤ time ∧ HasToken demoRate ⟨0, 300, 700⟩ time} t ∧
      tokenRetryAt ⟨0, 300, 700⟩ demoRate 700 = if t < 2 ^ 63 then some t else none) ∧
    ∃ limit, (schedulerRepository.step lateStore (.acquire lateRequest)).2.loadLimit
        (SchedulerScope.harness "harness").key = .ok limit ∧
      ∀ policy bucket, limit.policy.rate = some policy → limit.bucket = some bucket →
        (∃ time < 2 ^ 63, HasToken policy bucket time) → HasToken policy bucket (2 ^ 63 - 2) := by
  obtain ⟨hWait, hLimited⟩ := retry_times_earliest
  have hAnswer : (schedulerRepository.step lateStore (.acquire lateRequest)).1 =
      .acquired (.ok (.limited (some (2 ^ 63 - 2)))) := by decide +kernel
  exact ⟨hWait ⟨1, .global, 9, some demoRate⟩ demoRate (by decide) rfl ⟨0, 300, 700⟩ 700 (by decide) rfl
      (by decide) (by decide),
    hLimited lateStore _ lateRequest (2 ^ 63 - 2) (Prod.ext hAnswer rfl) (.harness "harness")
      (by decide)⟩

end WordArena.Scheduler
