import WordArena.Scheduler.Capacity

/-! What requests do to the bucket of one scope: they refill it, and a granted
acquisition takes one token. -/
namespace WordArena.Scheduler

open Fallible WordArena.Application

def SchedulerStore.bucket (s : SchedulerStore) (key : String) : Option TokenBucketState :=
  (s.buckets.find? fun row => row.scopeKey = key).map (·.state)

/-- The stored limit of a scope and its rate. -/
def SchedulerStore.Rated (s : SchedulerStore) (scope : SchedulerScope) (rate : RatePolicy) : Prop :=
  ∃ row, s.limits.find? (fun row => row.scopeKey = scope.key) = some row ∧
    row.policy.rate = some rate

/-- The bucket without some of its tokens. -/
def TokenBucketState.spend (drawn : Nat) (bucket : TokenBucketState) : TokenBucketState :=
  { bucket with tokens := bucket.tokens - drawn }

/-- The bucket of a scope is refilled at a time, and then tokens are taken from it. -/
def Polled (s t : SchedulerStore) (scope : SchedulerScope) (rate : RatePolicy) (now : UnixMillis)
    (drawn : Nat) : Prop :=
  rate.validate = true ∧ ∃ bucket, s.bucket scope.key = some bucket ∧ bucket.updatedAt ≤ now ∧
    drawn ≤ (TokenBucketState.ofLevel rate (bucket.filled rate now) now).tokens ∧
    t.bucket scope.key = some (.spend drawn (.ofLevel rate (bucket.filled rate now) now))

/-- The request that a response grants. -/
def SchedulerResponse.granted : SchedulerResponse → Option ReservationRequest
  | .acquired (.ok (.acquired reservation)) => some reservation.request
  | _ => none

section

variable {s t : SchedulerStore} {scope : SchedulerScope} {rate : RatePolicy} {now : UnixMillis}

/-! Loading. -/

theorem loadLimit_bucket {key : String} {policy : SchedulingLimit} {bucket : TokenBucketState}
    (h : s.loadLimit key = .ok ⟨policy, some bucket⟩) : s.bucket key = some bucket := by
  obtain ⟨-, row, hRow, rfl⟩ := (loadLimit_eq_ok h).2.2.2 bucket rfl
  rw [SchedulerStore.bucket, hRow]
  rfl

theorem loadLimit_policy {key : String} {limit : StoredLimit} (h : s.loadLimit key = .ok limit) :
    ∃ row, s.limits.find? (fun row => row.scopeKey = key) = some row ∧ row.policy = limit.policy ∧
      (limit.policy.rate.isSome = limit.bucket.isSome) := by
  obtain ⟨row, hRow, h⟩ := bind_eq_ok.mp h
  obtain ⟨_, -, h⟩ := bind_eq_ok.mp h
  obtain ⟨_, -, h⟩ := bind_eq_ok.mp h
  split at h
  · rename_i hRate
    obtain ⟨bucket, -, h⟩ := bind_eq_ok.mp h
    cases pure_eq_ok.mp h
    exact ⟨row, okOr_eq_ok.mp hRow, rfl, hRate⟩
  · rename_i hRate
    cases pure_eq_ok.mp h
    exact ⟨row, okOr_eq_ok.mp hRow, rfl, by simpa using hRate⟩

theorem SchedulerStore.Rated.rate_eq (rated : s.Rated scope rate) {limit : StoredLimit}
    (h : s.loadLimit scope.key = .ok limit) : limit.policy.rate = some rate := by
  obtain ⟨row, hRow, hRate⟩ := rated
  obtain ⟨found, hFound, hPolicy, -⟩ := loadLimit_policy h
  rw [hRow, Option.some.injEq] at hFound
  rw [← hPolicy, ← hFound, hRate]

theorem loadLimit_valid {key : String} {limit : StoredLimit} (h : s.loadLimit key = .ok limit)
    (hRate : limit.policy.rate = some rate) : rate.validate = true := by
  have hValid := (loadLimit_eq_ok h).2.1
  rw [SchedulingLimit.validate, hRate, Bool.and_eq_true] at hValid
  exact hValid.2

/-- A scanned scope with a rate has a bucket, refilled at the time of the scan. -/
theorem SchedulerStore.Rated.scanned (rated : s.Rated scope rate) {limit : StoredLimit}
    (h : Scanned s now scope limit) :
    rate.validate = true ∧ ∃ bucket, s.bucket scope.key = some bucket ∧ bucket.updatedAt ≤ now ∧
      limit.bucket = some (.ofLevel rate (bucket.filled rate now) now) := by
  cases h with
  | @metered policy other bucket refilled hLoad hRate hRefill =>
      have hSame : policy.rate = some rate := rated.rate_eq hLoad
      rw [hRate, Option.some.injEq] at hSame
      subst hSame
      have hValid := loadLimit_valid hLoad hRate
      obtain ⟨hClock, rfl⟩ := (refillBucket_eq_some hValid).mp hRefill
      exact ⟨hValid, bucket, loadLimit_bucket hLoad, hClock, rfl⟩
  | @unmetered policy hLoad =>
      obtain ⟨row, -, -, hBoth⟩ := loadLimit_policy hLoad
      have hSome : policy.rate = some rate := rated.rate_eq hLoad
      simp [hSome] at hBoth

/-! Persisting. -/

theorem persistBucket_same {limit : StoredLimit} {key : String} (h : persistBucket s limit = .ok t)
    (hOther : limit.policy.scope.key ≠ key) : t.bucket key = s.bucket key := by
  unfold persistBucket at h
  split at h
  · cases pure_eq_ok.mp h
    rfl
  · obtain ⟨_, -, h⟩ := bind_eq_ok.mp h
    cases pure_eq_ok.mp h
    rw [SchedulerStore.bucket, SchedulerStore.bucket, Table.find?_update_other]
    · exact fun row hRow => decide_eq_false (of_decide_eq_true hRow ▸ hOther)
    · exact fun row hRow => decide_eq_false (of_decide_eq_true hRow ▸ hOther)

theorem persistBucket_written {limit : StoredLimit} {bucket : TokenBucketState}
    (h : persistBucket s limit = .ok t) (hBucket : limit.bucket = some bucket) :
    t.bucket limit.policy.scope.key = (s.bucket limit.policy.scope.key).map fun _ => bucket := by
  rw [persistBucket, hBucket] at h
  obtain ⟨_, -, h⟩ := bind_eq_ok.mp h
  cases pure_eq_ok.mp h
  have hRows : (Table.update (fun row => row.scopeKey = limit.policy.scope.key)
      (fun row => { row with state := bucket }) s.buckets).find?
        (fun row => row.scopeKey = limit.policy.scope.key) = _ :=
    Table.find?_update_hit fun _ hRow => hRow
  rw [SchedulerStore.bucket, SchedulerStore.bucket, hRows, Option.map_map, Option.map_map]
  rfl

theorem persistBuckets_same {limits : List StoredLimit} {key : String}
    (h : persistBuckets s limits = .ok t)
    (hOthers : ∀ limit ∈ limits, limit.policy.scope.key ≠ key) : t.bucket key = s.bucket key := by
  refine foldlM_invariant (fun t => t.bucket key = s.bucket key) h rfl ?_
  intro a limit b hLimit hPrior hStep
  exact (persistBucket_same hStep (hOthers limit hLimit)).trans hPrior

/-- The bucket of a limit is written as the limit has it. -/
theorem persistBuckets_written {limits : List StoredLimit} {limit : StoredLimit}
    {bucket : TokenBucketState} (h : persistBuckets s limits = .ok t)
    (hScopes : (limits.map (·.policy.scope)).Nodup) (hLimit : limit ∈ limits)
    (hBucket : limit.bucket = some bucket) :
    t.bucket limit.policy.scope.key = (s.bucket limit.policy.scope.key).map fun _ => bucket := by
  induction limits generalizing s with
  | nil => cases hLimit
  | cons first rest ih =>
      rw [persistBuckets, List.foldlM_cons, bind_eq_ok] at h
      obtain ⟨middle, hFirst, hRest⟩ := h
      rw [List.map_cons, List.nodup_cons] at hScopes
      have hFresh (other : StoredLimit) (hOther : other ∈ rest) :
          other.policy.scope.key ≠ first.policy.scope.key :=
        fun hSame => hScopes.1 (SchedulerScope.key_injective hSame ▸ List.mem_map_of_mem hOther)
      rcases List.mem_cons.mp hLimit with rfl | hLater
      · rw [persistBuckets_same hRest hFresh, persistBucket_written hFirst hBucket]
      · rw [ih hRest hScopes.2 hLater, persistBucket_same hFirst (hFresh limit hLater).symm]

/-! Acquisitions. -/

theorem Scanned.scope_eq {limit : StoredLimit} (h : Scanned s now scope limit) :
    limit.policy.scope = scope := by
  cases h with
  | metered hLoad => exact SchedulerScope.key_injective (loadLimit_eq_ok hLoad).1
  | unmetered hLoad => exact SchedulerScope.key_injective (loadLimit_eq_ok hLoad).1

/-- The buckets that an acquisition writes: one of each scope it names, refilled and with
as many tokens taken from each. -/
theorem written_buckets (scope : SchedulerScope) (rate : RatePolicy) {request : ReservationRequest}
    {limits : List StoredLimit} {drawn : Nat}
    (hLimits : List.Forall₂ (fun scope limit => ∃ found, Scanned s request.now scope found ∧
      limit.policy = found.policy ∧ limit.bucket = found.bucket.map (.spend drawn) ∧
      ∀ bucket, found.bucket = some bucket → drawn ≤ bucket.tokens) request.scopes limits)
    (hPersist : persistBuckets s limits = .ok t) :
    (scope ∉ request.scopes → t.bucket scope.key = s.bucket scope.key) ∧
    (scope ∈ request.scopes → s.Rated scope rate → Polled s t scope rate request.now drawn) := by
  have hScopes : limits.map (·.policy.scope) = request.scopes := by
    refine Slots.map_of_forall₂ hLimits fun scope _ limit hLimit => ?_
    obtain ⟨found, hFound, hPolicy, -⟩ := hLimit
    exact hPolicy ▸ hFound.scope_eq
  constructor
  · intro hScope
    refine persistBuckets_same hPersist fun limit hLimit hSame => hScope ?_
    rw [← hScopes, ← SchedulerScope.key_injective hSame]
    exact List.mem_map_of_mem hLimit
  · intro hScope rated
    obtain ⟨limit, hLimit, found, hFound, hPolicy, hBucket, hAfford⟩ :=
      Slots.exists_of_forall₂_left hLimits hScope
    obtain ⟨hValid, bucket, hOld, hClock, hNew⟩ := rated.scanned hFound
    rw [hNew, Option.map_some] at hBucket
    have hSame : limit.policy.scope = scope := hPolicy ▸ hFound.scope_eq
    have hWritten := persistBuckets_written hPersist (hScopes ▸ request.scopes_nodup) hLimit hBucket
    rw [hSame, hOld] at hWritten
    exact ⟨hValid, bucket, hOld, hClock, hAfford _ hNew, hWritten⟩

/-- A limited acquisition writes the buckets as it scanned them. -/
theorem scanned_buckets (scope : SchedulerScope) (rate : RatePolicy) {request : ReservationRequest}
    {limits : List StoredLimit}
    (hScanned : List.Forall₂ (fun scope limit => Scanned s request.now scope limit ∧
      s.activeCount scope.key < limit.policy.maxConcurrency) request.scopes limits)
    (hPersist : persistBuckets s limits = .ok t) :
    (scope ∉ request.scopes → t.bucket scope.key = s.bucket scope.key) ∧
    (scope ∈ request.scopes → s.Rated scope rate → Polled s t scope rate request.now 0) :=
  written_buckets scope rate (hScanned.imp fun _ limit h =>
    ⟨limit, h.1, rfl, Option.map_id'.symm, fun _ _ => Nat.zero_le _⟩) hPersist

theorem consumeToken_spend {limit consumed : StoredLimit} (h : consumeToken limit = .ok consumed) :
    consumed.policy = limit.policy ∧ consumed.bucket = limit.bucket.map (.spend 1) ∧
      ∀ bucket, limit.bucket = some bucket → 1 ≤ bucket.tokens := by
  unfold consumeToken at h
  split at h
  · rename_i hNone
    cases pure_eq_ok.mp h
    rw [hNone]
    exact ⟨rfl, rfl, nofun⟩
  · rename_i bucket hSome
    obtain ⟨_, hTokens, h⟩ := bind_eq_ok.mp h
    cases pure_eq_ok.mp h
    rw [hSome]
    refine ⟨rfl, rfl, fun other hOther => ?_⟩
    cases hOther
    exact Nat.one_le_iff_ne_zero.mpr (reject_eq_ok.mp hTokens)

/-- An acquisition leaves a bucket alone, or polls it and takes a token exactly
when it is granted. -/
theorem acquire_bucket (rated : s.Rated scope rate) (request : ReservationRequest) :
    let answer := (schedulerRepository.step s (.acquire request)).1
    let t := (schedulerRepository.step s (.acquire request)).2
    (t.bucket scope.key = s.bucket scope.key ∧
      ∀ granted, answer.granted = some granted → scope ∉ granted.scopes) ∨
    (Polled s t scope rate request.now 0 ∧ answer.granted = none) ∨
    Polled s t scope rate request.now 1 ∧ answer.granted = some request ∧
      scope ∈ request.scopes := by
  intro answer t
  rcases transact_cases s (acquireReservation s request) with ⟨result, next, hOk, hEq⟩ | ⟨e, -, hEq⟩
  · have hNext : t = next := congrArg Prod.snd hEq
    have hAnswer : answer = .acquired (.ok result) :=
      congrArg (SchedulerResponse.acquired ∘ Prod.fst) hEq
    rw [hNext, hAnswer]
    rcases acquireReservation_eq_ok hOk with ⟨rfl, hNone, -⟩ | ⟨stored, retryAt, rfl, hScan, hPersist⟩ |
      ⟨expiresAt, paid, rfl, hGranted, rfl⟩
    · refine .inl ⟨rfl, fun granted hGranted => ?_⟩
      cases result with
      | acquired reservation => exact absurd rfl (hNone reservation)
      | _ => cases hGranted
    · obtain ⟨scanned, rfl, hScanned, -⟩ := scanScopes_eq_ok hScan
      obtain ⟨hSame, hPolled⟩ := scanned_buckets scope rate hScanned hPersist
      by_cases hScope : scope ∈ request.scopes
      · exact .inr (.inl ⟨hPolled hScope rated, rfl⟩)
      · exact .inl ⟨hSame hScope, nofun⟩
    · obtain ⟨stored, consumed, hScan, hConsume, hPersist⟩ := hGranted.paying
      obtain ⟨scanned, rfl, hScanned, -⟩ := scanScopes_eq_ok hScan
      have hSpent := Slots.forall₂_chain hScanned (mapM_eq_ok.mp hConsume)
      obtain ⟨hSame, hPolled⟩ := written_buckets scope rate
        (hSpent.imp fun scope limit ⟨found, hFound, hToken⟩ =>
          ⟨found, hFound.1, consumeToken_spend hToken⟩) hPersist
      by_cases hScope : scope ∈ request.scopes
      · exact .inr (.inr ⟨hPolled hScope rated, rfl, hScope⟩)
      · refine .inl ⟨hSame hScope, fun granted hSome => ?_⟩
        cases hSome
        exact hScope
  · have hNext : t = s := congrArg Prod.snd hEq
    have hAnswer : answer = .acquired (.error e) :=
      congrArg (SchedulerResponse.acquired ∘ Prod.fst) hEq
    rw [hNext, hAnswer]
    exact .inl ⟨rfl, nofun⟩

/-! Other requests. -/

/-- Configuring other scopes leaves a limit and its bucket alone. -/
theorem configureLimit_other (rate : RatePolicy) {limit : SchedulingLimit} (hOther : limit.scope ≠ scope)
    (hStep : configureLimit now s limit = .ok t) :
    (s.Rated scope rate → t.Rated scope rate) ∧ t.bucket scope.key = s.bucket scope.key := by
  have hKey : limit.scope.key ≠ scope.key := SchedulerScope.key_injective.ne hOther
  obtain ⟨_, -, hStep⟩ := bind_eq_ok.mp hStep
  obtain ⟨limits, hWrite, hStep⟩ := bind_eq_ok.mp hStep
  cases pure_eq_ok.mp hStep
  constructor
  · rintro ⟨row, hRow, hRate⟩
    refine ⟨row, ?_, hRate⟩
    unfold SchedulerStore.upsertLimit at hWrite
    simp only at hWrite
    split at hWrite
    · cases pure_eq_ok.mp hWrite
      exact List.find?_append.trans (by rw [hRow, Option.some_or])
    · obtain ⟨-, rfl⟩ := Table.updateWhere_eq_some.mp (okOr_eq_ok.mp hWrite)
      refine (Table.find?_update_other ?_ ?_).trans hRow
      · exact fun row hRow => decide_eq_false (of_decide_eq_true hRow ▸ hKey)
      · exact fun row hRow => decide_eq_false (of_decide_eq_true hRow ▸ hKey)
  · unfold SchedulerStore.bucket SchedulerStore.resetBucket
    simp only
    split
    · rw [List.find?_filter]
      congr 2
      funext row
      by_cases hRow : row.scopeKey = scope.key
      · simp [hRow, hKey.symm]
      · simp [hRow]
    · split
      · rw [Table.find?_update_other]
        · exact fun row hRow => decide_eq_false (of_decide_eq_true hRow ▸ hKey)
        · exact fun row hRow => decide_eq_false (of_decide_eq_true hRow ▸ hKey)
      · rw [List.find?_append, List.find?_singleton, if_neg (by simpa using hKey), Option.or_none]

/-- The request does not configure the scope. -/
def SchedulerRequest.Spares (scope : SchedulerScope) : SchedulerRequest → Prop
  | .configure limits _ => ∀ limit ∈ limits, limit.scope ≠ scope
  | _ => True

theorem configureLimits_other {limits : List SchedulingLimit} {u : Unit}
    (hSpares : SchedulerRequest.Spares scope (.configure limits now))
    (h : configureLimits s limits now = .ok (u, t)) :
    (s.Rated scope rate → t.Rated scope rate) ∧ t.bucket scope.key = s.bucket scope.key := by
  obtain ⟨_, -, h⟩ := bind_eq_ok.mp h
  obtain ⟨_, -, h⟩ := bind_eq_ok.mp h
  obtain ⟨next, hSteps, h⟩ := bind_eq_ok.mp h
  cases pure_eq_ok.mp h
  refine foldlM_invariant (fun t => (s.Rated scope rate → t.Rated scope rate) ∧
    t.bucket scope.key = s.bucket scope.key) hSteps ⟨id, rfl⟩ ?_
  intro a limit b hLimit hPrior hStep
  obtain ⟨hRated, hBucket⟩ := configureLimit_other rate
    (hSpares limit (List.mem_mergeSort.mp hLimit)) hStep
  exact ⟨hRated ∘ hPrior.1, hBucket.trans hPrior.2⟩

/-- Only configurations write limits, and only acquisitions write buckets otherwise. -/
theorem Effect.limits_eq {request : SchedulerRequest} (effect : Effect s request t)
    (hRequest : ∀ limits now, request ≠ .configure limits now) :
    t.limits = s.limits ∧ ((∀ r, request ≠ .acquire r) → t.buckets = s.buckets) := by
  cases effect with
  | configured => exact absurd rfl (hRequest _ _)
  | limited scan persist =>
      rw [persistBuckets_eq_ok persist]
      exact ⟨rfl, fun h => absurd rfl (h _)⟩
  | acquired granted =>
      rw [granted.paid_eq]
      exact ⟨rfl, fun h => absurd rfl (h _)⟩
  | _ => exact ⟨rfl, fun _ => rfl⟩

/-- A request that does not configure a scope keeps its rate, and unless it is an
acquisition it does not touch the bucket. -/
theorem step_other {request : SchedulerRequest} (hSpares : request.Spares scope)
    (rated : s.Rated scope rate) :
    (schedulerRepository.step s request).2.Rated scope rate ∧
    ((∀ r, request ≠ .acquire r) →
      (schedulerRepository.step s request).2.bucket scope.key = s.bucket scope.key ∧
      (schedulerRepository.step s request).1.granted = none) := by
  by_cases hConfigure : ∃ limits now, request = .configure limits now
  · obtain ⟨limits, now, rfl⟩ := hConfigure
    have hAnswer : (schedulerRepository.step s (.configure limits now)).1.granted = none := rfl
    suffices hKept : (schedulerRepository.step s (.configure limits now)).2.Rated scope rate ∧
        (schedulerRepository.step s (.configure limits now)).2.bucket scope.key =
          s.bucket scope.key from ⟨hKept.1, fun _ => ⟨hKept.2, hAnswer⟩⟩
    rcases transact_cases s (configureLimits s limits now) with ⟨u, next, hOk, hEq⟩ | ⟨e, -, hEq⟩
    · have hNext : (schedulerRepository.step s (.configure limits now)).2 = next :=
        congrArg Prod.snd hEq
      rw [hNext]
      exact (configureLimits_other hSpares hOk).imp_left fun h => h rated
    · have hNext : (schedulerRepository.step s (.configure limits now)).2 = s :=
        congrArg Prod.snd hEq
      rw [hNext]
      exact ⟨rated, rfl⟩
  · obtain ⟨hLimits, hBuckets⟩ := (step_effect s request).limits_eq fun limits now h =>
      hConfigure ⟨limits, now, h⟩
    refine ⟨?_, fun hRequest => ⟨?_, ?_⟩⟩
    · rw [SchedulerStore.Rated, hLimits]
      exact rated
    · rw [SchedulerStore.bucket, hBuckets hRequest]
      rfl
    · cases request with
      | acquire request => exact absurd rfl (hRequest request)
      | _ => rfl

/-! Runs. -/

/-- What the bucket of a scope can still pay for in a window, in shares of a token. -/
def SchedulerStore.budget (s : SchedulerStore) (scope : SchedulerScope) (rate : RatePolicy)
    (start stop : UnixMillis) : Nat :=
  (s.bucket scope.key).elim 0 fun bucket =>
    Meter.budget rate.ceiling rate.refillTokens start stop (bucket.level rate) bucket.updatedAt

/-- A granted request takes a token of the scope at a time in the window. -/
def ReservationRequest.spends (scope : SchedulerScope) (start stop : UnixMillis)
    (request : ReservationRequest) : Bool :=
  decide (scope ∈ request.scopes ∧ start ≤ request.now ∧ request.now ≤ stop)

theorem TokenBucketState.level_spend {bucket : TokenBucketState} {drawn : Nat}
    (h : drawn ≤ bucket.tokens) :
    (bucket.spend drawn).level rate = bucket.level rate - drawn * rate.interval := by
  have hShares : drawn * rate.interval ≤ bucket.tokens * rate.interval := Nat.mul_le_mul_right _ h
  change (bucket.tokens - drawn) * rate.interval + bucket.remainder = _
  rw [Nat.sub_mul, TokenBucketState.level]
  omega

theorem Polled.budget {drawn : Nat} (h : Polled s t scope rate now drawn)
    (start stop : UnixMillis) :
    (if start ≤ now ∧ now ≤ stop then drawn * rate.interval else 0) +
      t.budget scope rate start stop ≤ s.budget scope rate start stop := by
  obtain ⟨hValid, bucket, hOld, hClock, hDrawn, hNew⟩ := h
  obtain ⟨-, -, -, -, hInterval, -⟩ := RatePolicy.validate_bounds hValid
  have hShares : drawn * rate.interval ≤ bucket.filled rate now :=
    (Nat.le_div_iff_mul_le hInterval).mp hDrawn
  rw [SchedulerStore.budget, SchedulerStore.budget, hOld, hNew, Option.elim_some, Option.elim_some,
    TokenBucketState.level_spend hDrawn, TokenBucketState.level_ofLevel]
  exact Meter.budget_draw hClock hShares

/-- The tokens taken in one step are paid from the budget. -/
theorem step_budget {request : SchedulerRequest} (hSpares : request.Spares scope)
    (rated : s.Rated scope rate) (start stop : UnixMillis) :
    (schedulerRepository.step s request).1.granted.toList.countP
        (ReservationRequest.spends scope start stop) * rate.interval +
      (schedulerRepository.step s request).2.budget scope rate start stop ≤
        s.budget scope rate start stop := by
  -- Without a token taken it is enough that the budget did not grow.
  have hIdle {answer : Option ReservationRequest} {t : SchedulerStore}
      (hNone : ∀ granted, answer = some granted → scope ∉ granted.scopes)
      (h : t.budget scope rate start stop ≤ s.budget scope rate start stop) :
      answer.toList.countP (ReservationRequest.spends scope start stop) * rate.interval +
        t.budget scope rate start stop ≤ s.budget scope rate start stop := by
    have hZero : answer.toList.countP (ReservationRequest.spends scope start stop) = 0 := by
      refine List.countP_eq_zero.mpr fun granted hGranted hSpends => ?_
      exact hNone granted (Option.mem_toList.mp hGranted) (of_decide_eq_true hSpends).1
    rwa [hZero, Nat.zero_mul, Nat.zero_add]
  have hSame {t : SchedulerStore} (h : t.bucket scope.key = s.bucket scope.key) :
      t.budget scope rate start stop ≤ s.budget scope rate start stop := by
    rw [SchedulerStore.budget, h]
    exact le_rfl
  by_cases hAcquire : ∃ r, request = .acquire r
  · obtain ⟨r, rfl⟩ := hAcquire
    rcases acquire_bucket rated r with ⟨hBucket, hNone⟩ | ⟨hPolled, hNone⟩ | ⟨hPolled, hSome, hScope⟩
    · exact hIdle hNone (hSame hBucket)
    · refine hIdle (fun granted h => by rw [hNone] at h; cases h) ?_
      exact (Nat.le_add_left _ _).trans (hPolled.budget start stop)
    · rw [hSome, Option.toList_some, List.countP_singleton]
      refine le_trans (le_of_eq ?_) (hPolled.budget start stop)
      congr 1
      simp [ReservationRequest.spends, hScope]
  · obtain ⟨hBucket, hNone⟩ := (step_other hSpares rated).2 fun r h => hAcquire ⟨r, h⟩
    exact hIdle (fun granted h => by rw [hNone] at h; cases h) (hSame hBucket)

/-- The tokens taken in a run are paid from the budget at its start. -/
theorem run_budget {requests : List SchedulerRequest}
    (hSpares : ∀ request ∈ requests, request.Spares scope) (rated : s.Rated scope rate)
    (start stop : UnixMillis) :
    ((schedulerRepository.answers s requests).filterMap (·.granted)).countP
        (ReservationRequest.spends scope start stop) * rate.interval ≤
      s.budget scope rate start stop := by
  induction requests generalizing s with
  | nil => exact (Nat.zero_mul _).le.trans (Nat.zero_le _)
  | cons request requests ih =>
      rw [List.forall_mem_cons] at hSpares
      have hStep := step_budget hSpares.1 rated start stop
      have hRest := ih hSpares.2 (step_other hSpares.1 rated).1
      rw [Machine.answers, List.filterMap_cons]
      cases hGranted : (schedulerRepository.step s request).1.granted with
      | none =>
          rw [hGranted, Option.toList_none, List.countP_nil, Nat.zero_mul, Nat.zero_add] at hStep
          exact hRest.trans hStep
      | some granted =>
          rw [hGranted, Option.toList_some, List.countP_singleton] at hStep
          rw [List.countP_cons, Nat.add_mul, Nat.add_comm]
          exact (Nat.add_le_add_left hRest _).trans hStep

end

/-- Token buckets are exact. Polling a bucket in between changes nothing, its tokens
are what the elapsed time and the remainder are worth, and the acquisitions of any
run that does not configure the scope anew take at most a full bucket and what flows
in during a window. -/
theorem token_buckets_exact :
    (∀ (limit : SchedulingLimit) (policy : RatePolicy), limit.validate = true →
      limit.rate = some policy → ∀ (state : TokenBucketState) (t₁ t₂ : UnixMillis),
      state.updatedAt ≤ t₁ → t₁ ≤ t₂ →
      ((refillBucket state policy t₁).bind fun next => refillBucket next policy t₂) =
        refillBucket state policy t₂ ∧
      ∃ next, refillBucket state policy t₂ = some next ∧
        next.tokens = min policy.capacity (state.tokens +
          ((t₂ - state.updatedAt).toNat * policy.refillTokens + state.remainder) /
            policy.refillIntervalMs.toNat)) ∧
    ∀ (s : SchedulerStore) (scope : SchedulerScope) (limit : StoredLimit) (policy : RatePolicy),
      s.loadLimit scope.key = .ok limit → limit.policy.rate = some policy →
      ∀ requests : List SchedulerRequest, (∀ request ∈ requests, request.Spares scope) →
      ∀ (start : UnixMillis) (d : Nat),
      ((schedulerRepository.answers s requests).filterMap (·.granted)).countP
          (fun request => decide (scope ∈ request.scopes ∧ start ≤ request.now ∧
            request.now ≤ start + d)) ≤
        policy.capacity + (d * policy.refillTokens) ⌈/⌉ policy.refillIntervalMs.toNat := by
  constructor
  · intro limit policy hLimit hRate state t₁ t₂ hFirst hSecond
    have hValid : policy.validate = true := by
      rw [SchedulingLimit.validate, hRate, Bool.and_eq_true] at hLimit
      exact hLimit.2
    exact ⟨refillBucket_refillBucket hValid hFirst hSecond, _,
      refillBucket_eq hValid (hFirst.trans hSecond), refillBucket_tokens hValid⟩
  · intro s scope limit policy hLoad hRate requests hSpares start d
    have hValid := loadLimit_valid hLoad hRate
    obtain ⟨-, -, -, -, hInterval, -⟩ := RatePolicy.validate_bounds hValid
    obtain ⟨row, hRow, hPolicy, -⟩ := loadLimit_policy hLoad
    have hPaid := run_budget hSpares ⟨row, hRow, hPolicy ▸ hRate⟩ start (start + d)
    have hBudget : s.budget scope policy start (start + d) ≤
        policy.ceiling + d * policy.refillTokens := by
      unfold SchedulerStore.budget
      cases s.bucket scope.key with
      | none => exact Nat.zero_le _
      | some bucket =>
          refine (Meter.budget_le _ _ _ _).trans_eq ?_
          rw [add_sub_cancel_left, Int.toNat_natCast]
    have hShares : policy.ceiling + d * policy.refillTokens ≤
        (policy.capacity + (d * policy.refillTokens) ⌈/⌉ policy.interval) * policy.interval := by
      rw [Nat.add_mul, RatePolicy.ceiling, Nat.mul_comm (_ ⌈/⌉ _)]
      exact Nat.add_le_add_left ((ceilDiv_le_iff_le_mul hInterval).mp le_rfl) _
    exact Nat.le_of_mul_le_mul_right (hPaid.trans (hBudget.trans hShares)) hInterval

/-- Two tokens a second, at most three at once. -/
def demoRate : RatePolicy := ⟨3, 2, 1000⟩

def demoRequest (id : String) (now : UnixMillis) : ReservationRequest :=
  ⟨1, id, "job", "cup", "match-" ++ id, "run", "harness", "provider",
    "0123456789abcdef0123456789abcdef0123456789abcdef0123456789abcdef", "worker", now, 1000⟩

/-- One metered scope and three that only limit concurrency. -/
def demoLimits (rate : RatePolicy) : List LimitRow :=
  [⟨"global", ⟨1, .global, 9, some rate⟩, 0, 0⟩,
    ⟨"tournament:cup", ⟨1, .tournament "cup", 9, none⟩, 0, 0⟩,
    ⟨"harness:harness", ⟨1, .harness "harness", 9, none⟩, 0, 0⟩,
    ⟨"provider:provider", ⟨1, .provider "provider", 9, none⟩, 0, 0⟩]

def demoStore : SchedulerStore :=
  { SchedulerStore.empty with
    limits := demoLimits demoRate
    buckets := [⟨"global", ⟨1, 300, 0⟩⟩] }

/-- Of four acquisitions within 200 milliseconds the bucket pays for one. -/
def demoPolls : List SchedulerRequest :=
  [.acquire (demoRequest "a" 0), .acquire (demoRequest "b" 100), .acquire (demoRequest "c" 150),
    .acquire (demoRequest "d" 200)]

theorem token_buckets_exact_demo :
    (((refillBucket ⟨0, 300, 0⟩ demoRate 100).bind fun next => refillBucket next demoRate 350) =
        refillBucket ⟨0, 300, 0⟩ demoRate 350 ∧
      ∃ next, refillBucket ⟨0, 300, 0⟩ demoRate 350 = some next ∧ next.tokens = 1) ∧
    ((schedulerRepository.answers demoStore demoPolls).filterMap (·.granted)).countP
        (fun request => decide (SchedulerScope.global ∈ request.scopes ∧ (0 : UnixMillis) ≤ request.now ∧
          request.now ≤ (0 : UnixMillis) + (200 : Nat))) ≤ 4 := by
  obtain ⟨hRefill, hRun⟩ := token_buckets_exact
  refine ⟨hRefill ⟨1, .global, 9, some demoRate⟩ demoRate (by decide) rfl ⟨0, 300, 0⟩ 100 350
    (by decide) (by decide), ?_⟩
  refine hRun demoStore .global ⟨⟨1, .global, 9, some demoRate⟩, some ⟨1, 300, 0⟩⟩ demoRate (by rfl) rfl
    demoPolls ?_ 0 200
  intro request hRequest
  simp only [demoPolls, List.mem_cons, List.not_mem_nil, or_false] at hRequest
  rcases hRequest with rfl | rfl | rfl | rfl <;> trivial

end WordArena.Scheduler
