import Mathlib.Data.List.Count
import Mathlib.Data.List.Forall2
import WordArena.Library.Slots
import WordArena.Scheduler.Refill
import WordArena.Scheduler.Transition

/-! Concurrency limits hold in every reachable state, and only a granted
acquisition reserves a scope or takes a token. -/
namespace WordArena.Scheduler

open Fallible WordArena.Application

/-- The first letter of a key tells the kind of its scope. -/
def SchedulerScope.initial : SchedulerScope → Char
  | .global => 'g'
  | .tournament _ => 't'
  | .harness _ => 'h'
  | .provider _ => 'p'

theorem SchedulerScope.head_key (scope : SchedulerScope) :
    scope.key.toList.head? = some scope.initial := by
  cases scope <;> simp [SchedulerScope.key, SchedulerScope.initial]

theorem SchedulerScope.key_injective : Function.Injective SchedulerScope.key := by
  intro a b h
  have hInitial : a.initial = b.initial := by
    have hHead := a.head_key
    rw [h, b.head_key] at hHead
    exact (Option.some.inj hHead).symm
  cases a <;> cases b <;> simp_all [SchedulerScope.key, SchedulerScope.initial]

theorem ReservationRequest.scopes_nodup (request : ReservationRequest) : request.scopes.Nodup := by
  simp [ReservationRequest.scopes]

/-! Live reservations of a scope. -/

def ReservationRow.occupies (scope : SchedulerScope) (row : ReservationRow) : Bool :=
  row.isLive && decide (scope ∈ row.request.scopes)

def SchedulerStore.occupancy (s : SchedulerStore) (scope : SchedulerScope) : Nat :=
  s.reservations.countP (ReservationRow.occupies scope)

/-- Reservations with their scope rows, the limits they count against and the
ceilings they respect. -/
structure Bounded (s : SchedulerStore) : Prop where
  limitKeys : (s.limits.map (·.scopeKey)).Nodup
  ids : (s.reservations.map (·.request.reservationId)).Nodup
  joined : s.scopes = s.reservations.flatMap fun row => row.request.scopeRows
  limited : ∀ row ∈ s.reservations, ∀ scope ∈ row.request.scopes,
    scope.key ∈ s.limits.map (·.scopeKey)
  capacity : ∀ limit ∈ s.limits, ∀ scope : SchedulerScope, scope.key = limit.scopeKey →
    s.occupancy scope ≤ limit.policy.maxConcurrency
  oneLive : ((s.reservations.filter (·.isLive)).map (·.request.matchId)).Nodup

section

variable {s t : SchedulerStore}

/-- The join through the scope rows counts the live reservations of a scope. -/
theorem Bounded.activeCount_eq (h : Bounded s) (scope : SchedulerScope) :
    s.activeCount scope.key = s.occupancy scope := by
  rw [SchedulerStore.activeCount, h.joined]
  refine Table.countP_flatMap fun row hRow => ?_
  have hAny : (s.reservations.any fun other =>
      other.request.reservationId = row.request.reservationId && other.isLive) = row.isLive := by
    rw [Bool.eq_iff_iff, List.any_eq_true]
    constructor
    · rintro ⟨other, hOther, hHit⟩
      rw [Bool.and_eq_true, decide_eq_true_eq] at hHit
      obtain rfl : other = row := Table.eq_of_key h.ids hOther hRow hHit.1
      exact hHit.2
    · intro hLive
      exact ⟨row, hRow, by simp [hLive]⟩
  have hScope : row.request.scopes.countP (fun other => decide (other.key = scope.key)) =
      if scope ∈ row.request.scopes then 1 else 0 := by
    rw [← row.request.scopes_nodup.count, List.count]
    refine List.countP_congr fun other _ => ?_
    simp [SchedulerScope.key_injective.eq_iff]
  rw [ReservationRequest.scopeRows, List.countP_map]
  simp only [Function.comp_def, hAny, ReservationRow.occupies]
  by_cases hLive : row.isLive = true
  · simpa [hLive] using hScope
  · simp [hLive]

/-- A change of selected rows that keeps the request and revives none. -/
structure Retires (hit : ReservationRow → Bool) (change : ReservationRow → ReservationRow) :
    Prop where
  request : ∀ row, (change row).request = row.request
  live : ∀ row, hit row = true → (change row).isLive = true → row.isLive = true

theorem Bounded.update (h : Bounded s) {hit : ReservationRow → Bool}
    {change : ReservationRow → ReservationRow} (retires : Retires hit change)
    (controls : List ControlRow) (results : List ResultRow) :
    Bounded { s with controls, results, reservations := Table.update hit change s.reservations } := by
  have hColumn {κ : Type} (f : ReservationRequest → κ) :
      (Table.update hit change s.reservations).map (fun row => f row.request) =
        s.reservations.map (fun row => f row.request) :=
    Table.map_update fun row => congrArg f (retires.request row)
  refine ⟨h.limitKeys, ?_, ?_, ?_, ?_, ?_⟩
  · rw [hColumn ReservationRequest.reservationId]
    exact h.ids
  · refine h.joined.trans ?_
    change _ = List.flatMap _ (Table.update hit change s.reservations)
    rw [List.flatMap_def, List.flatMap_def, hColumn ReservationRequest.scopeRows]
  · intro row hRow scope hScope
    obtain ⟨old, hOld, rfl⟩ := Table.mem_update.mp hRow
    refine h.limited old hOld scope ?_
    split at hScope
    · rwa [retires.request] at hScope
    · exact hScope
  · intro limit hLimit scope hKey
    refine le_trans (Table.countP_update_le fun row hHit hRow => ?_)
      (h.capacity limit hLimit scope hKey)
    simp only [ReservationRow.occupies, Bool.and_eq_true, retires.request] at hRow ⊢
    exact ⟨retires.live row hHit hRow.1, hRow.2⟩
  · exact Table.nodup_filter_update h.oneLive
      (fun row => congrArg ReservationRequest.matchId (retires.request row)) retires.live

/-- A limit is written only while its scope is idle, so any ceiling holds. -/
theorem Bounded.configureLimit (h : Bounded s) {limit : SchedulingLimit} {now : UnixMillis}
    (hStep : configureLimit now s limit = .ok t) : Bounded t := by
  obtain ⟨_, hIdle, hStep⟩ := bind_eq_ok.mp hStep
  obtain ⟨limits, hWrite, hStep⟩ := bind_eq_ok.mp hStep
  have hIdle := not_not.mp (reject_eq_ok.mp hIdle)
  have hEmpty (scope : SchedulerScope) (hKey : scope.key = limit.scope.key) :
      s.occupancy scope = 0 := by
    rw [← h.activeCount_eq, hKey, hIdle]
  cases pure_eq_ok.mp hStep
  unfold SchedulerStore.upsertLimit at hWrite
  simp only at hWrite
  split at hWrite
  · rename_i hFresh
    cases pure_eq_ok.mp hWrite
    have hNew : limit.scope.key ∉ s.limits.map (·.scopeKey) := by
      rintro hMem
      obtain ⟨row, hRow, hKey⟩ := List.mem_map.mp hMem
      simpa [hKey] using List.find?_eq_none.mp hFresh row hRow
    refine ⟨?_, h.ids, h.joined, ?_, ?_, h.oneLive⟩
    · rw [List.map_append, List.map_singleton]
      exact List.nodup_append.mpr ⟨h.limitKeys, List.nodup_singleton _,
        fun a ha b hb hEq => hNew (by rwa [hEq, List.mem_singleton.mp hb] at ha)⟩
    · intro row hRow scope hScope
      rw [List.map_append]
      exact List.mem_append_left _ (h.limited row hRow scope hScope)
    · intro other hOther scope hKey
      rw [List.mem_append, List.mem_singleton] at hOther
      rcases hOther with hOld | rfl
      · exact h.capacity other hOld scope hKey
      · exact hEmpty scope hKey ▸ Nat.zero_le _
  · obtain ⟨-, rfl⟩ := Table.updateWhere_eq_some.mp (okOr_eq_ok.mp hWrite)
    have hKeys : (Table.update (fun row => row.scopeKey = limit.scope.key)
        (fun row => { row with policy := limit, updatedAt := now }) s.limits).map
          (·.scopeKey) = s.limits.map (·.scopeKey) :=
      Table.map_update fun _ => rfl
    refine ⟨hKeys ▸ h.limitKeys, h.ids, h.joined, ?_, ?_, h.oneLive⟩
    · intro row hRow scope hScope
      rw [hKeys]
      exact h.limited row hRow scope hScope
    · intro other hOther scope hKey
      obtain ⟨old, hOld, rfl⟩ := Table.mem_update.mp hOther
      split at hKey
      · rename_i hHit
        exact hEmpty scope (hKey.trans (of_decide_eq_true hHit)) ▸ Nat.zero_le _
      · rename_i hMiss
        rw [if_neg hMiss]
        exact h.capacity old hOld scope hKey

/-! What a scan of the scopes finds. -/

theorem loadLimit_eq_ok {key : String} {limit : StoredLimit} (h : s.loadLimit key = .ok limit) :
    limit.policy.scope.key = key ∧ limit.policy.validate = true ∧
      (∃ row ∈ s.limits, row.scopeKey = key ∧ row.policy = limit.policy) ∧
      ∀ bucket, limit.bucket = some bucket → (∃ rate, limit.policy.rate = some rate) ∧
        ∃ row, s.buckets.find? (fun row => row.scopeKey = key) = some row ∧ row.state = bucket := by
  obtain ⟨row, hRow, h⟩ := bind_eq_ok.mp h
  obtain ⟨_, hKey, h⟩ := bind_eq_ok.mp h
  obtain ⟨_, hValid, h⟩ := bind_eq_ok.mp h
  have hRow := okOr_eq_ok.mp hRow
  have hKey := not_not.mp (not_or.mp (reject_eq_ok.mp hKey)).1
  have hValid : row.policy.validate = true := by simpa using reject_eq_ok.mp hValid
  have hStored : ∃ stored ∈ s.limits, stored.scopeKey = key ∧ stored.policy = row.policy :=
    ⟨row, List.mem_of_find?_eq_some hRow, by simpa using List.find?_some hRow, rfl⟩
  split at h
  · rename_i hRate
    obtain ⟨bucket, hBucket, h⟩ := bind_eq_ok.mp h
    cases pure_eq_ok.mp h
    refine ⟨hKey, hValid, hStored, fun state hState => ?_⟩
    cases hState
    exact ⟨Option.isSome_iff_exists.mp hRate, bucket, okOr_eq_ok.mp hBucket, rfl⟩
  · cases pure_eq_ok.mp h
    exact ⟨hKey, hValid, hStored, nofun⟩

/-- A refilled bucket lost no token and holds no more than its capacity. -/
theorem refillBucket_within {state next : TokenBucketState} {policy : RatePolicy}
    {now : UnixMillis} (h : refillBucket state policy now = some next)
    (hValid : policy.validate = true) :
    next.tokens ≤ policy.capacity ∧
      (state.tokens ≤ policy.capacity → state.tokens ≤ next.tokens) := by
  obtain ⟨-, rfl⟩ := (refillBucket_eq_some hValid).mp h
  rw [refillBucket_tokens hValid]
  exact ⟨min_le_left _ _, fun hWithin => le_min hWithin (Nat.le_add_right _ _)⟩

/-- What the scan makes of a scope: its limit as loaded, with the bucket refilled. -/
inductive Scanned (s : SchedulerStore) (now : UnixMillis) (scope : SchedulerScope) :
    StoredLimit → Prop where
  | metered {policy : SchedulingLimit} {rate : RatePolicy} {bucket refilled : TokenBucketState}
      (load : s.loadLimit scope.key = .ok ⟨policy, some bucket⟩) (rated : policy.rate = some rate)
      (refill : refillBucket bucket rate now = some refilled) :
      Scanned s now scope ⟨policy, some refilled⟩
  | unmetered {policy : SchedulingLimit} (load : s.loadLimit scope.key = .ok ⟨policy, none⟩) :
      Scanned s now scope ⟨policy, none⟩

/-- When the limit lets a request through again, if its bucket is empty. -/
def StoredLimit.retryAt (now : UnixMillis) (limit : StoredLimit) : Option UnixMillis :=
  match limit.policy.rate, limit.bucket with
  | some rate, some bucket => if bucket.tokens = 0 then tokenRetryAt bucket rate now else none
  | _, _ => none

theorem StoredLimit.retryAt_metered {policy : SchedulingLimit} {rate : RatePolicy}
    (h : policy.rate = some rate) (bucket : TokenBucketState) (now : UnixMillis) :
    StoredLimit.retryAt now ⟨policy, some bucket⟩ =
      if bucket.tokens = 0 then tokenRetryAt bucket rate now else none := by
  simp [StoredLimit.retryAt, h]

@[simp] theorem StoredLimit.retryAt_unmetered (policy : SchedulingLimit) (now : UnixMillis) :
    StoredLimit.retryAt now ⟨policy, none⟩ = none := by
  simp [StoredLimit.retryAt]

theorem maxTime_none (time : Option UnixMillis) : maxTime time none = time := by
  cases time <;> rfl

/-- A scan goes through the scopes in order and meets none that is full. -/
theorem scanScopes_eq_ok {now : UnixMillis} {scopes : List SchedulerScope}
    {stored found : List StoredLimit} {retryAt latest : Option UnixMillis}
    (h : scanScopes s now scopes stored retryAt = .ok (some (found, latest))) :
    ∃ scanned, found = stored ++ scanned ∧
      List.Forall₂ (fun scope limit => Scanned s now scope limit ∧
        s.activeCount scope.key < limit.policy.maxConcurrency) scopes scanned ∧
      latest = scanned.foldl (fun time limit => maxTime time (limit.retryAt now)) retryAt := by
  induction scopes generalizing stored retryAt with
  | nil =>
      cases pure_eq_ok.mp h
      exact ⟨[], (List.append_nil _).symm, .nil, rfl⟩
  | cons scope scopes ih =>
      obtain ⟨⟨policy, bucket?⟩, hLoad, h⟩ := bind_eq_ok.mp h
      split at h
      · cases pure_eq_ok.mp h
      rename_i hRoom
      have hRoom := Nat.lt_of_not_le hRoom
      split at h
      · rename_i rate bucket hRate hSome
        subst hSome
        obtain ⟨refilled, hRefill, h⟩ := bind_eq_ok.mp h
        obtain ⟨scanned, rfl, hScanned, rfl⟩ := ih h
        refine ⟨⟨policy, some refilled⟩ :: scanned, List.append_assoc _ _ _,
          .cons ⟨.metered hLoad hRate (okOr_eq_ok.mp hRefill), hRoom⟩ hScanned, ?_⟩
        rw [List.foldl_cons, StoredLimit.retryAt_metered hRate]
        congr 1
        split
        · rfl
        · exact (maxTime_none retryAt).symm
      · rename_i hNone
        obtain ⟨scanned, rfl, hScanned, rfl⟩ := ih h
        have hBare : bucket? = none := by
          refine Option.eq_none_iff_forall_ne_some.mpr fun bucket hBucket => ?_
          obtain ⟨⟨rate, hRate⟩, -⟩ := (loadLimit_eq_ok hLoad).2.2.2 bucket hBucket
          exact hNone rate bucket hRate hBucket
        subst hBare
        refine ⟨⟨policy, none⟩ :: scanned, List.append_assoc _ _ _,
          .cons ⟨.unmetered hLoad, hRoom⟩ hScanned, ?_⟩
        rw [List.foldl_cons, StoredLimit.retryAt_unmetered, maxTime_none]

/-- A loaded limit whose bucket, if any, was refilled. -/
structure Refilled (s : SchedulerStore) (limit : StoredLimit) : Prop where
  valid : limit.policy.validate = true
  stored : ∃ row ∈ s.limits, row.scopeKey = limit.policy.scope.key ∧ row.policy = limit.policy
  bucket : ∀ state, limit.bucket = some state → ∃ rate row now, limit.policy.rate = some rate ∧
    s.buckets.find? (fun row => row.scopeKey = limit.policy.scope.key) = some row ∧
    refillBucket row.state rate now = some state

theorem Scanned.refilled {now : UnixMillis} {scope : SchedulerScope} {limit : StoredLimit}
    (h : Scanned s now scope limit) : Refilled s limit := by
  cases h with
  | @metered policy rate bucket refilled hLoad hRate hRefill =>
      obtain ⟨hKey, hValid, hStored, hBucket⟩ := loadLimit_eq_ok hLoad
      obtain ⟨-, row, hRow, rfl⟩ := hBucket bucket rfl
      rw [← hKey] at hStored hRow
      refine ⟨hValid, hStored, fun state hState => ?_⟩
      cases hState
      exact ⟨rate, row, now, hRate, hRow, hRefill⟩
  | unmetered hLoad =>
      obtain ⟨hKey, hValid, hStored, -⟩ := loadLimit_eq_ok hLoad
      rw [← hKey] at hStored
      exact ⟨hValid, hStored, nofun⟩

theorem scanScopes_refilled {now : UnixMillis} {scopes : List SchedulerScope}
    {found : List StoredLimit} {latest : Option UnixMillis}
    (h : scanScopes s now scopes [] none = .ok (some (found, latest))) :
    ∀ limit ∈ found, Refilled s limit := by
  obtain ⟨scanned, rfl, hScanned, -⟩ := scanScopes_eq_ok h
  intro limit hLimit
  obtain ⟨scope, -, hHere, -⟩ := Slots.exists_of_forall₂_right hScanned hLimit
  exact hHere.refilled

/-! Buckets. -/

/-- Every bucket belongs to a rate and holds no more than its capacity. -/
structure Funded (s : SchedulerStore) : Prop where
  keys : (s.buckets.map (·.scopeKey)).Nodup
  within : ∀ bucket ∈ s.buckets, ∀ limit ∈ s.limits, limit.scopeKey = bucket.scopeKey →
    ∃ rate, limit.policy.rate = some rate ∧ bucket.state.tokens ≤ rate.capacity

/-- Persisted buckets keep their keys, and every state written satisfies what
all candidates for its row do. -/
theorem persistBuckets_buckets {limits : List StoredLimit} {ok : BucketRow → TokenBucketState → Prop}
    (h : persistBuckets s limits = .ok t) (same : ∀ row ∈ s.buckets, ok row row.state)
    (written : ∀ limit ∈ limits, ∀ state, limit.bucket = some state → ∀ row ∈ s.buckets,
      row.scopeKey = limit.policy.scope.key → ok row state) :
    ∃ f : BucketRow → BucketRow, t.buckets = s.buckets.map f ∧
      ∀ row ∈ s.buckets, (f row).scopeKey = row.scopeKey ∧ ok row (f row).state := by
  refine foldlM_invariant (fun t => ∃ f : BucketRow → BucketRow, t.buckets = s.buckets.map f ∧
    ∀ row ∈ s.buckets, (f row).scopeKey = row.scopeKey ∧ ok row (f row).state) h
    ⟨id, (List.map_id _).symm, fun row hRow => ⟨rfl, same row hRow⟩⟩ ?_
  rintro a limit b hLimit ⟨f, hBuckets, hf⟩ hStep
  unfold persistBucket at hStep
  split at hStep
  · cases pure_eq_ok.mp hStep
    exact ⟨f, hBuckets, hf⟩
  · rename_i state hState
    obtain ⟨_, -, hStep⟩ := bind_eq_ok.mp hStep
    cases pure_eq_ok.mp hStep
    refine ⟨fun row => if (f row).scopeKey = limit.policy.scope.key then { f row with state } else f row,
      ?_, fun row hRow => ?_⟩
    · simp [Table.update, hBuckets]
    · obtain ⟨hKey, hOk⟩ := hf row hRow
      dsimp only
      split
      · rename_i hHit
        exact ⟨hKey, written limit hLimit state hState row hRow (hKey ▸ hHit)⟩
      · exact ⟨hKey, hOk⟩

/-- The state of a refilled limit was refilled from the only row of its key. -/
theorem Refilled.tokens {limit : StoredLimit} (h : Refilled s limit) (funded : Funded s)
    {state : TokenBucketState} (hState : limit.bucket = some state) {row : BucketRow}
    (hRow : row ∈ s.buckets) (hKey : row.scopeKey = limit.policy.scope.key) :
    ∃ rate, limit.policy.rate = some rate ∧ state.tokens ≤ rate.capacity ∧
      row.state.tokens ≤ state.tokens := by
  obtain ⟨rate, found, now, hRate, hFind, hRefill⟩ := h.bucket state hState
  have hFound : row = found := by
    have hFoundKey : found.scopeKey = limit.policy.scope.key := by simpa using List.find?_some hFind
    exact Table.eq_of_key funded.keys hRow (List.mem_of_find?_eq_some hFind)
      (hKey.trans hFoundKey.symm)
  subst hFound
  have hValid : rate.validate = true := by
    have hPolicy := h.valid
    simp only [SchedulingLimit.validate, hRate, Option.all_some, Bool.and_eq_true] at hPolicy
    exact hPolicy.2
  obtain ⟨hUpper, hLower⟩ := refillBucket_within hRefill hValid
  obtain ⟨stored, hStored, hStoredKey, hPolicy⟩ := h.stored
  obtain ⟨rate', hRate', hWithin⟩ := funded.within row hRow stored hStored (hStoredKey.trans hKey.symm)
  rw [hPolicy, hRate, Option.some.injEq] at hRate'
  exact ⟨rate, hRate, hUpper, hLower (hRate' ▸ hWithin)⟩

theorem consumeToken_eq_ok {limit consumed : StoredLimit} (h : consumeToken limit = .ok consumed) :
    consumed.policy = limit.policy ∧ ∀ state, consumed.bucket = some state →
      ∃ old, limit.bucket = some old ∧ state.tokens ≤ old.tokens := by
  unfold consumeToken at h
  split at h
  · cases pure_eq_ok.mp h
    exact ⟨rfl, fun state hState => ⟨state, hState, le_rfl⟩⟩
  · rename_i old hOld
    obtain ⟨_, -, h⟩ := bind_eq_ok.mp h
    cases pure_eq_ok.mp h
    refine ⟨rfl, fun state hState => ⟨old, hOld, ?_⟩⟩
    cases hState
    exact Nat.sub_le _ _

/-- Tokens within the capacity of every limit of a key. -/
def Within (s : SchedulerStore) (row : BucketRow) (state : TokenBucketState) : Prop :=
  ∀ limit ∈ s.limits, limit.scopeKey = row.scopeKey →
    ∃ rate, limit.policy.rate = some rate ∧ state.tokens ≤ rate.capacity

theorem Refilled.within {limit : StoredLimit} (h : Refilled s limit) (bounded : Bounded s)
    (funded : Funded s) {state : TokenBucketState} (hState : limit.bucket = some state)
    {row : BucketRow} (hRow : row ∈ s.buckets) (hKey : row.scopeKey = limit.policy.scope.key) :
    Within s row state := by
  intro other hOther hOtherKey
  obtain ⟨rate, hRate, hUpper, -⟩ := h.tokens funded hState hRow hKey
  obtain ⟨stored, hStored, hStoredKey, hPolicy⟩ := h.stored
  obtain rfl : other = stored := Table.eq_of_key bounded.limitKeys hOther hStored
    ((hOtherKey.trans hKey).trans hStoredKey.symm)
  exact ⟨rate, hPolicy ▸ hRate, hUpper⟩

/-- Buckets written under the limits they were loaded with stay funded. -/
theorem Funded.persist (funded : Funded s) {limits : List StoredLimit}
    (h : persistBuckets s limits = .ok t)
    (written : ∀ limit ∈ limits, ∀ state, limit.bucket = some state → ∀ row ∈ s.buckets,
      row.scopeKey = limit.policy.scope.key → Within s row state) : Funded t := by
  obtain ⟨f, hBuckets, hf⟩ := persistBuckets_buckets h (fun row hRow => funded.within row hRow) written
  have hLimits : t.limits = s.limits := by rw [persistBuckets_eq_ok h]
  constructor
  · have hKeys : t.buckets.map (·.scopeKey) = s.buckets.map (·.scopeKey) := by
      rw [hBuckets, List.map_map]
      exact List.map_congr_left fun row hRow => (hf row hRow).1
    exact hKeys ▸ funded.keys
  · intro bucket hBucket limit hLimit hKey
    rw [hBuckets] at hBucket
    obtain ⟨row, hRow, rfl⟩ := List.mem_map.mp hBucket
    exact (hf row hRow).2 limit (hLimits ▸ hLimit) (hKey.trans (hf row hRow).1)

/-- A reset bucket is full, and the others stay. -/
theorem mem_resetBucket {limit : SchedulingLimit} {now : UnixMillis} {bucket : BucketRow}
    (h : bucket ∈ s.resetBucket limit now) :
    (bucket ∈ s.buckets ∧ bucket.scopeKey ≠ limit.scope.key) ∨
      bucket.scopeKey = limit.scope.key ∧
        ∃ rate, limit.rate = some rate ∧ bucket.state.tokens = rate.capacity := by
  unfold SchedulerStore.resetBucket at h
  simp only at h
  split at h
  · exact .inl (by simpa using h)
  · rename_i rate hRate
    split at h
    · obtain ⟨old, hOld, rfl⟩ := Table.mem_update.mp h
      split
      · rename_i hHit
        exact .inr ⟨of_decide_eq_true hHit, rate, hRate, rfl⟩
      · rename_i hMiss
        exact .inl ⟨hOld, fun hEq => hMiss (decide_eq_true hEq)⟩
    · rename_i hNone
      rw [List.mem_append, List.mem_singleton] at h
      rcases h with hOld | rfl
      · refine .inl ⟨hOld, fun hEq => hNone (List.any_eq_true.mpr ⟨bucket, hOld, ?_⟩)⟩
        exact decide_eq_true hEq
      · exact .inr ⟨rfl, rate, hRate, rfl⟩

theorem resetBucket_keys (h : (s.buckets.map (·.scopeKey)).Nodup) (limit : SchedulingLimit)
    (now : UnixMillis) : ((s.resetBucket limit now).map (·.scopeKey)).Nodup := by
  unfold SchedulerStore.resetBucket
  simp only
  split
  · exact h.sublist (List.filter_sublist.map _)
  · split
    · have hKeys := h
      rwa [← Table.map_update] at hKeys
      exact fun _ => rfl
    · rename_i hNone
      rw [List.map_append, List.map_singleton]
      refine List.nodup_append.mpr ⟨h, List.nodup_singleton _, fun a ha b hb hEq => hNone ?_⟩
      rw [hEq, List.mem_singleton.mp hb] at ha
      obtain ⟨row, hRow, hKey⟩ := List.mem_map.mp ha
      exact List.any_eq_true.mpr ⟨row, hRow, decide_eq_true hKey⟩

/-- Limits of other keys are the old ones, and this key has the new policy. -/
theorem mem_upsertLimit {limit : SchedulingLimit} {now : UnixMillis} {limits : List LimitRow}
    (h : s.upsertLimit limit now = .ok limits) {row : LimitRow} (hRow : row ∈ limits) :
    (row ∈ s.limits ∧ row.scopeKey ≠ limit.scope.key) ∨
      (row.scopeKey = limit.scope.key ∧ row.policy = limit) := by
  unfold SchedulerStore.upsertLimit at h
  simp only at h
  split at h
  · rename_i hFresh
    cases pure_eq_ok.mp h
    rw [List.mem_append, List.mem_singleton] at hRow
    rcases hRow with hOld | rfl
    · exact .inl ⟨hOld, by simpa using List.find?_eq_none.mp hFresh row hOld⟩
    · exact .inr ⟨rfl, rfl⟩
  · obtain ⟨-, rfl⟩ := Table.updateWhere_eq_some.mp (okOr_eq_ok.mp h)
    obtain ⟨old, hOld, rfl⟩ := Table.mem_update.mp hRow
    split
    · rename_i hHit
      exact .inr ⟨of_decide_eq_true hHit, rfl⟩
    · rename_i hMiss
      exact .inl ⟨hOld, fun hEq => hMiss (decide_eq_true hEq)⟩

theorem Funded.configureLimit (funded : Funded s) {limit : SchedulingLimit} {now : UnixMillis}
    (hStep : configureLimit now s limit = .ok t) : Funded t := by
  obtain ⟨_, -, hStep⟩ := bind_eq_ok.mp hStep
  obtain ⟨limits, hWrite, hStep⟩ := bind_eq_ok.mp hStep
  cases pure_eq_ok.mp hStep
  refine ⟨resetBucket_keys funded.keys limit now, fun bucket hBucket row hRow hKey => ?_⟩
  rcases mem_resetBucket hBucket with ⟨hOld, hOther⟩ | ⟨hSame, rate, hRate, hTokens⟩
  · rcases mem_upsertLimit hWrite hRow with ⟨hStored, -⟩ | ⟨hHere, -⟩
    · exact funded.within bucket hOld row hStored hKey
    · exact absurd (hKey.symm.trans hHere) hOther
  · rcases mem_upsertLimit hWrite hRow with ⟨-, hElse⟩ | ⟨-, hPolicy⟩
    · exact absurd (hKey.trans hSame) hElse
    · exact ⟨rate, by rw [hPolicy, hRate], Nat.le_of_eq hTokens⟩

/-! Whole runs. -/

/-- A granted request finds room in each of its scopes. -/
theorem Granted.room {request : ReservationRequest} {expiresAt : UnixMillis} {paid : SchedulerStore}
    (h : Granted s request expiresAt paid) {scope : SchedulerScope} (hScope : scope ∈ request.scopes) :
    ∃ row ∈ s.limits, row.scopeKey = scope.key ∧
      s.activeCount scope.key < row.policy.maxConcurrency := by
  obtain ⟨stored, consumed, hScan, -, -⟩ := h.paying
  obtain ⟨scanned, -, hScanned, -⟩ := scanScopes_eq_ok hScan
  obtain ⟨limit, -, hHere, hRoom⟩ := Slots.exists_of_forall₂_left hScanned hScope
  obtain ⟨row, hRow, hKey, hPolicy⟩ : ∃ row ∈ s.limits, row.scopeKey = scope.key ∧
      row.policy = limit.policy := by
    cases hHere with
    | metered hLoad => exact (loadLimit_eq_ok hLoad).2.2.1
    | unmetered hLoad => exact (loadLimit_eq_ok hLoad).2.2.1
  exact ⟨row, hRow, hKey, by rwa [hPolicy]⟩

theorem Granted.paid_eq {request : ReservationRequest} {expiresAt : UnixMillis}
    {paid : SchedulerStore} (h : Granted s request expiresAt paid) :
    paid = { s with buckets := paid.buckets } := by
  obtain ⟨stored, consumed, -, -, hPersist⟩ := h.paying
  exact persistBuckets_eq_ok hPersist

theorem Bounded.reserve (h : Bounded s) {request : ReservationRequest} {expiresAt : UnixMillis}
    {paid : SchedulerStore} (granted : Granted s request expiresAt paid) :
    Bounded (paid.reserve request expiresAt) := by
  rw [granted.paid_eq]
  have hClear (row : ReservationRow) (hRow : row ∈ s.reservations) :
      row.request.reservationId ≠ request.reservationId ∧
        (row.isLive = true → row.request.matchId ≠ request.matchId) := by
    have hFresh := granted.fresh row hRow
    simp only [ReservationRow.clash, Bool.or_eq_false_iff, decide_eq_false_iff_not,
      Bool.and_eq_false_iff] at hFresh
    refine ⟨fun hEq => hFresh.1 hEq.symm, fun hLive hEq => ?_⟩
    rcases hFresh.2 with (hActive | hDead) | hMatch
    · cases hActive
    · rw [hLive] at hDead
      cases hDead
    · exact hMatch hEq.symm
  refine ⟨h.limitKeys, ?_, ?_, ?_, ?_, ?_⟩
  · change ((s.reservations ++ [_]).map _).Nodup
    rw [List.map_append, List.map_singleton]
    refine List.nodup_append.mpr ⟨h.ids, List.nodup_singleton _, fun a ha b hb hEq => ?_⟩
    obtain ⟨row, hRow, rfl⟩ := List.mem_map.mp ha
    exact (hClear row hRow).1 (hEq.trans (List.mem_singleton.mp hb))
  · change s.scopes ++ request.scopeRows = (s.reservations ++ [_]).flatMap _
    rw [List.flatMap_append, ← h.joined, List.flatMap_singleton]
  · intro row hRow scope hScope
    change row ∈ s.reservations ++ [_] at hRow
    rw [List.mem_append, List.mem_singleton] at hRow
    rcases hRow with hOld | rfl
    · exact h.limited row hOld scope hScope
    · obtain ⟨limit, hLimit, hKey, -⟩ := granted.room hScope
      exact List.mem_map.mpr ⟨limit, hLimit, hKey⟩
  · intro limit hLimit scope hKey
    change (s.reservations ++ [_]).countP _ ≤ _
    rw [List.countP_append, List.countP_singleton]
    by_cases hScope : scope ∈ request.scopes
    · obtain ⟨stored, hStored, hStoredKey, hRoom⟩ := granted.room hScope
      obtain rfl : limit = stored :=
        Table.eq_of_key h.limitKeys hLimit hStored (hKey.symm.trans hStoredKey.symm)
      rw [h.activeCount_eq, SchedulerStore.occupancy] at hRoom
      split <;> omega
    · have hOld := h.capacity limit hLimit scope hKey
      rw [SchedulerStore.occupancy] at hOld
      simpa [ReservationRow.occupies, hScope] using hOld
  · change (((s.reservations ++ [_]).filter _).map _).Nodup
    rw [List.filter_append, List.map_append]
    refine List.nodup_append.mpr ⟨h.oneLive, ?_, fun a ha b hb hEq => ?_⟩
    · simp [ReservationRow.isLive, ReservationStatus.isLive]
    · obtain ⟨row, hRow, rfl⟩ := List.mem_map.mp ha
      rw [List.mem_filter] at hRow
      have hMatch : b = request.matchId := by
        simpa [ReservationRow.isLive, ReservationStatus.isLive] using hb
      exact (hClear row hRow.1).2 hRow.2 (hEq.trans hMatch)

theorem retires_finish {hit : ReservationRow → Bool} {status : ReservationStatus}
    (h : status.isLive = false) (now : UnixMillis) :
    Retires hit (ReservationRow.finish status now) := by
  refine ⟨fun _ => rfl, fun row _ hLive => ?_⟩
  rw [ReservationRow.isLive, ReservationRow.finish, h] at hLive
  cases hLive

theorem Bounded.expire (h : Bounded s) (now : UnixMillis) : Bounded (s.expire now) :=
  h.update (retires_finish rfl now) s.controls s.results

/-- Refilled or paid buckets change no other table. -/
theorem Bounded.of_buckets (h : Bounded s) (hSame : t = { s with buckets := t.buckets }) :
    Bounded t := by
  rw [hSame]
  exact ⟨h.limitKeys, h.ids, h.joined, h.limited, h.capacity, h.oneLive⟩

theorem Effect.bounded {request : SchedulerRequest} (effect : Effect s request t) (h : Bounded s) :
    Bounded t := by
  cases effect with
  | same => exact h
  | configured ordered valid steps =>
      exact foldlM_invariant Bounded steps h fun _ _ _ _ hPrior hStep => hPrior.configureLimit hStep
  | controlled => exact ⟨h.limitKeys, h.ids, h.joined, h.limited, h.capacity, h.oneLive⟩
  | @cancelled tournamentId now controls write =>
      have hRetires : Retires (ReservationRow.activeIn tournamentId)
          (ReservationRow.requestCancellation now) := by
        refine ⟨fun _ => rfl, fun row hHit _ => ?_⟩
        simp only [ReservationRow.activeIn, Bool.and_eq_true, beq_iff_eq] at hHit
        rw [ReservationRow.isLive, hHit.2]
        rfl
      exact h.update hRetires controls s.results
  | expired => exact h.expire _
  | limited scan persist => exact (h.expire _).of_buckets (persistBuckets_eq_ok persist)
  | acquired granted => exact (h.expire _).reserve granted
  | @renewed reservation now expires _ =>
      have hRetires : Retires (ReservationRow.renewable reservation now expires)
          (ReservationRow.renewed now expires) := ⟨fun _ => rfl, fun _ _ => id⟩
      exact h.update hRetires s.controls s.results
  | released => exact h.update (retires_finish rfl _) s.controls s.results
  | committed => exact h.update (retires_finish rfl _) s.controls _

theorem Funded.expire (funded : Funded s) (now : UnixMillis) : Funded (s.expire now) :=
  ⟨funded.keys, funded.within⟩

theorem Effect.funded {request : SchedulerRequest} (effect : Effect s request t) (h : Bounded s)
    (funded : Funded s) : Funded t := by
  cases effect with
  | same => exact funded
  | configured ordered valid steps =>
      exact foldlM_invariant Funded steps funded fun _ _ _ _ hPrior hStep => hPrior.configureLimit hStep
  | controlled => exact ⟨funded.keys, funded.within⟩
  | cancelled => exact ⟨funded.keys, funded.within⟩
  | expired => exact funded.expire _
  | limited scan persist =>
      have hRefilled := scanScopes_refilled scan
      exact (funded.expire _).persist persist fun limit hLimit state hState row hRow hKey =>
        (hRefilled limit hLimit).within (h.expire _) (funded.expire _) hState hRow hKey
  | @acquired request expiresAt paid granted =>
      obtain ⟨stored, consumed, hScan, hConsume, hPersist⟩ := granted.paying
      have hRefilled := scanScopes_refilled hScan
      have hPaid : Funded paid := by
        refine (funded.expire _).persist hPersist fun limit hLimit state hState row hRow hKey => ?_
        obtain ⟨source, hSource, hToken⟩ :=
          Slots.exists_of_forall₂_right (mapM_eq_ok.mp hConsume) hLimit
        obtain ⟨hPolicy, hSpent⟩ := consumeToken_eq_ok hToken
        obtain ⟨old, hOld, hTokens⟩ := hSpent state hState
        have hWithin := (hRefilled source hSource).within (h.expire _) (funded.expire _) hOld hRow
          (hPolicy ▸ hKey)
        intro other hOther hOtherKey
        obtain ⟨rate, hRate, hUpper⟩ := hWithin other hOther hOtherKey
        exact ⟨rate, hRate, Nat.le_trans hTokens hUpper⟩
      exact ⟨hPaid.keys, hPaid.within⟩
  | renewed => exact ⟨funded.keys, funded.within⟩
  | released => exact ⟨funded.keys, funded.within⟩
  | committed => exact ⟨funded.keys, funded.within⟩

theorem bounded_funded_after (requests : List SchedulerRequest) :
    Bounded (schedulerRepository.after .empty requests) ∧
      Funded (schedulerRepository.after .empty requests) := by
  have hEmpty : Bounded .empty ∧ Funded .empty := by
    refine ⟨⟨List.nodup_nil, List.nodup_nil, rfl, ?_, ?_, List.nodup_nil⟩, List.nodup_nil, ?_⟩
    all_goals exact fun _ h => absurd h List.not_mem_nil
  have hStep (s : SchedulerStore) (request : SchedulerRequest) (h : Bounded s ∧ Funded s) :
      Bounded (schedulerRepository.step s request).2 ∧
        Funded (schedulerRepository.step s request).2 := by
    have effect := step_effect s request
    exact ⟨effect.bounded h.1, effect.funded h.1 h.2⟩
  exact schedulerRepository.after_invariant hStep hEmpty requests

/-- Without a grant the reservations only expire and the buckets only fill. -/
theorem acquire_ungranted (funded : Funded s) {request : ReservationRequest}
    (h : ∀ reservation, (schedulerRepository.step s (.acquire request)).1 ≠
      .acquired (.ok (.acquired reservation))) :
    let t := (schedulerRepository.step s (.acquire request)).2
    t.reservations.map (·.request) = s.reservations.map (·.request) ∧ t.scopes = s.scopes ∧
      List.Forall₂ (fun old new : BucketRow => new.scopeKey = old.scopeKey ∧
        old.state.tokens ≤ new.state.tokens) s.buckets t.buckets := by
  intro t
  have hSame : List.Forall₂ (fun old new : BucketRow => new.scopeKey = old.scopeKey ∧
      old.state.tokens ≤ new.state.tokens) s.buckets s.buckets :=
    List.forall₂_same.mpr fun _ _ => ⟨rfl, le_rfl⟩
  have hExpire : (s.expire request.now).reservations.map (·.request) =
      s.reservations.map (·.request) := Table.map_update fun _ => rfl
  rcases transact_cases s (acquireReservation s request) with ⟨result, next, hOk, hEq⟩ | ⟨e, -, hEq⟩
  · have hNext : t = next := congrArg Prod.snd hEq
    have hResult : (schedulerRepository.step s (.acquire request)).1 = .acquired (.ok result) :=
      congrArg (SchedulerResponse.acquired ∘ Prod.fst) hEq
    rw [hNext]
    rcases acquireReservation_eq_ok hOk with ⟨rfl, -⟩ | ⟨stored, retryAt, -, hScan, hPersist⟩ |
      ⟨expiresAt, paid, rfl, -, -⟩
    · exact ⟨hExpire, rfl, hSame⟩
    · have hRefilled := scanScopes_refilled hScan
      have hOthers := persistBuckets_eq_ok hPersist
      have hMore : ∀ limit ∈ stored, ∀ state, limit.bucket = some state → ∀ row ∈ s.buckets,
          row.scopeKey = limit.policy.scope.key → row.state.tokens ≤ state.tokens := by
        intro limit hLimit state hState row hRow hKey
        obtain ⟨_, -, -, hTokens⟩ := (hRefilled limit hLimit).tokens (funded.expire _) hState hRow hKey
        exact hTokens
      obtain ⟨f, hBuckets, hf⟩ := persistBuckets_buckets hPersist
        (fun row _ => Nat.le_refl row.state.tokens) hMore
      refine ⟨by rw [hOthers]; exact hExpire, by rw [hOthers]; rfl, ?_⟩
      rw [hBuckets]
      exact List.forall₂_map_right_iff.mpr (List.forall₂_same.mpr hf)
    · exact absurd hResult (h _)
  · have hNext : t = s := congrArg Prod.snd hEq
    rw [hNext]
    exact ⟨rfl, rfl, hSame⟩

end

/-- Capacity. In every state reached by any requests at any times, every scope
of a live reservation has a limit and at most that many live reservations, no
match has two of them, and an acquisition that is not granted adds no
reservation and takes no token. -/
theorem capacity_never_exceeded (requests : List SchedulerRequest) :
    let s := schedulerRepository.after .empty requests
    (s.limits.map (·.scopeKey)).Nodup ∧
    (∀ row ∈ s.reservations, row.isLive = true → ∀ scope ∈ row.request.scopes,
      ∃ limit ∈ s.limits, limit.scopeKey = scope.key ∧
        s.reservations.countP (fun other => other.isLive && decide (scope ∈ other.request.scopes)) ≤
          limit.policy.maxConcurrency) ∧
    ((s.reservations.filter (·.isLive)).map (·.request.matchId)).Nodup ∧
    ∀ request : ReservationRequest,
      (∀ reservation, (schedulerRepository.step s (.acquire request)).1 ≠
        .acquired (.ok (.acquired reservation))) →
      let t := (schedulerRepository.step s (.acquire request)).2
      t.reservations.map (·.request) = s.reservations.map (·.request) ∧ t.scopes = s.scopes ∧
        List.Forall₂ (fun old new : BucketRow => new.scopeKey = old.scopeKey ∧
          old.state.tokens ≤ new.state.tokens) s.buckets t.buckets := by
  intro s
  obtain ⟨hBounded, hFunded⟩ : Bounded s ∧ Funded s := bounded_funded_after requests
  refine ⟨hBounded.limitKeys, fun row hRow _ scope hScope => ?_, hBounded.oneLive,
    fun request hUngranted => acquire_ungranted hFunded hUngranted⟩
  obtain ⟨limit, hLimit, hKey⟩ := List.mem_map.mp (hBounded.limited row hRow scope hScope)
  exact ⟨limit, hLimit, hKey, hBounded.capacity limit hLimit scope hKey.symm⟩

end WordArena.Scheduler
