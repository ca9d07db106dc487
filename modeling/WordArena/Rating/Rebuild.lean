import Mathlib.Data.String.Basic
import WordArena.Rating.History

/-! Loads and rebuilds of a recorded store: every period is read back as it was
written, and replaying a pool gives its current ratings. -/
namespace WordArena.Rating

open Fallible WordArena.Engine WordArena.Application

section Load

variable {system : RatingSystem} {s : RatingStore} {row : PeriodRow}

/-- Rows that agree with what is expected pass the comparison. -/
theorem validateRows_of_forall₂ {ρ β : Type} {agrees : ρ → β → Bool} {rows : List ρ}
    {expected : List β} (h : List.Forall₂ (fun row value => agrees row value = true) rows expected) :
    validateRows agrees rows expected = .ok () := by
  refine bind_eq_ok.mpr ⟨(), reject_eq_ok.mpr (by simp [h.length_eq]), ?_⟩
  refine forM_eq_ok.mpr fun pair hPair => reject_eq_ok.mpr ?_
  rw [Bool.not_eq_false]
  exact List.forall₂_zip h hPair

theorem validateRows_map {ρ β : Type} {agrees : ρ → β → Bool} {row : β → ρ} {expected : List β}
    (h : ∀ value ∈ expected, agrees (row value) value = true) :
    validateRows agrees (expected.map row) expected = .ok () :=
  validateRows_of_forall₂ (List.forall₂_map_left_iff.mpr (List.forall₂_same.mpr h))

/-- The rows that a table holds for one period. -/
theorem filter_written {ρ : Type} {write : PeriodRow → List ρ} {owner : ρ → String}
    {periods : List PeriodRow} (hIds : (periods.map (·.periodId)).Nodup)
    (hOwner : ∀ row, ∀ written ∈ write row, owner written = row.periodId) (hRow : row ∈ periods) :
    (periods.flatMap write).filter (fun written => owner written == row.periodId) = write row := by
  have hSource := Table.filter_flatMap_source (l := periods) (f := write)
    (p := fun written => owner written == row.periodId)
    (q := fun other => other.periodId == row.periodId) (by
      intro other _ written hWritten
      rw [hOwner other written hWritten])
  rw [hSource, Table.filter_key hIds hRow, List.flatMap_singleton]

theorem Sound.storedPeriod (h : Sound system row) :
    storedPeriod system row = .ok ⟨row.period, row.derived, row.committedAt⟩ := by
  have hValid := (derive_eq_ok.mp h.derive).1
  have hId : row.periodId = row.period.periodId := congrArg PeriodRow.periodId h.columns
  have hVersion : row.schemaVersion = row.period.schemaVersion :=
    congrArg PeriodRow.schemaVersion h.columns
  have hSequence : row.sequence = row.period.sequence := congrArg PeriodRow.sequence h.columns
  have hPool : row.pool = row.period.pool := congrArg PeriodRow.pool h.columns
  simp only [Rating.storedPeriod, hValid, h.derive, h.key, mapErr, ok_bind]
  refine bind_eq_ok.mpr ⟨(), reject_eq_ok.mpr ?_, rfl⟩
  simp [hId, hVersion, (distinct_of_validate hValid).version, hSequence, hPool]

/-- The update rows in order, beside the derived ratings. -/
theorem Sound.updates_agree (h : Sound system row) :
    List.Forall₂ (fun written expected =>
        updateAgrees row.poolKey row.period.sequence written expected = true)
      (row.period.sortedUpdates.map (updateRow row)) row.derived := by
  have hAll := (derive_eq_ok.mp h.derive).2
  have hSequence : row.sequence = row.period.sequence := congrArg PeriodRow.sequence h.columns
  have hKeys := nodup_derived h.derive
  rw [List.forall₂_map_left_iff, List.forall₂_iff_get]
  refine ⟨hAll.length_eq, fun i hi hj => ?_⟩
  obtain ⟨hEntrant, -⟩ := (List.forall₂_iff_get.mp hAll).2 i hi hj
  have hRating : ratingIn row (row.period.sortedUpdates.get ⟨i, hi⟩).entrantId =
      some (row.derived.get ⟨i, hj⟩).2 := by
    rw [← hEntrant]
    exact (Ordered.ofList_eq_some hKeys).mpr (List.get_mem _ _)
  simp only [updateAgrees, updateRow, ratingAfter, hRating, hSequence, hEntrant]
  simp

theorem Recorded.normalized (h : Recorded system s) (hRow : row ∈ s.periods) :
    validateNormalizedRows system s ⟨row.period, row.derived, row.committedAt⟩ = .ok () := by
  have hSound := h.sound row hRow
  have hId : row.period.periodId = row.periodId :=
    (congrArg PeriodRow.periodId hSound.columns).symm
  have hMatches : s.matchInputs.filter (·.periodId == row.periodId) =
      row.period.games.map (matchInputRow row) := by
    rw [h.matchInputs]
    refine filter_written h.ids ?_ hRow
    simp [matchInputRow]
  have hInputs : s.periodInputs.filter (·.periodId == row.periodId) =
      row.period.updates.map (periodInputRow row) := by
    rw [h.periodInputs]
    refine filter_written h.ids ?_ hRow
    simp [periodInputRow]
  have hUpdates : s.updates.filter (·.periodId == row.periodId) =
      row.period.updates.map (updateRow row) := by
    rw [h.updates]
    refine filter_written h.ids ?_ hRow
    simp [updateRow]
  simp only [validateNormalizedRows, hSound.key, mapErr, ok_bind, hId, hMatches, hInputs, hUpdates]
  rw [← List.map_insertionSort (fun a b => a.matchId ≤ b.matchId) _ _ _ fun _ _ _ _ => Iff.rfl,
    ← List.map_insertionSort (fun a b => a.entrantId ≤ b.entrantId) _ _ _ fun _ _ _ _ => Iff.rfl,
    ← List.map_insertionSort (fun a b => a.entrantId ≤ b.entrantId) _ _ _ fun _ _ _ _ => Iff.rfl]
  refine bind_eq_ok.mpr ⟨(), validateRows_map fun game _ => ?_, bind_eq_ok.mpr ⟨(),
    validateRows_map fun input _ => ?_, validateRows_of_forall₂ hSound.updates_agree⟩⟩
  · simp [matchAgrees, matchInputRow]
  · simp [inputAgrees, periodInputRow]

theorem Recorded.find_period (h : Recorded system s) (hRow : row ∈ s.periods) :
    s.periods.find? (·.periodId == row.periodId) = some row := by
  have hFound := (Table.find?_eq_some_iff_mem h.ids).mpr ⟨hRow, rfl⟩
  simpa [beq_eq_decide] using hFound

/-- A committed period is loaded as it was stored. -/
theorem Recorded.loadPeriod (h : Recorded system s) (hRow : row ∈ s.periods) :
    s.loadPeriod system row.periodId = .ok ⟨row.period, row.derived, row.committedAt⟩ := by
  have hSound := h.sound row hRow
  have hId : row.periodId = row.period.periodId := congrArg PeriodRow.periodId hSound.columns
  have hValid := (distinct_of_validate (derive_eq_ok.mp hSound.derive).1).periodId
  refine bind_eq_ok.mpr ⟨(), reject_eq_ok.mpr (by simp [hId, hValid]), ?_⟩
  refine bind_eq_ok.mpr ⟨row, okOr_eq_ok.mpr (h.find_period hRow), ?_⟩
  refine bind_eq_ok.mpr ⟨_, hSound.storedPeriod, ?_⟩
  exact bind_eq_ok.mpr ⟨(), h.normalized hRow, rfl⟩

/-- A period that was never committed is not found. -/
theorem loadPeriod_absent {periodId : String} (hValid : validId periodId 256 = true)
    (hAbsent : ∀ row ∈ s.periods, row.periodId ≠ periodId) :
    s.loadPeriod system periodId = .error .notFound := by
  have hNone : s.periods.find? (·.periodId == periodId) = none := by
    rw [List.find?_eq_none]
    intro row hRow
    simpa using hAbsent row hRow
  simp [RatingStore.loadPeriod, hValid, hNone, reject, okOr, bind, Except.bind]

end Load

section Commit

variable {system : RatingSystem} {s t : RatingStore} {period : RatingPeriod} {now : UnixMillis}
  {derived : List (String × RatingValue)}

theorem prepare_eq_ok : prepare system period now = .ok derived ↔
    0 ≤ now ∧ period.derive system = .ok derived := by
  simp only [prepare, bind_eq_ok, mapErr_eq_ok, reject_eq_ok, Int.not_lt]
  constructor
  · rintro ⟨_, -, _, hTime, hDerive⟩
    exact ⟨hTime, hDerive⟩
  · rintro ⟨hTime, hDerive⟩
    exact ⟨(), (derive_eq_ok.mp hDerive).1, (), hTime, hDerive⟩

theorem sound_periodRow {poolKey : String} (hDerive : period.derive system = .ok derived)
    (hKey : period.pool.key system.platform = .ok poolKey) :
    Sound system (periodRow poolKey period derived now) :=
  ⟨hDerive, hKey, rfl⟩

/-- A transaction keeps the store recorded. -/
theorem Recorded.apply {stored : StoredRatingPeriod} (h : Recorded system s)
    (hDerive : period.derive system = .ok derived)
    (hApply : s.apply system period derived now = .ok (stored, t)) : Recorded system t := by
  obtain ⟨poolKey, hKey, hAdmits, -, rfl⟩ := apply_eq_ok.mp hApply
  exact h.extend (sound_periodRow hDerive hKey) hAdmits

/-- A commit keeps the store recorded. -/
theorem Recorded.commitPeriod {result : RatingCommitResult} (h : Recorded system s)
    (hCommit : s.commitPeriod system period now = .ok (result, t)) : Recorded system t := by
  obtain ⟨derived, hPrepare, hCommit⟩ := bind_eq_ok.mp hCommit
  obtain ⟨found, -, hCommit⟩ := bind_eq_ok.mp hCommit
  cases found with
  | some existing =>
      cases pure_eq_ok.mp hCommit
      exact h
  | none =>
      obtain ⟨⟨stored, next⟩, hApply, hCommit⟩ := bind_eq_ok.mp hCommit
      cases pure_eq_ok.mp hCommit
      exact h.apply (prepare_eq_ok.mp hPrepare).2 hApply

/-- Every sequence of commits keeps the store recorded. -/
theorem recorded_after (system : RatingSystem) (requests : List (RatingPeriod × UnixMillis)) :
    Recorded system ((ratingMachine system).after .empty requests) := by
  refine Machine.after_invariant _ ?_ (Recorded.empty system) requests
  intro s request hRecorded
  rcases transact_cases s (s.commitPeriod system request.1 request.2) with
    ⟨result, next, hCommit, hDone⟩ | ⟨e, -, hDone⟩
  · simp only [ratingMachine, hDone]
    exact hRecorded.commitPeriod hCommit
  · simp only [ratingMachine, hDone]
    exact hRecorded

end Commit

section Rebuild

variable {system : RatingSystem} {s : RatingStore} {pool : RatingPool} {poolKey : String}

/-- The current ratings of a pool, by entrant. -/
def RatingStore.currentRatings (s : RatingStore) (poolKey : String) :
    List (String × RatingValue) :=
  ((s.current.filter (·.poolKey == poolKey)).insertionSort fun a b =>
    a.entrantId ≤ b.entrantId).map fun row => (row.entrantId, row.rating)

/-- The periods of a pool are kept in the order of their sequences. -/
theorem Recorded.poolPeriods_sorted (h : Recorded system s) (poolKey : String) :
    (s.poolPeriods poolKey).insertionSort periodOrder = s.poolPeriods poolKey := by
  refine List.Pairwise.insertionSort_eq ?_
  have hIncreasing : (s.poolPeriods poolKey).Pairwise fun a b => a.sequence < b.sequence := by
    refine List.pairwise_map.mp ?_
    rw [h.sequences]
    exact List.pairwise_lt_range
  exact hIncreasing.imp fun hBefore => .inl hBefore

/-- One period of a replay that has followed the earlier ones. -/
theorem Recorded.replayPeriod (h : Recorded system s) {ratings : Std.TreeMap String RatingValue}
    {before rest : List PeriodRow} {row : PeriodRow}
    (hSplit : s.poolPeriods poolKey = before ++ row :: rest) (hPool : row.period.pool = pool)
    (hRatings : ∀ entrantId, ratings.get? entrantId = lastRating before entrantId) :
    replayPeriod system s pool ratings (row, before.length) =
      .ok (ratings.insertMany row.derived) := by
  have hMem : row ∈ s.poolPeriods poolKey := by
    rw [hSplit]
    exact List.mem_append_right _ List.mem_cons_self
  obtain ⟨hRow, -⟩ := mem_poolPeriods.mp hMem
  have hSound := h.sound row hRow
  have hSequence : row.period.sequence = before.length := by
    have hNumbers := h.sequences poolKey
    rw [hSplit] at hNumbers
    have hPlace := congrArg (·[before.length]?) hNumbers
    have hColumn : row.sequence = row.period.sequence :=
      congrArg PeriodRow.sequence hSound.columns
    simpa [hColumn] using hPlace
  refine bind_eq_ok.mpr ⟨_, hSound.storedPeriod, ?_⟩
  refine bind_eq_ok.mpr ⟨(), h.normalized hRow, ?_⟩
  refine bind_eq_ok.mpr ⟨(), reject_eq_ok.mpr (by simp [hPool, hSequence]), ?_⟩
  refine bind_eq_ok.mpr ⟨(), forM_eq_ok.mpr fun input hInput => reject_eq_ok.mpr ?_, rfl⟩
  rw [hRatings]
  cases hLast : lastRating before input.entrantId with
  | none => simp
  | some rating => simp [h.chain poolKey before row rest hSplit input hInput rating hLast]

/-- A replay of the first periods of a pool knows their last ratings. -/
theorem Recorded.replay (h : Recorded system s)
    (hPool : ∀ row ∈ s.poolPeriods poolKey, row.period.pool = pool) {done rest : List PeriodRow}
    (hSplit : s.poolPeriods poolKey = done ++ rest) :
    ∃ ratings, done.zipIdx.foldlM (Rating.replayPeriod system s pool) ∅ = .ok ratings ∧
      ∀ entrantId, ratings.get? entrantId = lastRating done entrantId := by
  induction done using List.reverseRecOn generalizing rest with
  | nil => exact ⟨∅, rfl, fun entrantId => Std.TreeMap.getElem?_emptyc⟩
  | append_singleton done row ih =>
      rw [List.append_assoc, List.singleton_append] at hSplit
      obtain ⟨ratings, hRun, hRatings⟩ := ih hSplit
      have hTurn := h.replayPeriod hSplit (hPool row (by rw [hSplit]; simp)) hRatings
      refine ⟨ratings.insertMany row.derived, ?_, fun entrantId => ?_⟩
      · rw [List.zipIdx_append, List.foldlM_append, hRun, ok_bind]
        simp [hTurn]
      · rw [get?_insertMany, hRatings, lastRating_concat]
        rfl

/-- The entrants of a pool's current ratings, each once and in order. -/
theorem Recorded.currentRatings_sorted (h : Recorded system s) (poolKey : String) :
    (s.currentRatings poolKey).Pairwise fun a b => a.1 < b.1 := by
  have hRows : ((s.current.filter (·.poolKey == poolKey)).map (·.entrantId)).Nodup := by
    have hRows : (s.current.filter (·.poolKey == poolKey)).Sublist s.current :=
      List.filter_sublist
    have hKeys := h.keys.sublist (hRows.map _)
    refine List.Nodup.of_map (fun entrant => (poolKey, entrant)) ?_
    refine (congrArg List.Nodup ?_).mp hKeys
    rw [List.map_map]
    refine List.map_congr_left fun row hRow => ?_
    rw [List.mem_filter, beq_iff_eq] at hRow
    exact Prod.ext hRow.2 rfl
  have hPerm := List.perm_insertionSort (fun a b : CurrentRow => a.entrantId ≤ b.entrantId)
    (s.current.filter (·.poolKey == poolKey))
  have hDistinct := List.pairwise_map.mp ((hPerm.map (·.entrantId)).nodup_iff.mpr hRows)
  have hOrder := List.pairwise_insertionSort (fun a b : CurrentRow => a.entrantId ≤ b.entrantId)
    (s.current.filter (·.poolKey == poolKey))
  refine List.pairwise_map.mpr ((hOrder.and hDistinct).imp ?_)
  exact fun hPair => lt_of_le_of_ne hPair.1 hPair.2

theorem Recorded.mem_currentRatings (h : Recorded system s) {entry : String × RatingValue} :
    entry ∈ s.currentRatings poolKey ↔
      lastRating (s.poolPeriods poolKey) entry.1 = some entry.2 := by
  have hFound : ∀ row : CurrentRow, findCurrent s.current poolKey entry.1 = some row ↔
      row ∈ s.current ∧ row.key = (poolKey, entry.1) := by
    intro row
    rw [← Table.find?_eq_some_iff_mem h.keys, findCurrent]
    simp [CurrentRow.key, beq_eq_decide]
  rw [← h.rating, Option.map_eq_some_iff, RatingStore.currentRatings, List.mem_map]
  constructor
  · rintro ⟨row, hRow, rfl⟩
    rw [List.mem_insertionSort, List.mem_filter, beq_iff_eq] at hRow
    exact ⟨row, (hFound row).mpr ⟨hRow.1, Prod.ext hRow.2 rfl⟩, rfl⟩
  · rintro ⟨row, hRow, hRating⟩
    obtain ⟨hMem, hKey⟩ := (hFound row).mp hRow
    refine ⟨row, ?_, Prod.ext (congrArg Prod.snd hKey) hRating⟩
    rw [List.mem_insertionSort, List.mem_filter, beq_iff_eq]
    exact ⟨hMem, congrArg Prod.fst hKey⟩

/-- A map that agrees with the current table has its rows, in the order of the
entrants. -/
theorem Recorded.toList_eq (h : Recorded system s) {ratings : Std.TreeMap String RatingValue}
    (hRatings : ∀ entrantId, ratings.get? entrantId =
      lastRating (s.poolPeriods poolKey) entrantId) :
    ratings.toList = s.currentRatings poolKey := by
  have hSorted : ratings.toList.Pairwise fun a b => a.1 < b.1 :=
    Std.TreeMap.ordered_keys_toList.imp fun hBefore => compare_lt_iff_lt.mp hBefore
  have hCurrent := h.currentRatings_sorted poolKey
  refine List.Perm.eq_of_pairwise (fun a b _ _ hab hba => absurd hab (lt_asymm hba)) hSorted
    hCurrent ?_
  rw [List.perm_ext_iff_of_nodup (hSorted.imp fun hBefore hSame => (hSame ▸ hBefore).false)
    (hCurrent.imp fun hBefore hSame => (hSame ▸ hBefore).false)]
  rintro ⟨entrantId, rating⟩
  rw [Std.TreeMap.mem_toList_iff_getElem?_eq_some, h.mem_currentRatings, ← hRatings]
  rfl

/-- The current rows are compared with themselves. -/
theorem validateCurrentRows_currentRatings (s : RatingStore) (poolKey : String) :
    validateCurrentRows s poolKey (s.currentRatings poolKey) = .ok () := by
  refine validateRows_of_forall₂ ?_
  rw [RatingStore.currentRatings, List.forall₂_map_right_iff]
  exact List.forall₂_same.mpr fun row _ => by simp

/-- A rebuild returns the current ratings of a pool whose key is not shared. -/
theorem Recorded.rebuildPool (h : Recorded system s)
    (hKey : pool.key system.platform = .ok poolKey)
    (hPool : ∀ row ∈ s.poolPeriods poolKey, row.period.pool = pool) :
    s.rebuildPool system pool = .ok (s.currentRatings poolKey) := by
  obtain ⟨ratings, hRun, hRatings⟩ := h.replay hPool (List.append_nil _).symm
  have hSorted : (s.periods.filter (·.poolKey == poolKey)).insertionSort periodOrder =
      s.poolPeriods poolKey := h.poolPeriods_sorted poolKey
  refine bind_eq_ok.mpr ⟨poolKey, mapErr_eq_ok.mpr hKey, ?_⟩
  refine bind_eq_ok.mpr ⟨ratings, ?_, ?_⟩
  · rw [hSorted]
    exact hRun
  · rw [h.toList_eq hRatings]
    exact bind_eq_ok.mpr ⟨(), validateCurrentRows_currentRatings s poolKey, rfl⟩

end Rebuild

end WordArena.Rating
