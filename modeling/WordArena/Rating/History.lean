import WordArena.Rating.Current

/-! The invariant of the rating store. Every table is written from the periods, each
pool counts its periods, and the current ratings are the last derived ones. -/
namespace WordArena.Rating

open Fallible WordArena.Engine WordArena.Application

section Recorded

/-- A period row that agrees with the period it holds. -/
structure Sound (system : RatingSystem) (row : PeriodRow) : Prop where
  derive : row.period.derive system = .ok row.derived
  key : row.period.pool.key system.platform = .ok row.poolKey
  columns : row = periodRow row.poolKey row.period row.derived row.committedAt

structure Recorded (system : RatingSystem) (s : RatingStore) : Prop where
  matchInputs : s.matchInputs =
    s.periods.flatMap fun row => row.period.games.map (matchInputRow row)
  periodInputs : s.periodInputs =
    s.periods.flatMap fun row => row.period.updates.map (periodInputRow row)
  updates : s.updates = s.periods.flatMap fun row => row.period.updates.map (updateRow row)
  sound : ∀ row ∈ s.periods, Sound system row
  ids : (s.periods.map (·.periodId)).Nodup
  sequences : ∀ poolKey, (s.poolPeriods poolKey).map (·.sequence) =
    List.range (s.poolPeriods poolKey).length
  keys : (s.current.map CurrentRow.key).Nodup
  rating : ∀ poolKey entrantId, (findCurrent s.current poolKey entrantId).map (·.rating) =
    lastRating (s.poolPeriods poolKey) entrantId
  origin : ∀ found ∈ s.current, ∃ row ∈ s.periods,
    row.poolKey = found.poolKey ∧ row.sequence = found.sequence
  games : s.periods.Pairwise fun a b => a.poolKey = b.poolKey →
    ∀ game ∈ a.period.games, ∀ other ∈ b.period.games, game.matchId ≠ other.matchId
  chain : ∀ poolKey before row rest, s.poolPeriods poolKey = before ++ row :: rest →
    ∀ input ∈ row.period.updates, ∀ rating,
      lastRating before input.entrantId = some rating → rating = input.previous

theorem Recorded.empty (system : RatingSystem) : Recorded system .empty := by
  constructor <;> simp [RatingStore.empty, RatingStore.poolPeriods, findCurrent]

variable {system : RatingSystem} {s : RatingStore} {row : PeriodRow}

theorem mem_poolPeriods {poolKey : String} :
    row ∈ s.poolPeriods poolKey ↔ row ∈ s.periods ∧ row.poolKey = poolKey := by
  rw [RatingStore.poolPeriods, List.mem_filter, beq_iff_eq]

theorem poolPeriods_extend (s : RatingStore) (row : PeriodRow) (poolKey : String) :
    (s.extend row).poolPeriods poolKey =
      if row.poolKey = poolKey then s.poolPeriods poolKey ++ [row] else s.poolPeriods poolKey := by
  have hSplit : (s.extend row).poolPeriods poolKey =
      s.poolPeriods poolKey ++ [row].filter (·.poolKey == poolKey) := List.filter_append ..
  rw [hSplit]
  split_ifs with hSame
  · rw [List.filter_cons_of_pos (by simpa using hSame), List.filter_nil]
  · rw [List.filter_cons_of_neg (by simpa using hSame), List.filter_nil, List.append_nil]

theorem Recorded.sequence_lt (h : Recorded system s) {poolKey : String}
    (hRow : row ∈ s.poolPeriods poolKey) : row.sequence < (s.poolPeriods poolKey).length := by
  rw [← List.mem_range, ← h.sequences poolKey]
  exact List.mem_map_of_mem hRow

theorem nextSequence_eq {rows : List PeriodRow}
    (h : rows.map (·.sequence) = List.range rows.length) :
    nextSequence rows = min rows.length (2 ^ 63 - 1) := by
  rw [nextSequence, maxSequence, h]
  cases hLength : rows.length with
  | zero => rfl
  | succ n =>
      have hMax : (List.range (n + 1)).max? = some n := by
        rw [List.max?_eq_some_iff]
        exact ⟨List.self_mem_range_succ, fun m hm => Nat.le_of_lt_succ (List.mem_range.mp hm)⟩
      rw [hMax, Option.map_some, Option.getD_some]

/-- An admitted period is the next one of its pool. -/
theorem Recorded.next_sequence (h : Recorded system s) (hAdmits : Admits s row) :
    row.sequence = (s.poolPeriods row.poolKey).length := by
  have hNext := hAdmits.sequence
  rw [nextSequence_eq (h.sequences _)] at hNext
  by_cases hRoom : (s.poolPeriods row.poolKey).length ≤ 2 ^ 63 - 1
  · rw [hNext, Nat.min_eq_left hRoom]
  · -- the counter is used up: the last sequence of the pool would be given out again
    rw [Nat.min_eq_right (Nat.le_of_not_le hRoom)] at hNext
    have hUsed : row.sequence ∈ (s.poolPeriods row.poolKey).map (·.sequence) := by
      rw [h.sequences, List.mem_range]
      omega
    obtain ⟨old, hOld, hSame⟩ := List.mem_map.mp hUsed
    obtain ⟨hMem, hPool⟩ := mem_poolPeriods.mp hOld
    exact absurd ⟨hPool.symm, hSame.symm⟩ (hAdmits.fresh old hMem).2

/-- Where the last element of a list stands in a split of it. -/
theorem split_concat {α : Type} {xs before rest : List α} {x y : α}
    (h : xs ++ [x] = before ++ y :: rest) :
    (before = xs ∧ y = x) ∨ ∃ earlier, xs = before ++ y :: earlier := by
  rcases List.eq_nil_or_concat rest with rfl | ⟨earlier, last, rfl⟩
  · obtain ⟨hFront, hLast⟩ := List.append_inj' h rfl
    exact .inl ⟨hFront.symm, (List.cons.inj hLast).1.symm⟩
  · rw [List.concat_eq_append, ← List.cons_append, ← List.append_assoc] at h
    exact .inr ⟨earlier, (List.append_inj' h rfl).1⟩

theorem Recorded.advance_before (h : Recorded system s) (hAdmits : Admits s row) :
    ∀ input ∈ row.period.updates, ∀ old ∈ s.current,
      old.key = (row.poolKey, input.entrantId) → old.sequence < row.sequence := by
  intro input _ old hOld hKey
  obtain ⟨period, hPeriod, hPool, hSequence⟩ := h.origin old hOld
  rw [h.next_sequence hAdmits, ← hSequence]
  refine h.sequence_lt (mem_poolPeriods.mpr ⟨hPeriod, ?_⟩)
  exact hPool.trans (congrArg Prod.fst hKey)

/-- The ratings after a period, of its entrants and of everyone else. -/
theorem Recorded.rating_extend (h : Recorded system s) (hSound : Sound system row)
    (hAdmits : Admits s row) (poolKey entrantId : String) :
    (findCurrent (s.extend row).current poolKey entrantId).map (·.rating) =
      lastRating ((s.extend row).poolPeriods poolKey) entrantId := by
  have hFound := findCurrent_advance hAdmits.entrants (h.advance_before hAdmits) poolKey entrantId
  rw [poolPeriods_extend]
  change (findCurrent (advance row row.period.updates s.current) poolKey entrantId).map _ = _
  rw [hFound]
  split_ifs with hPool
  · rw [lastRating_concat, ← h.rating]
    cases hInput : row.period.updates.find? (·.entrantId == entrantId) with
    | none =>
        have hAbsent : entrantId ∉ row.period.updates.map (·.entrantId) := by
          intro hMem
          obtain ⟨input, hInputs, hSame⟩ := List.mem_map.mp hMem
          exact List.find?_eq_none.mp hInput input hInputs (by simpa using hSame)
        have hNone : ratingIn row entrantId = none :=
          (Ordered.ofList_eq_none (nodup_derived hSound.derive)).mpr
            (mt (mem_derived hSound.derive).mp hAbsent)
        rw [hNone, Option.map_none, Option.none_or, Option.none_or]
    | some input =>
        have hSame : input.entrantId = entrantId := by simpa using List.find?_some hInput
        obtain ⟨next, hNext, -⟩ := hAdmits.outputs input (List.mem_of_find?_eq_some hInput)
        rw [hSame] at hNext
        simp [hNext, currentRow, ratingAfter, hSame]
  · exact h.rating poolKey entrantId

/-- An admitted period keeps the store recorded. -/
theorem Recorded.extend (h : Recorded system s) (hSound : Sound system row)
    (hAdmits : Admits s row) : Recorded system (s.extend row) := by
  have hNext := h.next_sequence hAdmits
  constructor
  · simp [RatingStore.extend, h.matchInputs]
  · simp [RatingStore.extend, h.periodInputs]
  · simp [RatingStore.extend, h.updates]
  · intro other hOther
    rcases List.mem_append.mp hOther with hOld | hNew
    · exact h.sound other hOld
    · rw [List.mem_singleton.mp hNew]
      exact hSound
  · change ((s.periods ++ [row]).map (·.periodId)).Nodup
    rw [List.map_append, List.nodup_append]
    refine ⟨h.ids, List.nodup_singleton _, ?_⟩
    rintro a ha b hb rfl
    obtain ⟨old, hOld, rfl⟩ := List.mem_map.mp ha
    exact (hAdmits.fresh old hOld).1 (List.mem_singleton.mp hb).symm
  · intro poolKey
    rw [poolPeriods_extend]
    split_ifs with hPool
    · subst hPool
      rw [List.map_append, h.sequences, List.length_append, List.length_singleton,
        List.range_succ, List.map_singleton, hNext]
    · exact h.sequences poolKey
  · exact nodup_advance h.keys
  · exact h.rating_extend hSound hAdmits
  · intro found hFound
    rcases mem_advance hFound with ⟨input, -, rfl⟩ | hOld
    · exact ⟨row, List.mem_append_right _ List.mem_cons_self, rfl, rfl⟩
    · obtain ⟨old, hMem, hSame⟩ := h.origin found hOld
      exact ⟨old, List.mem_append_left _ hMem, hSame⟩
  · refine List.pairwise_append.mpr ⟨h.games, List.pairwise_singleton _ _, ?_⟩
    intro old hOld new hNew hPool game hGame other hOther hSame
    rw [List.mem_singleton.mp hNew] at hPool hOther
    refine hAdmits.unused other hOther (matchInputRow old game) ?_ ⟨hPool.symm, hSame.symm⟩
    rw [h.matchInputs]
    exact List.mem_flatMap.mpr ⟨old, hOld, List.mem_map_of_mem hGame⟩
  · intro poolKey before other rest hSplit input hInput rating hLast
    rw [poolPeriods_extend] at hSplit
    split_ifs at hSplit with hPool
    · rcases split_concat hSplit with ⟨rfl, rfl⟩ | ⟨earlier, hOld⟩
      · rw [← h.rating, Option.map_eq_some_iff] at hLast
        obtain ⟨found, hFound, rfl⟩ := hLast
        subst hPool
        exact hAdmits.previous input hInput found hFound
      · exact h.chain poolKey before other earlier hOld input hInput rating hLast
    · exact h.chain poolKey before other rest hSplit input hInput rating hLast

end Recorded

end WordArena.Rating
