import WordArena.Rating.Repository

/-! What the transaction of a commit comes to: the conditions under which it is
accepted, and the rows it then adds. -/
namespace WordArena.Rating

open Fallible WordArena.Engine WordArena.Application

section Rows

def periodRow (poolKey : String) (period : RatingPeriod) (derived : List (String × RatingValue))
    (now : UnixMillis) : PeriodRow :=
  ⟨period.periodId, period.schemaVersion, poolKey, period.sequence, period.pool, period, derived,
    now⟩

def matchInputRow (row : PeriodRow) (game : RatedMatchInput) : MatchInputRow :=
  ⟨row.poolKey, game.matchId, row.periodId, game.seriesId, game.seriesGameNumber, game.entrantOne,
    game.entrantTwo, game.scoreOneMillionths⟩

def periodInputRow (row : PeriodRow) (input : RatingUpdateInput) : PeriodInputRow :=
  ⟨row.periodId, input.entrantId, input.previous, input.opponents⟩

/-- The rating that a period derives for an entrant. -/
def ratingIn (row : PeriodRow) (entrantId : String) : Option RatingValue :=
  (Std.TreeMap.ofList row.derived).get? entrantId

def ratingAfter (row : PeriodRow) (input : RatingUpdateInput) : RatingValue :=
  (ratingIn row input.entrantId).getD input.previous

def updateRow (row : PeriodRow) (input : RatingUpdateInput) : UpdateRow :=
  ⟨row.periodId, input.entrantId, row.poolKey, row.sequence, ratingAfter row input⟩

def currentRow (row : PeriodRow) (input : RatingUpdateInput) : CurrentRow :=
  ⟨row.poolKey, input.entrantId, row.periodId, row.sequence, ratingAfter row input⟩

/-- The current ratings after the updates of a period. -/
def advance (row : PeriodRow) (inputs : List RatingUpdateInput) (rows : List CurrentRow) :
    List CurrentRow :=
  inputs.foldl (fun rows input => upsertCurrent (currentRow row input) rows) rows

def RatingStore.extend (s : RatingStore) (row : PeriodRow) : RatingStore where
  periods := s.periods ++ [row]
  matchInputs := s.matchInputs ++ row.period.games.map (matchInputRow row)
  periodInputs := s.periodInputs ++ row.period.updates.map (periodInputRow row)
  updates := s.updates ++ row.period.updates.map (updateRow row)
  current := advance row row.period.updates s.current

def RatingStore.poolPeriods (s : RatingStore) (poolKey : String) : List PeriodRow :=
  s.periods.filter (·.poolKey == poolKey)

/-- The sequence that a pool expects next. -/
def nextSequence (rows : List PeriodRow) : Nat :=
  ((maxSequence rows).map fun value => min (value + 1) (2 ^ 63 - 1)).getD 0

/-- A store in which a period can be committed. -/
structure Admits (s : RatingStore) (row : PeriodRow) : Prop where
  bounded : row.sequence < 2 ^ 63
  sequence : row.sequence = nextSequence (s.poolPeriods row.poolKey)
  previous : ∀ input ∈ row.period.updates, ∀ found,
    s.currentOf row.poolKey input.entrantId = some found → found.rating = input.previous
  version : 0 < row.schemaVersion
  time : 0 ≤ row.committedAt
  fresh : ∀ old ∈ s.periods, row.periodId ≠ old.periodId ∧
    ¬ (row.poolKey = old.poolKey ∧ row.sequence = old.sequence)
  games : ∀ game ∈ row.period.games, 0 < game.seriesGameNumber ∧
    game.scoreOneMillionths ≤ 1000000 ∧ game.entrantOne ≠ game.entrantTwo
  unused : ∀ game ∈ row.period.games, ∀ old ∈ s.matchInputs,
    ¬ (row.poolKey = old.poolKey ∧ game.matchId = old.matchId)
  matchIds : (row.period.games.map (·.matchId)).Nodup
  inputs : ∀ input ∈ row.period.updates, ratingCheck input.previous = true ∧
    ∀ old ∈ s.periodInputs, ¬ (row.periodId = old.periodId ∧ input.entrantId = old.entrantId)
  outputs : ∀ input ∈ row.period.updates, ∃ next, ratingIn row input.entrantId = some next ∧
    ratingCheck next = true ∧ ∀ old ∈ s.updates,
      ¬ (row.periodId = old.periodId ∧ input.entrantId = old.entrantId) ∧
      ¬ (row.poolKey = old.poolKey ∧ row.sequence = old.sequence ∧
        input.entrantId = old.entrantId)
  entrants : (row.period.updates.map (·.entrantId)).Nodup

end Rows

section Games

variable {s t : RatingStore} {row : PeriodRow}

theorem insertRow_eq_ok {ρ : Type} {check : ρ → Bool} {clash : ρ → ρ → Bool} {added : ρ}
    {rows next : List ρ} : insertRow check clash added rows = .ok next ↔
      check added = true ∧ (∀ other ∈ rows, clash added other = false) ∧ next = rows ++ [added] := by
  rw [insertRow, okOr_eq_ok, Table.insert_eq_some]

theorem insertMatch_eq_ok {game : RatedMatchInput} :
    insertMatch row.poolKey row.periodId s game = .ok t ↔
      ((0 < game.seriesGameNumber ∧ game.scoreOneMillionths ≤ 1000000 ∧
          game.entrantOne ≠ game.entrantTwo) ∧
        (∃ old ∈ s.periods, old.periodId = row.periodId) ∧
        ∀ old ∈ s.matchInputs, ¬ (row.poolKey = old.poolKey ∧ game.matchId = old.matchId)) ∧
      t = { s with matchInputs := s.matchInputs ++ [matchInputRow row game] } := by
  rw [insertMatch, bind_eq_ok]
  simp only [insertRow_eq_ok, pure_eq_ok, Bool.and_eq_true, decide_eq_true_eq, bne_iff_ne,
    List.any_eq_true, beq_iff_eq, Bool.and_eq_false_iff, beq_eq_false_iff_ne]
  constructor
  · rintro ⟨rows, ⟨⟨⟨⟨hNumber, hScore⟩, hDistinct⟩, hPeriod⟩, hClear, rfl⟩, rfl⟩
    exact ⟨⟨⟨hNumber, hScore, hDistinct⟩, hPeriod,
      fun old hOld => not_and_or.mpr (hClear old hOld)⟩, rfl⟩
  · rintro ⟨⟨⟨hNumber, hScore, hDistinct⟩, hPeriod, hClear⟩, rfl⟩
    exact ⟨_, ⟨⟨⟨⟨hNumber, hScore⟩, hDistinct⟩, hPeriod⟩,
      fun old hOld => not_and_or.mp (hClear old hOld), rfl⟩, rfl⟩

def RatingStore.withGames (s : RatingStore) (row : PeriodRow) (games : List RatedMatchInput) :
    RatingStore :=
  { s with matchInputs := s.matchInputs ++ games.map (matchInputRow row) }

/-- The games of a period are added together. -/
theorem insertMatches_eq_ok (hPeriod : ∃ old ∈ s.periods, old.periodId = row.periodId)
    {games : List RatedMatchInput} :
    games.foldlM (insertMatch row.poolKey row.periodId) s = .ok t ↔
      (∀ game ∈ games, 0 < game.seriesGameNumber ∧ game.scoreOneMillionths ≤ 1000000 ∧
        game.entrantOne ≠ game.entrantTwo) ∧
      (∀ game ∈ games, ∀ old ∈ s.matchInputs,
        ¬ (row.poolKey = old.poolKey ∧ game.matchId = old.matchId)) ∧
      (games.map (·.matchId)).Nodup ∧ t = s.withGames row games := by
  have hAdded : ∀ (before : List RatedMatchInput) (s : RatingStore),
      before.foldl (fun s game =>
        { s with matchInputs := s.matchInputs ++ [matchInputRow row game] }) s =
      s.withGames row before := by
    intro before
    induction before with
    | nil => intro s; simp [RatingStore.withGames]
    | cons game before ih => intro s; simp [ih, RatingStore.withGames]
  rw [foldlM_eq_ok fun _ _ _ => insertMatch_eq_ok]
  simp only [hAdded]
  constructor
  · rintro ⟨hAll, rfl⟩
    obtain ⟨hUnused, hPairs⟩ := Table.forall_split_free.mp fun before game rest hSplit =>
      (hAll before game rest hSplit).2.2
    refine ⟨fun game hGame => ?_, hUnused, ?_, rfl⟩
    · obtain ⟨before, rest, hSplit⟩ := List.append_of_mem hGame
      exact (hAll before game rest hSplit).1
    · refine List.pairwise_map.mpr (hPairs.imp fun {a b} hFree hSame => hFree ⟨rfl, hSame.symm⟩)
  · rintro ⟨hGames, hUnused, hDistinct, rfl⟩
    refine ⟨fun before game rest hSplit => ⟨hGames game ?_, hPeriod, ?_⟩, rfl⟩
    · rw [hSplit]
      exact List.mem_append_right _ List.mem_cons_self
    · refine Table.forall_split_free.mpr ⟨hUnused, ?_⟩ before game rest hSplit
      exact (List.pairwise_map.mp hDistinct).imp fun hNe hClash => hNe hClash.2.symm

end Games

section Updates

variable {s t : RatingStore} {row : PeriodRow} {input : RatingUpdateInput}

theorem insertPeriodInput_eq_ok : insertPeriodInput row.periodId s input = .ok t ↔
    (ratingCheck input.previous = true ∧ (∃ old ∈ s.periods, old.periodId = row.periodId) ∧
      ∀ old ∈ s.periodInputs, ¬ (row.periodId = old.periodId ∧ input.entrantId = old.entrantId)) ∧
    t = { s with periodInputs := s.periodInputs ++ [periodInputRow row input] } := by
  rw [insertPeriodInput, bind_eq_ok]
  simp only [insertRow_eq_ok, pure_eq_ok, Bool.and_eq_true, List.any_eq_true, beq_iff_eq,
    Bool.and_eq_false_iff, beq_eq_false_iff_ne]
  constructor
  · rintro ⟨rows, ⟨⟨hCheck, hPeriod⟩, hClear, rfl⟩, rfl⟩
    exact ⟨⟨hCheck, hPeriod, fun old hOld => not_and_or.mpr (hClear old hOld)⟩, rfl⟩
  · rintro ⟨⟨hCheck, hPeriod, hClear⟩, rfl⟩
    exact ⟨_, ⟨⟨hCheck, hPeriod⟩, fun old hOld => not_and_or.mp (hClear old hOld), rfl⟩, rfl⟩

theorem insertUpdate_eq_ok {added : UpdateRow} : insertUpdate added s = .ok t ↔
    (ratingCheck added.rating = true ∧
      (∃ old ∈ s.periodInputs, old.periodId = added.periodId ∧
        old.entrantId = added.entrantId) ∧
      ∀ old ∈ s.updates, ¬ (added.periodId = old.periodId ∧ added.entrantId = old.entrantId) ∧
        ¬ (added.poolKey = old.poolKey ∧ added.sequence = old.sequence ∧
          added.entrantId = old.entrantId)) ∧
    t = { s with updates := s.updates ++ [added] } := by
  rw [insertUpdate, bind_eq_ok]
  simp only [insertRow_eq_ok, pure_eq_ok, Bool.and_eq_true, List.any_eq_true, beq_iff_eq,
    Bool.or_eq_false_iff, Bool.and_eq_false_iff, beq_eq_false_iff_ne]
  constructor
  · rintro ⟨rows, ⟨⟨hCheck, hInput⟩, hClear, rfl⟩, rfl⟩
    refine ⟨⟨hCheck, hInput, fun old hOld => ⟨?_, ?_⟩⟩, rfl⟩
    · exact not_and_or.mpr (hClear old hOld).1
    · rintro ⟨hPool, hSequence, hEntrant⟩
      rcases (hClear old hOld).2 with (hNe | hNe) | hNe
      · exact hNe hPool
      · exact hNe hSequence
      · exact hNe hEntrant
  · rintro ⟨⟨hCheck, hInput, hClear⟩, rfl⟩
    refine ⟨_, ⟨⟨hCheck, hInput⟩, fun old hOld => ⟨?_, ?_⟩, rfl⟩, rfl⟩
    · exact not_and_or.mp (hClear old hOld).1
    · have hOther := (hClear old hOld).2
      rw [not_and_or, not_and_or, ← or_assoc] at hOther
      exact hOther

theorem insertCurrent_eq_ok {added : CurrentRow} : insertCurrent added s = .ok t ↔
    (ratingCheck added.rating = true ∧ ∃ old ∈ s.updates, old.periodId = added.periodId ∧
      old.entrantId = added.entrantId) ∧
    t = { s with current := upsertCurrent added s.current } := by
  have hFound : ¬ (s.updates.any (fun update => update.periodId == added.periodId &&
      update.entrantId == added.entrantId) = false) ↔
      ∃ old ∈ s.updates, old.periodId = added.periodId ∧ old.entrantId = added.entrantId := by
    simp
  simp only [insertCurrent, bind_eq_ok, reject_eq_ok, pure_eq_ok, hFound, Bool.not_eq_false]
  constructor
  · rintro ⟨_, hCheck, _, hUpdate, rfl⟩
    exact ⟨⟨hCheck, hUpdate⟩, rfl⟩
  · rintro ⟨⟨hCheck, hUpdate⟩, rfl⟩
    exact ⟨(), hCheck, (), hUpdate, rfl⟩

/-- One turn of the loop over the updates. -/
def updateStep (row : PeriodRow) (s : RatingStore) (input : RatingUpdateInput) :
    Except RatingRepositoryError RatingStore := do
  let s ← insertPeriodInput row.periodId s input
  let next ← okOr (ratingIn row input.entrantId) .corrupt
  let s ← insertUpdate ⟨row.periodId, input.entrantId, row.poolKey, row.sequence, next⟩ s
  insertCurrent ⟨row.poolKey, input.entrantId, row.periodId, row.sequence, next⟩ s

theorem insertUpdates_eq (poolKey : String) (period : RatingPeriod)
    (derived : List (String × RatingValue)) (now : UnixMillis) (s : RatingStore) :
    insertUpdates poolKey period derived s =
      period.updates.foldlM (updateStep (periodRow poolKey period derived now)) s := rfl

def addUpdate (row : PeriodRow) (s : RatingStore) (input : RatingUpdateInput) : RatingStore :=
  { s with
    periodInputs := s.periodInputs ++ [periodInputRow row input]
    updates := s.updates ++ [updateRow row input]
    current := upsertCurrent (currentRow row input) s.current }

theorem updateStep_eq_ok : updateStep row s input = .ok t ↔
    ((∃ old ∈ s.periods, old.periodId = row.periodId) ∧
      (ratingCheck input.previous = true ∧ ∃ next, ratingIn row input.entrantId = some next ∧
        ratingCheck next = true) ∧
      (∀ old ∈ s.periodInputs,
        ¬ (row.periodId = old.periodId ∧ input.entrantId = old.entrantId)) ∧
      ∀ old ∈ s.updates, ¬ (row.periodId = old.periodId ∧ input.entrantId = old.entrantId) ∧
        ¬ (row.poolKey = old.poolKey ∧ row.sequence = old.sequence ∧
          input.entrantId = old.entrantId)) ∧
    t = addUpdate row s input := by
  simp only [updateStep, bind_eq_ok, okOr_eq_ok, insertPeriodInput_eq_ok, insertUpdate_eq_ok,
    insertCurrent_eq_ok]
  constructor
  · rintro ⟨_, ⟨⟨hCheck, hPeriod, hInputs⟩, rfl⟩, next, hNext, _, ⟨⟨hRating, -, hUpdates⟩, rfl⟩,
      -, rfl⟩
    have hAfter : ratingAfter row input = next := by rw [ratingAfter, hNext, Option.getD_some]
    refine ⟨⟨hPeriod, ⟨hCheck, next, hNext, hRating⟩, hInputs, hUpdates⟩, ?_⟩
    rw [addUpdate, updateRow, currentRow, hAfter]
  · rintro ⟨⟨hPeriod, ⟨hCheck, next, hNext, hRating⟩, hInputs, hUpdates⟩, rfl⟩
    have hAfter : ratingAfter row input = next := by rw [ratingAfter, hNext, Option.getD_some]
    refine ⟨_, ⟨⟨hCheck, hPeriod, hInputs⟩, rfl⟩, next, hNext, _, ⟨⟨hRating, ?_, hUpdates⟩, rfl⟩,
      ⟨hRating, ?_⟩, ?_⟩
    · exact ⟨periodInputRow row input, List.mem_append_right _ List.mem_cons_self, rfl, rfl⟩
    · exact ⟨_, List.mem_append_right _ List.mem_cons_self, rfl, rfl⟩
    · rw [addUpdate, updateRow, currentRow, hAfter]

theorem foldl_addUpdate (inputs : List RatingUpdateInput) (s : RatingStore) :
    inputs.foldl (addUpdate row) s =
      { s with
        periodInputs := s.periodInputs ++ inputs.map (periodInputRow row)
        updates := s.updates ++ inputs.map (updateRow row)
        current := advance row inputs s.current } := by
  induction inputs generalizing s with
  | nil => simp [advance]
  | cons input inputs ih => simp [ih, addUpdate, advance]

/-- The updates of a period are added together. -/
theorem insertUpdates_eq_ok (hPeriod : ∃ old ∈ s.periods, old.periodId = row.periodId)
    {inputs : List RatingUpdateInput} :
    inputs.foldlM (updateStep row) s = .ok t ↔
      (∀ input ∈ inputs, ratingCheck input.previous = true ∧ ∃ next,
        ratingIn row input.entrantId = some next ∧ ratingCheck next = true) ∧
      (∀ input ∈ inputs, ∀ old ∈ s.periodInputs,
        ¬ (row.periodId = old.periodId ∧ input.entrantId = old.entrantId)) ∧
      (∀ input ∈ inputs, ∀ old ∈ s.updates,
        ¬ (row.periodId = old.periodId ∧ input.entrantId = old.entrantId) ∧
        ¬ (row.poolKey = old.poolKey ∧ row.sequence = old.sequence ∧
          input.entrantId = old.entrantId)) ∧
      (inputs.map (·.entrantId)).Nodup ∧ t = inputs.foldl (addUpdate row) s := by
  rw [foldlM_eq_ok fun _ _ _ => updateStep_eq_ok]
  simp only [foldl_addUpdate]
  constructor
  · rintro ⟨hAll, rfl⟩
    obtain ⟨hInputs, hPairs⟩ := Table.forall_split_free.mp fun before input rest hSplit =>
      (hAll before input rest hSplit).2.2.1
    obtain ⟨hUpdates, -⟩ := Table.forall_split_free.mp fun before input rest hSplit =>
      (hAll before input rest hSplit).2.2.2
    refine ⟨fun input hInput => ?_, hInputs, hUpdates, ?_, rfl⟩
    · obtain ⟨before, rest, hSplit⟩ := List.append_of_mem hInput
      exact (hAll before input rest hSplit).2.1
    · exact List.pairwise_map.mpr (hPairs.imp fun {a b} hFree hSame => hFree ⟨rfl, hSame.symm⟩)
  · rintro ⟨hChecks, hInputs, hUpdates, hDistinct, rfl⟩
    have hPairs := List.pairwise_map.mp hDistinct
    refine ⟨fun before input rest hSplit => ⟨hPeriod, hChecks input ?_, ?_, ?_⟩, rfl⟩
    · rw [hSplit]
      exact List.mem_append_right _ List.mem_cons_self
    · refine Table.forall_split_free.mpr ⟨hInputs, ?_⟩ before input rest hSplit
      exact hPairs.imp fun hNe hClash => hNe hClash.2.symm
    · refine Table.forall_split_free.mpr ⟨hUpdates, ?_⟩ before input rest hSplit
      exact hPairs.imp fun hNe =>
        ⟨fun hClash => hNe hClash.2.symm, fun hClash => hNe hClash.2.2.symm⟩

end Updates

section Apply

variable {system : RatingSystem} {s t : RatingStore} {period : RatingPeriod}
  {derived : List (String × RatingValue)} {now : UnixMillis} {stored : StoredRatingPeriod}

theorem validateSequence_eq_ok {poolKey : String} {sequence : Nat} {u : Unit} :
    validateSequence s poolKey sequence = .ok u ↔
      sequence < 2 ^ 63 ∧ sequence = nextSequence (s.poolPeriods poolKey) := by
  simp only [validateSequence, bind_eq_ok, reject_eq_ok, Nat.not_le, not_not, nextSequence,
    RatingStore.poolPeriods]
  constructor
  · rintro ⟨_, hBound, hNext⟩
    exact ⟨hBound, hNext⟩
  · rintro ⟨hBound, hNext⟩
    exact ⟨(), hBound, hNext⟩

theorem validatePrevious_eq_ok {poolKey : String} {u : Unit} :
    validatePrevious s poolKey period = .ok u ↔ ∀ input ∈ period.updates, ∀ found,
      s.currentOf poolKey input.entrantId = some found → found.rating = input.previous := by
  rw [validatePrevious, forM_eq_ok]
  refine forall₂_congr fun input _ => ?_
  rw [reject_eq_ok]
  cases s.currentOf poolKey input.entrantId with
  | none => simp
  | some found => simp

/-- The store in the middle of the transaction, with the header of the period. -/
def RatingStore.withPeriod (s : RatingStore) (row : PeriodRow) : RatingStore :=
  { s with periods := s.periods ++ [row] }

theorem RatingStore.exists_withPeriod (s : RatingStore) (row : PeriodRow) :
    ∃ old ∈ (s.withPeriod row).periods, old.periodId = row.periodId :=
  ⟨row, List.mem_append_right _ List.mem_cons_self, rfl⟩

theorem insertPeriod_eq_ok {row : PeriodRow} : insertPeriod row s = .ok t ↔
    (0 < row.schemaVersion ∧ 0 ≤ row.committedAt ∧ ∀ old ∈ s.periods,
      row.periodId ≠ old.periodId ∧ ¬ (row.poolKey = old.poolKey ∧ row.sequence = old.sequence)) ∧
    t = s.withPeriod row := by
  rw [insertPeriod, bind_eq_ok]
  simp only [insertRow_eq_ok, pure_eq_ok, Bool.and_eq_true, decide_eq_true_eq,
    Bool.or_eq_false_iff, Bool.and_eq_false_iff, beq_eq_false_iff_ne]
  constructor
  · rintro ⟨rows, ⟨⟨hVersion, hTime⟩, hClear, rfl⟩, rfl⟩
    exact ⟨⟨hVersion, hTime, fun old hOld => ⟨(hClear old hOld).1,
      not_and_or.mpr (hClear old hOld).2⟩⟩, rfl⟩
  · rintro ⟨⟨hVersion, hTime, hClear⟩, rfl⟩
    exact ⟨_, ⟨⟨hVersion, hTime⟩, fun old hOld => ⟨(hClear old hOld).1,
      not_and_or.mp (hClear old hOld).2⟩, rfl⟩, rfl⟩

/-- A transaction commits exactly what the store admits. -/
theorem apply_eq_ok : s.apply system period derived now = .ok (stored, t) ↔
    ∃ poolKey, period.pool.key system.platform = .ok poolKey ∧
      Admits s (periodRow poolKey period derived now) ∧ stored = ⟨period, derived, now⟩ ∧
      t = s.extend (periodRow poolKey period derived now) := by
  simp only [RatingStore.apply, insertUpdates_eq _ _ _ now, bind_eq_ok, mapErr_eq_ok,
    validateSequence_eq_ok, validatePrevious_eq_ok, pure_eq_ok, Prod.mk.injEq]
  constructor
  · rintro ⟨poolKey, hKey, _, ⟨hBound, hNext⟩, _, hPrevious, s₁, hHeader, s₂, hGames, s₃, hUpdates,
      rfl, rfl⟩
    have hStart : insertPeriod (periodRow poolKey period derived now) s = .ok s₁ := hHeader
    obtain ⟨⟨hVersion, hTime, hFresh⟩, rfl⟩ := insertPeriod_eq_ok.mp hStart
    have hPeriod := s.exists_withPeriod (periodRow poolKey period derived now)
    obtain ⟨hChecks, hUnused, hIds, rfl⟩ := (insertMatches_eq_ok hPeriod).mp hGames
    have hKept : ∃ old ∈ ((s.withPeriod (periodRow poolKey period derived now)).withGames
        (periodRow poolKey period derived now) period.games).periods, old.periodId =
        (periodRow poolKey period derived now).periodId := hPeriod
    obtain ⟨hRatings, hInputs, hOutputs, hEntrants, rfl⟩ :=
      (insertUpdates_eq_ok hKept).mp hUpdates
    refine ⟨poolKey, hKey, ?_, rfl, ?_⟩
    · refine ⟨hBound, hNext, hPrevious, hVersion, hTime, hFresh, hChecks, hUnused, hIds, ?_, ?_,
        hEntrants⟩
      · exact fun input hInput => ⟨(hRatings input hInput).1, hInputs input hInput⟩
      · intro input hInput
        obtain ⟨-, next, hNext, hCheck⟩ := hRatings input hInput
        exact ⟨next, hNext, hCheck, hOutputs input hInput⟩
    · rw [foldl_addUpdate]
      rfl
  · rintro ⟨poolKey, hKey, hAdmits, rfl, rfl⟩
    have hPeriod := s.exists_withPeriod (periodRow poolKey period derived now)
    have hKept : ∃ old ∈ ((s.withPeriod (periodRow poolKey period derived now)).withGames
        (periodRow poolKey period derived now) period.games).periods, old.periodId =
        (periodRow poolKey period derived now).periodId := hPeriod
    refine ⟨poolKey, hKey, (), ⟨hAdmits.bounded, hAdmits.sequence⟩, (), hAdmits.previous, _,
      insertPeriod_eq_ok.mpr ⟨⟨hAdmits.version, hAdmits.time, hAdmits.fresh⟩, rfl⟩, _,
      (insertMatches_eq_ok hPeriod).mpr ⟨hAdmits.games, hAdmits.unused, hAdmits.matchIds, rfl⟩, _,
      (insertUpdates_eq_ok hKept).mpr ⟨?_, ?_, ?_, hAdmits.entrants, rfl⟩, rfl, ?_⟩
    · intro input hInput
      obtain ⟨next, hNext, hCheck, -⟩ := hAdmits.outputs input hInput
      exact ⟨(hAdmits.inputs input hInput).1, next, hNext, hCheck⟩
    · exact fun input hInput => (hAdmits.inputs input hInput).2
    · intro input hInput
      obtain ⟨next, -, -, hFree⟩ := hAdmits.outputs input hInput
      exact hFree
    · rw [foldl_addUpdate]
      rfl

end Apply

end WordArena.Rating
