import Std.Data.TreeMap
import WordArena.Library.Machine
import WordArena.Library.Table
import WordArena.Rating.Model

/-! The rating repository. A commit looks the period up, and writes the period, its
normalised rows and the current ratings in one transaction when it is new. JSON
columns hold the value they encode. -/
namespace WordArena.Rating

open Fallible WordArena.Engine WordArena.Application

inductive RatingRepositoryError where
  | notFound
  | conflict
  | corrupt
  | unavailable
deriving DecidableEq

structure StoredRatingPeriod where
  period : RatingPeriod
  derived : List (String × RatingValue)
  committedAt : UnixMillis
deriving DecidableEq

inductive RatingCommitResult where
  | applied (stored : StoredRatingPeriod)
  | alreadyApplied (stored : StoredRatingPeriod)
deriving DecidableEq

section Rows

structure PeriodRow where
  periodId : String
  schemaVersion : Nat
  poolKey : String
  sequence : Nat
  pool : RatingPool
  period : RatingPeriod
  derived : List (String × RatingValue)
  committedAt : UnixMillis
deriving DecidableEq

structure MatchInputRow where
  poolKey : String
  matchId : String
  periodId : String
  seriesId : String
  seriesGameNumber : Nat
  entrantOne : String
  entrantTwo : String
  scoreOneMillionths : Nat
deriving DecidableEq

structure PeriodInputRow where
  periodId : String
  entrantId : String
  previous : RatingValue
  opponents : List RatingOpponent
deriving DecidableEq

structure UpdateRow where
  periodId : String
  entrantId : String
  poolKey : String
  sequence : Nat
  rating : RatingValue
deriving DecidableEq

structure CurrentRow where
  poolKey : String
  entrantId : String
  periodId : String
  sequence : Nat
  rating : RatingValue
deriving DecidableEq

structure RatingStore where
  periods : List PeriodRow
  matchInputs : List MatchInputRow
  periodInputs : List PeriodInputRow
  updates : List UpdateRow
  current : List CurrentRow
deriving DecidableEq

def RatingStore.empty : RatingStore := ⟨[], [], [], [], []⟩

/-- The columns of a rating that must be positive. -/
def ratingCheck (rating : RatingValue) : Bool :=
  decide (0 < rating.deviationMilli) && decide (0 < rating.volatilityNano)

end Rows

section Insert

/-- A violated constraint is a conflict. -/
def insertRow {ρ : Type} (check : ρ → Bool) (clash : ρ → ρ → Bool) (row : ρ) (rows : List ρ) :
    Except RatingRepositoryError (List ρ) :=
  okOr (Table.insert check clash row rows) .conflict

def maxSequence (rows : List PeriodRow) : Option Nat := (rows.map (·.sequence)).max?

def validateSequence (s : RatingStore) (poolKey : String) (sequence : Nat) :
    Except RatingRepositoryError Unit := do
  let previous := maxSequence (s.periods.filter (·.poolKey == poolKey))
  let expected := (previous.map fun value => min (value + 1) (2 ^ 63 - 1)).getD 0
  reject (2 ^ 63 ≤ sequence) .corrupt
  reject (sequence ≠ expected) .conflict

def RatingStore.currentOf (s : RatingStore) (poolKey entrantId : String) : Option CurrentRow :=
  s.current.find? fun row => row.poolKey == poolKey && row.entrantId == entrantId

def validatePrevious (s : RatingStore) (poolKey : String) (period : RatingPeriod) :
    Except RatingRepositoryError Unit :=
  period.updates.forM fun input =>
    reject ((s.currentOf poolKey input.entrantId).any (fun row => row.rating != input.previous) =
      true) .conflict

def insertPeriod (row : PeriodRow) (s : RatingStore) :
    Except RatingRepositoryError RatingStore := do
  let rows ← insertRow
    (fun row => decide (0 < row.schemaVersion) && decide (0 ≤ row.committedAt))
    (fun a b => a.periodId == b.periodId || (a.poolKey == b.poolKey && a.sequence == b.sequence))
    row s.periods
  return { s with periods := rows }

def insertMatch (poolKey periodId : String) (s : RatingStore) (game : RatedMatchInput) :
    Except RatingRepositoryError RatingStore := do
  let rows ← insertRow
    (fun row => decide (0 < row.seriesGameNumber) &&
      decide (row.scoreOneMillionths ≤ 1000000) && row.entrantOne != row.entrantTwo &&
      s.periods.any (·.periodId == row.periodId))
    (fun a b => a.poolKey == b.poolKey && a.matchId == b.matchId)
    (⟨poolKey, game.matchId, periodId, game.seriesId, game.seriesGameNumber, game.entrantOne,
      game.entrantTwo, game.scoreOneMillionths⟩ : MatchInputRow) s.matchInputs
  return { s with matchInputs := rows }

def insertPeriodInput (periodId : String) (s : RatingStore) (input : RatingUpdateInput) :
    Except RatingRepositoryError RatingStore := do
  let rows ← insertRow
    (fun row => ratingCheck row.previous && s.periods.any (·.periodId == row.periodId))
    (fun a b => a.periodId == b.periodId && a.entrantId == b.entrantId)
    (⟨periodId, input.entrantId, input.previous, input.opponents⟩ : PeriodInputRow)
    s.periodInputs
  return { s with periodInputs := rows }

def insertUpdate (row : UpdateRow) (s : RatingStore) :
    Except RatingRepositoryError RatingStore := do
  let rows ← insertRow
    (fun row => ratingCheck row.rating && s.periodInputs.any fun input =>
      input.periodId == row.periodId && input.entrantId == row.entrantId)
    (fun a b => (a.periodId == b.periodId && a.entrantId == b.entrantId) ||
      (a.poolKey == b.poolKey && a.sequence == b.sequence && a.entrantId == b.entrantId))
    row s.updates
  return { s with updates := rows }

/-- A row of the same entrant is overwritten by a later sequence only. -/
def upsertCurrent (row : CurrentRow) (rows : List CurrentRow) : List CurrentRow :=
  if rows.any (fun old => old.poolKey == row.poolKey && old.entrantId == row.entrantId) then
    Table.update (fun old => old.poolKey == row.poolKey && old.entrantId == row.entrantId &&
      decide (old.sequence < row.sequence)) (fun _ => row) rows
  else rows ++ [row]

def insertCurrent (row : CurrentRow) (s : RatingStore) :
    Except RatingRepositoryError RatingStore := do
  reject (ratingCheck row.rating = false) .conflict
  reject (s.updates.any (fun update => update.periodId == row.periodId &&
    update.entrantId == row.entrantId) = false) .conflict
  return { s with current := upsertCurrent row s.current }

def insertUpdates (poolKey : String) (period : RatingPeriod)
    (derived : List (String × RatingValue)) (s : RatingStore) :
    Except RatingRepositoryError RatingStore :=
  let ratings := Std.TreeMap.ofList derived
  period.updates.foldlM (fun s input => do
    let s ← insertPeriodInput period.periodId s input
    let next ← okOr (ratings.get? input.entrantId) .corrupt
    let s ← insertUpdate ⟨period.periodId, input.entrantId, poolKey, period.sequence, next⟩ s
    insertCurrent ⟨poolKey, input.entrantId, period.periodId, period.sequence, next⟩ s) s

/-- The transaction of a commit. -/
def RatingStore.apply (system : RatingSystem) (s : RatingStore) (period : RatingPeriod)
    (derived : List (String × RatingValue)) (now : UnixMillis) :
    Except RatingRepositoryError (StoredRatingPeriod × RatingStore) := do
  let poolKey ← mapErr (fun _ => .corrupt) (period.pool.key system.platform)
  validateSequence s poolKey period.sequence
  validatePrevious s poolKey period
  let s ← insertPeriod ⟨period.periodId, period.schemaVersion, poolKey, period.sequence,
    period.pool, period, derived, now⟩ s
  let s ← period.games.foldlM (insertMatch poolKey period.periodId) s
  let s ← insertUpdates poolKey period derived s
  return (⟨period, derived, now⟩, s)

end Insert

section Load

def storedPeriod (system : RatingSystem) (row : PeriodRow) :
    Except RatingRepositoryError StoredRatingPeriod := do
  mapErr (fun _ => .corrupt) row.period.validate
  let derived ← mapErr (fun _ => .corrupt) (row.period.derive system)
  let poolKey ← mapErr (fun _ => .corrupt) (row.period.pool.key system.platform)
  reject (derived ≠ row.derived ∨ row.periodId ≠ row.period.periodId ∨
    row.schemaVersion ≠ ratingSchemaVersion ∨ row.sequence ≠ row.period.sequence ∨
    row.poolKey ≠ poolKey ∨ row.pool ≠ row.period.pool) .corrupt
  return ⟨row.period, row.derived, row.committedAt⟩

/-- Rows are compared with what is expected at their place. -/
def validateRows {ρ β : Type} (agrees : ρ → β → Bool) (rows : List ρ) (expected : List β) :
    Except RatingRepositoryError Unit := do
  reject (rows.length ≠ expected.length) .corrupt
  (rows.zip expected).forM fun pair => reject (agrees pair.1 pair.2 = false) .corrupt

def matchAgrees (poolKey : String) (row : MatchInputRow) (expected : RatedMatchInput) : Bool :=
  row.poolKey == poolKey && row.matchId == expected.matchId && row.seriesId == expected.seriesId &&
    row.seriesGameNumber == expected.seriesGameNumber && row.entrantOne == expected.entrantOne &&
    row.entrantTwo == expected.entrantTwo &&
    row.scoreOneMillionths == expected.scoreOneMillionths

def inputAgrees (row : PeriodInputRow) (expected : RatingUpdateInput) : Bool :=
  row.entrantId == expected.entrantId && row.previous == expected.previous &&
    row.opponents == expected.opponents

def updateAgrees (poolKey : String) (sequence : Nat) (row : UpdateRow)
    (expected : String × RatingValue) : Bool :=
  row.entrantId == expected.1 && row.poolKey == poolKey && row.sequence == sequence &&
    row.rating == expected.2

def validateNormalizedRows (system : RatingSystem) (s : RatingStore)
    (stored : StoredRatingPeriod) : Except RatingRepositoryError Unit := do
  let poolKey ← mapErr (fun _ => .corrupt) (stored.period.pool.key system.platform)
  let id := stored.period.periodId
  validateRows (matchAgrees poolKey)
    ((s.matchInputs.filter (·.periodId == id)).insertionSort fun a b => a.matchId ≤ b.matchId)
    (stored.period.games.insertionSort fun a b => a.matchId ≤ b.matchId)
  validateRows inputAgrees
    ((s.periodInputs.filter (·.periodId == id)).insertionSort fun a b => a.entrantId ≤ b.entrantId)
    (stored.period.updates.insertionSort fun a b => a.entrantId ≤ b.entrantId)
  validateRows (updateAgrees poolKey stored.period.sequence)
    ((s.updates.filter (·.periodId == id)).insertionSort fun a b => a.entrantId ≤ b.entrantId)
    stored.derived

def RatingStore.loadPeriod (system : RatingSystem) (s : RatingStore) (periodId : String) :
    Except RatingRepositoryError StoredRatingPeriod := do
  reject (validId periodId 256 = false) .corrupt
  let row ← okOr (s.periods.find? (·.periodId == periodId)) .notFound
  let stored ← storedPeriod system row
  validateNormalizedRows system s stored
  return stored

end Load

section Commit

/-- What a commit checks before it asks the database. -/
def prepare (system : RatingSystem) (period : RatingPeriod) (now : UnixMillis) :
    Except RatingRepositoryError (List (String × RatingValue)) := do
  mapErr (fun _ => .corrupt) period.validate
  reject (now < 0) .corrupt
  mapErr (fun _ => .corrupt) (period.derive system)

/-- The lookup of a commit: an identical period is a repetition, and another one under
the same identifier a conflict. -/
def RatingStore.lookup (system : RatingSystem) (s : RatingStore) (period : RatingPeriod)
    (derived : List (String × RatingValue)) :
    Except RatingRepositoryError (Option StoredRatingPeriod) :=
  match s.loadPeriod system period.periodId with
  | .ok existing =>
      if existing.period = period ∧ existing.derived = derived then .ok (some existing)
      else .error .conflict
  | .error .notFound => .ok none
  | .error e => .error e

/-- A commit that nothing interrupts. -/
def RatingStore.commitPeriod (system : RatingSystem) (s : RatingStore) (period : RatingPeriod)
    (now : UnixMillis) : Except RatingRepositoryError (RatingCommitResult × RatingStore) := do
  let derived ← prepare system period now
  match ← s.lookup system period derived with
  | some existing => return (.alreadyApplied existing, s)
  | none =>
      let (stored, s) ← s.apply system period derived now
      return (.applied stored, s)

def ratingMachine (system : RatingSystem) : Machine RatingStore (RatingPeriod × UnixMillis)
    (Except RatingRepositoryError RatingCommitResult) where
  step s request := transact s (s.commitPeriod system request.1 request.2)

end Commit

section Rebuild

def validateCurrentRows (s : RatingStore) (poolKey : String)
    (rebuilt : List (String × RatingValue)) : Except RatingRepositoryError Unit :=
  validateRows (fun (row : CurrentRow) (expected : String × RatingValue) =>
      row.entrantId == expected.1 && row.rating == expected.2)
    ((s.current.filter (·.poolKey == poolKey)).insertionSort fun a b => a.entrantId ≤ b.entrantId)
    rebuilt

def periodOrder (a b : PeriodRow) : Prop :=
  a.sequence < b.sequence ∨ a.sequence = b.sequence ∧ a.periodId ≤ b.periodId

instance : DecidableRel periodOrder := fun a b =>
  inferInstanceAs (Decidable (a.sequence < b.sequence ∨
    a.sequence = b.sequence ∧ a.periodId ≤ b.periodId))

/-- One period of a rebuild: the chain of previous ratings, then the new ones. -/
def replayPeriod (system : RatingSystem) (s : RatingStore) (pool : RatingPool)
    (ratings : Std.TreeMap String RatingValue) (entry : PeriodRow × Nat) :
    Except RatingRepositoryError (Std.TreeMap String RatingValue) := do
  let stored ← storedPeriod system entry.1
  validateNormalizedRows system s stored
  reject (stored.period.pool ≠ pool ∨ stored.period.sequence ≠ entry.2) .corrupt
  stored.period.updates.forM fun input =>
    reject ((ratings.get? input.entrantId).any (· != input.previous) = true) .corrupt
  return ratings.insertMany stored.derived

def RatingStore.rebuildPool (system : RatingSystem) (s : RatingStore) (pool : RatingPool) :
    Except RatingRepositoryError (List (String × RatingValue)) := do
  let poolKey ← mapErr (fun _ => .corrupt) (pool.key system.platform)
  let rows := (s.periods.filter (·.poolKey == poolKey)).insertionSort periodOrder
  let ratings ← rows.zipIdx.foldlM (replayPeriod system s pool) ∅
  let rebuilt := ratings.toList
  validateCurrentRows s poolKey rebuilt
  return rebuilt

end Rebuild

end WordArena.Rating
