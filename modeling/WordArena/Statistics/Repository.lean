import WordArena.Library.Machine
import WordArena.Library.Table
import WordArena.Statistics.Model

/-! The statistics repository. A match is recorded with the two observations derived
from it, after a lookup of its source. JSON columns hold the value they encode. -/
namespace WordArena.Statistics

open Fallible WordArena.Engine WordArena.Application

inductive StatisticsRepositoryError where
  | invalidInput
  | conflict
  | corrupt
  | unavailable
deriving DecidableEq

/-- How a record ends without an answer of the repository. -/
inductive RecordFault where
  | error (e : StatisticsRepositoryError)
  | panicked
deriving DecidableEq

section Rows

structure SourceRow where
  sourceId : String
  schemaVersion : Nat
  tournamentId : Option String
  matchId : String
  gameId : String
  finishedAt : UnixMillis
  source : MatchStatisticsInput
  observations : Vector StatisticsObservation 2
  recordedAt : UnixMillis
deriving DecidableEq

structure ObservationRow where
  observationId : String
  sourceId : String
  schemaVersion : Nat
  scope : StatisticsScope
  observation : StatisticsObservation
deriving DecidableEq

structure StatisticsStore where
  sources : List SourceRow
  observations : List ObservationRow
deriving DecidableEq

def StatisticsStore.empty : StatisticsStore := ⟨[], []⟩

def SourceRow.check (row : SourceRow) : Bool :=
  decide (0 < row.schemaVersion) && decide (0 ≤ row.finishedAt) && decide (0 ≤ row.recordedAt)

/-- The columns of the scope that are constrained. -/
def scopeCheck (scope : StatisticsScope) : Bool :=
  validSha256 scope.rulesetSha256 && validSha256 scope.packSha256 &&
    scope.agentManifestSha256.all validSha256 &&
    (scope.seatNumber == 1 || scope.seatNumber == 2) && decide (0 ≤ scope.finishedAt)

end Rows

section Record

/-- A violated constraint is a conflict. -/
def insertRow {ρ : Type} (check : ρ → Bool) (clash : ρ → ρ → Bool) (row : ρ) (rows : List ρ) :
    Except StatisticsRepositoryError (List ρ) :=
  okOr (Table.insert check clash row rows) .conflict

def stripSuffix (value suffix : String) : Option String :=
  if suffix.toList <:+ value.toList then
    some (String.ofList (value.toList.take (value.toList.length - suffix.toList.length)))
  else none

def insertSource (row : SourceRow) (s : StatisticsStore) :
    Except StatisticsRepositoryError StatisticsStore := do
  let rows ← insertRow SourceRow.check (fun a b => a.sourceId == b.sourceId) row s.sources
  return { s with sources := rows }

def insertObservation (s : StatisticsStore) (observation : StatisticsObservation) :
    Except StatisticsRepositoryError StatisticsStore := do
  let sourceId ← okOr (stripSuffix observation.sourceId
    (":seat-" ++ toString observation.scope.seatNumber)) .corrupt
  let rows ← insertRow
    (fun row => decide (0 < row.schemaVersion) && scopeCheck row.scope &&
      s.sources.any (·.sourceId == row.sourceId))
    (fun a b => a.observationId == b.observationId ||
      (a.sourceId == b.sourceId && a.scope.seatNumber == b.scope.seatNumber))
    (⟨observation.sourceId, sourceId, observation.schemaVersion, observation.scope,
      observation⟩ : ObservationRow) s.observations
  return { s with observations := rows }

/-- The transaction of a record. -/
def StatisticsStore.apply (s : StatisticsStore) (source : MatchStatisticsInput)
    (derived : Vector StatisticsObservation 2) (now : UnixMillis) :
    Except StatisticsRepositoryError (Vector StatisticsObservation 2 × StatisticsStore) := do
  let s ← insertSource ⟨source.sourceId, source.schemaVersion, source.tournamentId,
    source.matchId, source.gameId, source.finishedAt, source, derived, now⟩ s
  let s ← derived.toList.foldlM insertObservation s
  return (derived, s)

end Record

section Load

inductive SourceLoadError where
  | notFound
  | repository (e : StatisticsRepositoryError)
deriving DecidableEq

def parseSource (row : SourceRow) : Except StatisticsRepositoryError MatchStatisticsInput := do
  reject (row.sourceId ≠ row.source.sourceId ∨ row.schemaVersion ≠ statisticsSchemaVersion ∨
    row.tournamentId ≠ row.source.tournamentId ∨ row.matchId ≠ row.source.matchId ∨
    row.gameId ≠ row.source.gameId ∨ row.finishedAt ≠ row.source.finishedAt ∨
    row.recordedAt < 0) .corrupt
  return row.source

def observationAgrees (row : ObservationRow) (observation : StatisticsObservation) : Bool :=
  row.observation == observation && row.observationId == observation.sourceId &&
    row.schemaVersion == statisticsSchemaVersion && row.scope == observation.scope

def validateObservationRows (s : StatisticsStore) (sourceId : String)
    (expected : Vector StatisticsObservation 2) : Except StatisticsRepositoryError Unit := do
  let rows := (s.observations.filter (·.sourceId == sourceId)).insertionSort fun a b =>
    a.scope.seatNumber ≤ b.scope.seatNumber
  reject (rows.length ≠ 2) .corrupt
  (rows.zip expected.toList).forM fun pair =>
    reject (observationAgrees pair.1 pair.2 = false) .corrupt

/-- A stored source is derived again; a panic there is not an answer. -/
def StatisticsStore.loadSource (platform : Platform) (s : StatisticsStore) (sourceId : String) :
    Except (Option SourceLoadError)
      (MatchStatisticsInput × Vector StatisticsObservation 2) := do
  reject (validId sourceId 256 = false) (some (.repository .corrupt))
  let row ← okOr (s.sources.find? (·.sourceId == sourceId)) (some .notFound)
  let source ← mapErr (some ∘ .repository) (parseSource row)
  let observations ← mapErr (fun fault => match fault with
    | .error _ => some (.repository .corrupt)
    | .panicked => none) (source.derive platform)
  reject (row.observations ≠ observations) (some (.repository .corrupt))
  mapErr (some ∘ .repository) (validateObservationRows s sourceId observations)
  return (source, observations)

end Load

section Submit

/-- What a record checks before it asks the database. -/
def prepare (platform : Platform) (source : MatchStatisticsInput) (now : UnixMillis) :
    Except RecordFault (Vector StatisticsObservation 2) := do
  let derived ← mapErr (fun fault => match fault with
    | .error _ => .error .invalidInput
    | .panicked => .panicked) (source.derive platform)
  reject (now < 0) (.error .invalidInput)
  return derived

/-- The lookup of a record: an identical source is a repetition, and another one under
the same identifier a conflict. -/
def StatisticsStore.lookup (platform : Platform) (s : StatisticsStore)
    (source : MatchStatisticsInput) (derived : Vector StatisticsObservation 2) :
    Except RecordFault (Option (Vector StatisticsObservation 2)) :=
  match s.loadSource platform source.sourceId with
  | .ok (existing, observations) =>
      if existing = source ∧ observations = derived then .ok (some observations)
      else .error (.error .conflict)
  | .error (some .notFound) => .ok none
  | .error (some (.repository e)) => .error (.error e)
  | .error none => .error .panicked

inductive StatisticsRecordResult where
  | applied (observations : Vector StatisticsObservation 2)
  | alreadyApplied (observations : Vector StatisticsObservation 2)

/-- A record that nothing interrupts. -/
def StatisticsStore.recordSource (platform : Platform) (s : StatisticsStore)
    (source : MatchStatisticsInput) (now : UnixMillis) :
    Except RecordFault (StatisticsRecordResult × StatisticsStore) := do
  let derived ← prepare platform source now
  match ← s.lookup platform source derived with
  | some observations => return (.alreadyApplied observations, s)
  | none =>
      let (observations, s) ← mapErr .error (s.apply source derived now)
      return (.applied observations, s)

def statisticsMachine (platform : Platform) :
    Machine StatisticsStore (MatchStatisticsInput × UnixMillis)
      (Except RecordFault StatisticsRecordResult) where
  step s request := transact s (s.recordSource platform request.1 request.2)

end Submit

end WordArena.Statistics
