import WordArena.Library.Table
import WordArena.Library.Machine
import WordArena.Service.Model
import WordArena.Tournament.Schedule

/-! The tournament repository. A tournament is kept as typed documents and as
normalised rows; inserts and lifecycle transitions are transactions, while a load
reads one table after the other. JSON columns hold the value they encode. -/
namespace WordArena.Tournament

open Fallible WordArena.Engine WordArena.Application
open WordArena.Service (RepositoryError)

section Lifecycle

inductive TournamentLifecycleState where
  | draft
  | scheduled
  | running
  | paused
  | finished
  | cancelled
deriving DecidableEq

def TournamentLifecycleState.asStr : TournamentLifecycleState → String
  | .draft => "draft"
  | .scheduled => "scheduled"
  | .running => "running"
  | .paused => "paused"
  | .finished => "finished"
  | .cancelled => "cancelled"

def TournamentLifecycleState.canTransitionTo : TournamentLifecycleState →
    TournamentLifecycleState → Bool
  | .draft, .scheduled => true
  | .draft, .cancelled => true
  | .scheduled, .running => true
  | .scheduled, .cancelled => true
  | .paused, .running => true
  | .paused, .cancelled => true
  | .running, .paused => true
  | .running, .finished => true
  | .running, .cancelled => true
  | _, _ => false

structure TournamentLifecycleEvent where
  schemaVersion : Nat
  sequence : Nat
  state : TournamentLifecycleState
  occurredAt : UnixMillis
deriving DecidableEq

structure StoredTournament where
  spec : TournamentSpec
  schedule : TournamentSchedule
  swissProgress : Option SwissProgress
  lifecycle : List TournamentLifecycleEvent
deriving DecidableEq

def StoredTournament.expected (platform : Platform) (t : StoredTournament) :
    Except TournamentError TournamentSchedule :=
  match t.spec.format, t.swissProgress with
  | .swiss .., some progress => t.spec.scheduleSwissRound platform progress
  | .swiss .., none => .error .invalidSwissProgress
  | _, none => t.spec.schedule platform
  | _, some _ => .error .invalidSwissProgress

/-- The checks on the event at one place of the lifecycle. -/
def eventValid (lifecycle : List TournamentLifecycleEvent) (sequence : Nat)
    (event : TournamentLifecycleEvent) : Bool :=
  event.schemaVersion == lifecycleSchemaVersion && event.sequence == sequence &&
    decide (0 ≤ event.occurredAt) &&
    (sequence == 0 || lifecycle[sequence - 1]?.any fun before =>
      before.state.canTransitionTo event.state && decide (before.occurredAt ≤ event.occurredAt))

/-- Revalidation of the whole schedule and of the ordered lifecycle. -/
def StoredTournament.validate (platform : Platform) (t : StoredTournament) :
    Except TournamentError Unit := do
  t.spec.validate
  let expected ← t.expected platform
  reject (t.schedule ≠ expected ∨ t.lifecycle = []) .invalidSpec
  t.lifecycle.zipIdx.forM fun entry =>
    reject (eventValid t.lifecycle entry.2 entry.1 = false) .invalidSpec
  reject (t.lifecycle.head?.map (·.state) ≠ some .scheduled) .invalidSpec

end Lifecycle

section Rows

structure TournamentRow where
  tournamentId : String
  schemaVersion : Nat
  formatKind : String
  status : String
  config : TournamentSpec
  createdAt : UnixMillis
  updatedAt : UnixMillis
deriving DecidableEq

structure EntryRow where
  tournamentId : String
  entrantId : String
  seedNumber : Nat
  manifestSha256 : Option String
deriving DecidableEq

structure ScheduleRow where
  tournamentId : String
  formatSchemaVersion : Nat
  scheduleSchemaVersion : Nat
  lifecycleSchemaVersion : Nat
  formatIdentitySha256 : String
  spec : TournamentSpec
  schedule : TournamentSchedule
  swissProgress : Option SwissProgress
  createdAt : UnixMillis
deriving DecidableEq

structure SeriesRow where
  seriesId : String
  tournamentId : String
  roundNumber : Nat
  tableNumber : Nat
  entrantA : String
  entrantB : String
  matchCount : Nat
  status : String
deriving DecidableEq

/-- A scheduled match without a game. -/
structure MatchRow where
  matchId : String
  tournamentId : String
  sequence : Nat
  language : String
  rulesetId : String
  rulesetSha256 : String
  lexiconPackId : String
  lexiconPackVersion : String
  lexiconContentSha256 : String
  status : String
  scheduledAt : UnixMillis
  createdAt : UnixMillis
deriving DecidableEq

structure MatchScheduleRow where
  matchId : String
  tournamentId : String
  seriesId : String
  sequence : Nat
  roundNumber : Nat
  tableNumber : Nat
  seriesGameNumber : Nat
  gameSeedCommitmentSha256 : String
  formatIdentitySha256 : String
deriving DecidableEq

structure SeatRow where
  matchId : String
  tournamentId : String
  seatNumber : Nat
  entrantId : String
deriving DecidableEq

structure ByeRow where
  tournamentId : String
  roundNumber : Nat
  entrantId : String
deriving DecidableEq

structure EventRow where
  tournamentId : String
  sequence : Nat
  lifecycleSchemaVersion : Nat
  state : String
  occurredAt : UnixMillis
deriving DecidableEq

/-- The tables of the repository, and the keys of the tables they refer to. -/
structure TournamentStore where
  tournaments : List TournamentRow
  entries : List EntryRow
  schedules : List ScheduleRow
  series : List SeriesRow
  matchRows : List MatchRow
  matchSchedule : List MatchScheduleRow
  seats : List SeatRow
  byes : List ByeRow
  events : List EventRow
  rulesets : List (String × String)
  lexicons : List (String × String × String)
  manifests : List String
deriving DecidableEq

/-- A database in which no tournament was inserted yet. -/
def TournamentStore.fresh (rulesets : List (String × String))
    (lexicons : List (String × String × String)) (manifests : List String) : TournamentStore :=
  ⟨[], [], [], [], [], [], [], [], [], rulesets, lexicons, manifests⟩

end Rows

section Insert

/-- An insert checks its row, the uniqueness constraints and the references, in
this order. -/
def insertRow {ρ : Type} (check : ρ → Bool) (clash : ρ → ρ → Bool) (refers : ρ → Bool)
    (row : ρ) (rows : List ρ) : Except RepositoryError (List ρ) := do
  reject (check row = false) .conflict
  reject (rows.any (clash row) = true) .alreadyExists
  reject (refers row = false) .conflict
  return rows ++ [row]

/-- An `i64` column for an unsigned counter. -/
def fitI64 (n : Nat) : Except RepositoryError Nat :=
  if n < 2 ^ 63 then .ok n else .error .corrupt

def lifecycleTexts : List String :=
  ["draft", "scheduled", "running", "paused", "finished", "cancelled"]

def TournamentRow.check (row : TournamentRow) : Bool :=
  decide (0 < row.schemaVersion) &&
    ["round_robin", "paired_seat_swap", "swiss", "series"].contains row.formatKind &&
    lifecycleTexts.contains row.status && decide (0 ≤ row.createdAt) &&
    decide (row.createdAt ≤ row.updatedAt)

def insertTournamentRow (row : TournamentRow) (s : TournamentStore) :
    Except RepositoryError TournamentStore := do
  let rows ← insertRow TournamentRow.check (fun a b => a.tournamentId == b.tournamentId)
    (fun _ => true) row s.tournaments
  return { s with tournaments := rows }

def insertEntry (tournamentId : String) (s : TournamentStore) (entrant : TournamentEntrant) :
    Except RepositoryError TournamentStore := do
  let rows ← insertRow (fun row => decide (0 < row.seedNumber))
    (fun a b => a.tournamentId == b.tournamentId &&
      (a.entrantId == b.entrantId || a.seedNumber == b.seedNumber))
    (fun row => s.tournaments.any (·.tournamentId == row.tournamentId) &&
      row.manifestSha256.all s.manifests.contains)
    (⟨tournamentId, entrant.entrantId, entrant.seedNumber, entrant.manifestSha256⟩ : EntryRow)
    s.entries
  return { s with entries := rows }

def insertSchedule (row : ScheduleRow) (s : TournamentStore) :
    Except RepositoryError TournamentStore := do
  let rows ← insertRow (fun row => decide (0 < row.formatSchemaVersion) &&
      decide (0 < row.scheduleSchemaVersion) && decide (0 < row.lifecycleSchemaVersion) &&
      validSha256 row.formatIdentitySha256 && decide (0 ≤ row.createdAt))
    (fun a b => a.tournamentId == b.tournamentId)
    (fun row => s.tournaments.any (·.tournamentId == row.tournamentId)) row s.schedules
  return { s with schedules := rows }

/-- Whether an entrant of a tournament is registered. -/
def TournamentStore.entered (s : TournamentStore) (tournamentId entrantId : String) : Bool :=
  s.entries.any fun row => row.tournamentId == tournamentId && row.entrantId == entrantId

def insertSeries (tournamentId : String) (s : TournamentStore) (series : ScheduledSeries) :
    Except RepositoryError TournamentStore := do
  let matchCount ← fitI64 series.matchIds.length
  let rows ← insertRow (fun row => decide (0 < row.roundNumber) && decide (0 < row.tableNumber) &&
      decide (0 < row.matchCount) && row.entrantA != row.entrantB)
    (fun a b => a.seriesId == b.seriesId || (a.tournamentId == b.tournamentId &&
      a.roundNumber == b.roundNumber && a.tableNumber == b.tableNumber))
    (fun row => s.tournaments.any (·.tournamentId == row.tournamentId) &&
      s.entered row.tournamentId row.entrantA && s.entered row.tournamentId row.entrantB)
    (⟨series.seriesId, tournamentId, series.roundNumber, series.tableNumber, series.entrantA,
      series.entrantB, matchCount, "pending"⟩ : SeriesRow) s.series
  return { s with series := rows }

def insertMatchRow (tournamentId : String) (createdAt : UnixMillis) (s : TournamentStore)
    (game : ScheduledMatch) : Except RepositoryError TournamentStore := do
  let sequence ← fitI64 game.sequence
  let rows ← insertRow (fun row => decide (2 ≤ row.language.length ∧ row.language.length ≤ 35) &&
      decide (0 ≤ row.scheduledAt) && decide (0 ≤ row.createdAt))
    (fun a b => a.matchId == b.matchId ||
      (a.tournamentId == b.tournamentId && a.sequence == b.sequence))
    (fun row => s.tournaments.any (·.tournamentId == row.tournamentId) &&
      s.rulesets.contains (row.rulesetId, row.rulesetSha256) &&
      s.lexicons.contains (row.lexiconPackId, row.lexiconPackVersion, row.lexiconContentSha256))
    (⟨game.matchId, tournamentId, sequence, game.profile.language, game.profile.rulesetId,
      game.profile.rulesetSha256, game.profile.lexicon.packId, game.profile.lexicon.packVersion,
      game.profile.lexicon.contentSha256, "pending", createdAt, createdAt⟩ : MatchRow) s.matchRows
  return { s with matchRows := rows }

def insertMatchSchedule (tournamentId formatSha256 : String) (s : TournamentStore)
    (game : ScheduledMatch) : Except RepositoryError TournamentStore := do
  let sequence ← fitI64 game.sequence
  let rows ← insertRow (fun row => decide (0 < row.roundNumber) && decide (0 < row.tableNumber) &&
      decide (0 < row.seriesGameNumber) && validSha256 row.gameSeedCommitmentSha256 &&
      validSha256 row.formatIdentitySha256)
    (fun a b => a.matchId == b.matchId ||
      (a.seriesId == b.seriesId && a.seriesGameNumber == b.seriesGameNumber) ||
      (a.tournamentId == b.tournamentId && a.sequence == b.sequence))
    (fun row => s.matchRows.any (·.matchId == row.matchId) &&
      s.series.any fun series =>
        series.seriesId == row.seriesId && series.tournamentId == row.tournamentId)
    (⟨game.matchId, tournamentId, game.seriesId, sequence, game.roundNumber, game.tableNumber,
      game.seriesGameNumber, game.gameSeedCommitmentSha256, formatSha256⟩ : MatchScheduleRow)
    s.matchSchedule
  return { s with matchSchedule := rows }

def insertSeat (matchId tournamentId : String) (s : TournamentStore) (seat : Nat × String) :
    Except RepositoryError TournamentStore := do
  let rows ← insertRow (fun row => row.seatNumber == 1 || row.seatNumber == 2)
    (fun a b => a.matchId == b.matchId &&
      (a.seatNumber == b.seatNumber || a.entrantId == b.entrantId))
    (fun row => (s.matchSchedule.any fun scheduled =>
        scheduled.matchId == row.matchId && scheduled.tournamentId == row.tournamentId) &&
      s.entered row.tournamentId row.entrantId)
    (⟨matchId, tournamentId, seat.1, seat.2⟩ : SeatRow) s.seats
  return { s with seats := rows }

def insertMatch (tournamentId formatSha256 : String) (createdAt : UnixMillis)
    (s : TournamentStore) (game : ScheduledMatch) : Except RepositoryError TournamentStore := do
  let s ← insertMatchRow tournamentId createdAt s game
  let s ← insertMatchSchedule tournamentId formatSha256 s game
  [(1, game.seatOneEntrantId), (2, game.seatTwoEntrantId)].foldlM
    (insertSeat game.matchId tournamentId) s

def insertBye (tournamentId : String) (s : TournamentStore) (bye : TournamentBye) :
    Except RepositoryError TournamentStore := do
  let rows ← insertRow (fun row => decide (0 < row.roundNumber))
    (fun a b => a.tournamentId == b.tournamentId && a.roundNumber == b.roundNumber)
    (fun row => s.entered row.tournamentId row.entrantId)
    (⟨tournamentId, bye.roundNumber, bye.entrantId⟩ : ByeRow) s.byes
  return { s with byes := rows }

def insertLifecycle (tournamentId : String) (s : TournamentStore)
    (event : TournamentLifecycleEvent) : Except RepositoryError TournamentStore := do
  let sequence ← fitI64 event.sequence
  let rows ← insertRow (fun row => decide (0 < row.lifecycleSchemaVersion) &&
      lifecycleTexts.contains row.state && decide (0 ≤ row.occurredAt))
    (fun a b => a.tournamentId == b.tournamentId && a.sequence == b.sequence)
    (fun row => s.tournaments.any (·.tournamentId == row.tournamentId))
    (⟨tournamentId, sequence, event.schemaVersion, event.state.asStr, event.occurredAt⟩ : EventRow)
    s.events
  return { s with events := rows }

/-- One transaction: the header, then every normalised row. -/
def TournamentStore.insert (platform : Platform) (s : TournamentStore) (t : StoredTournament) :
    Except RepositoryError (Unit × TournamentStore) := do
  mapErr (fun _ => .corrupt) (t.validate platform)
  let initial ← okOr t.lifecycle.head? .corrupt
  let current ← okOr t.lifecycle.getLast? .corrupt
  let id := t.spec.tournamentId
  let s ← insertTournamentRow ⟨id, formatSchemaVersion, t.spec.format.kind, current.state.asStr,
    t.spec, initial.occurredAt, current.occurredAt⟩ s
  let s ← t.spec.entrants.foldlM (insertEntry id) s
  let s ← insertSchedule ⟨id, formatSchemaVersion, scheduleSchemaVersion, lifecycleSchemaVersion,
    t.schedule.formatIdentity.sha256, t.spec, t.schedule, t.swissProgress, initial.occurredAt⟩ s
  let s ← t.schedule.series.foldlM (insertSeries id) s
  let s ← t.schedule.scheduledMatches.foldlM
    (insertMatch id t.schedule.formatIdentity.sha256 initial.occurredAt) s
  let s ← t.schedule.byes.foldlM (insertBye id) s
  let s ← t.lifecycle.foldlM (insertLifecycle id) s
  return ((), s)

end Insert

section Load

def lifecycleState (value : String) : Except RepositoryError TournamentLifecycleState :=
  match value with
  | "draft" => .ok .draft
  | "scheduled" => .ok .scheduled
  | "running" => .ok .running
  | "paused" => .ok .paused
  | "finished" => .ok .finished
  | "cancelled" => .ok .cancelled
  | _ => .error .corrupt

def validateId (value : String) : Except RepositoryError Unit :=
  reject (validId value 256 = false) .corrupt

/-- The header row joined with the documents. -/
def TournamentStore.header (s : TournamentStore) (tournamentId : String) :
    Option (TournamentRow × ScheduleRow) :=
  match s.tournaments.find? (·.tournamentId == tournamentId),
    s.schedules.find? (·.tournamentId == tournamentId) with
  | some t, some d => some (t, d)
  | _, _ => none

def TournamentStore.lifecycleRows (s : TournamentStore) (tournamentId : String) : List EventRow :=
  (s.events.filter (·.tournamentId == tournamentId)).insertionSort fun a b =>
    a.sequence ≤ b.sequence

def loadLifecycle (rows : List EventRow) : Except RepositoryError (List TournamentLifecycleEvent) :=
  rows.mapM fun row => do
    let state ← lifecycleState row.state
    return ⟨row.lifecycleSchemaVersion, row.sequence, state, row.occurredAt⟩

def validateHeader (row : TournamentRow × ScheduleRow) (t : StoredTournament) :
    Except RepositoryError Unit := do
  let first ← okOr t.lifecycle.head? .corrupt
  let last ← okOr t.lifecycle.getLast? .corrupt
  reject (row.1.schemaVersion ≠ formatSchemaVersion ∨
    row.2.formatSchemaVersion ≠ formatSchemaVersion ∨
    row.2.scheduleSchemaVersion ≠ scheduleSchemaVersion ∨
    row.2.lifecycleSchemaVersion ≠ lifecycleSchemaVersion ∨
    row.1.formatKind ≠ t.spec.format.kind ∨
    row.1.status ≠ last.state.asStr ∨
    row.2.formatIdentitySha256 ≠ t.schedule.formatIdentity.sha256 ∨
    row.1.createdAt ≠ first.occurredAt ∨
    row.2.createdAt ≠ first.occurredAt ∨
    row.1.updatedAt ≠ last.occurredAt) .corrupt

/-- Rows are compared with what is expected at their place. -/
def validateRows {ρ β : Type} (agrees : ρ → β → Bool) (rows : List ρ) (expected : List β) :
    Except RepositoryError Unit := do
  reject (rows.length ≠ expected.length) .corrupt
  (rows.zip expected).forM fun pair => reject (agrees pair.1 pair.2 = false) .corrupt

def entryOrder (a b : EntryRow) : Prop :=
  a.seedNumber < b.seedNumber ∨ a.seedNumber = b.seedNumber ∧ a.entrantId ≤ b.entrantId

instance : DecidableRel entryOrder := fun a b =>
  inferInstanceAs (Decidable (a.seedNumber < b.seedNumber ∨
    a.seedNumber = b.seedNumber ∧ a.entrantId ≤ b.entrantId))

def validateEntries (s : TournamentStore) (t : StoredTournament) : Except RepositoryError Unit :=
  validateRows (fun (row : EntryRow) (entrant : TournamentEntrant) =>
      row.entrantId == entrant.entrantId && row.seedNumber == entrant.seedNumber &&
        row.manifestSha256 == entrant.manifestSha256)
    ((s.entries.filter (·.tournamentId == t.spec.tournamentId)).insertionSort entryOrder)
    (t.spec.entrants.insertionSort seedOrder)

def seriesOrder (a b : SeriesRow) : Prop :=
  a.roundNumber < b.roundNumber ∨ a.roundNumber = b.roundNumber ∧ a.tableNumber ≤ b.tableNumber

instance : DecidableRel seriesOrder := fun a b =>
  inferInstanceAs (Decidable (a.roundNumber < b.roundNumber ∨
    a.roundNumber = b.roundNumber ∧ a.tableNumber ≤ b.tableNumber))

def validateSeries (s : TournamentStore) (t : StoredTournament) : Except RepositoryError Unit :=
  validateRows (fun (row : SeriesRow) (series : ScheduledSeries) =>
      row.seriesId == series.seriesId && row.roundNumber == series.roundNumber &&
        row.tableNumber == series.tableNumber && row.entrantA == series.entrantA &&
        row.entrantB == series.entrantB && row.matchCount == series.matchIds.length &&
        row.status == "pending")
    ((s.series.filter (·.tournamentId == t.spec.tournamentId)).insertionSort seriesOrder)
    t.schedule.series

/-- A scheduled match joined with its match and grouped over its seats. -/
structure JoinedMatch where
  scheduled : MatchScheduleRow
  row : MatchRow
  seatOne : Option String
  seatTwo : Option String
  seatCount : Nat
deriving DecidableEq

/-- The greatest of some texts. -/
def maxText : List String → Option String
  | [] => none
  | text :: texts => some (texts.foldl (fun best other => if best < other then other else best) text)

/-- The inner joins leave a scheduled match out when it has no match or no seats. -/
def TournamentStore.joined (s : TournamentStore) (scheduled : MatchScheduleRow) :
    Option JoinedMatch :=
  let seats := s.seats.filter (·.matchId == scheduled.matchId)
  match s.matchRows.find? (·.matchId == scheduled.matchId), seats with
  | some row, _ :: _ =>
      some ⟨scheduled, row, maxText ((seats.filter (·.seatNumber == 1)).map (·.entrantId)),
        maxText ((seats.filter (·.seatNumber == 2)).map (·.entrantId)), seats.length⟩
  | _, _ => none

def matchAgrees (formatSha256 : String) (joined : JoinedMatch) (game : ScheduledMatch) : Bool :=
  joined.scheduled.matchId == game.matchId && joined.scheduled.seriesId == game.seriesId &&
    joined.scheduled.sequence == game.sequence &&
    joined.scheduled.roundNumber == game.roundNumber &&
    joined.scheduled.tableNumber == game.tableNumber &&
    joined.scheduled.seriesGameNumber == game.seriesGameNumber &&
    joined.scheduled.gameSeedCommitmentSha256 == game.gameSeedCommitmentSha256 &&
    joined.scheduled.formatIdentitySha256 == formatSha256 &&
    joined.row.language == game.profile.language &&
    joined.row.rulesetId == game.profile.rulesetId &&
    joined.row.rulesetSha256 == game.profile.rulesetSha256 &&
    joined.row.lexiconPackId == game.profile.lexicon.packId &&
    joined.row.lexiconPackVersion == game.profile.lexicon.packVersion &&
    joined.row.lexiconContentSha256 == game.profile.lexicon.contentSha256 &&
    joined.row.status == "pending" && joined.seatOne == some game.seatOneEntrantId &&
    joined.seatTwo == some game.seatTwoEntrantId && joined.seatCount == 2

def validateMatches (s : TournamentStore) (t : StoredTournament) : Except RepositoryError Unit :=
  validateRows (matchAgrees t.schedule.formatIdentity.sha256)
    (((s.matchSchedule.filter (·.tournamentId == t.spec.tournamentId)).insertionSort
      fun a b => a.sequence ≤ b.sequence).filterMap s.joined)
    t.schedule.scheduledMatches

def validateByes (s : TournamentStore) (t : StoredTournament) : Except RepositoryError Unit :=
  validateRows (fun (row : ByeRow) (bye : TournamentBye) =>
      row.roundNumber == bye.roundNumber && row.entrantId == bye.entrantId)
    ((s.byes.filter (·.tournamentId == t.spec.tournamentId)).insertionSort
      fun a b => a.roundNumber ≤ b.roundNumber)
    t.schedule.byes

/-- The states of the database that the queries of one load see, in their order. -/
structure LoadReads where
  header : TournamentStore
  lifecycle : TournamentStore
  entries : TournamentStore
  series : TournamentStore
  matchRows : TournamentStore
  byes : TournamentStore

/-- A load is not a transaction: each of its queries reads on its own. -/
def LoadReads.load (platform : Platform) (reads : LoadReads) (tournamentId : String) :
    Except RepositoryError StoredTournament := do
  validateId tournamentId
  let row ← okOr (reads.header.header tournamentId) .notFound
  reject (row.1.config ≠ row.2.spec) .corrupt
  let lifecycle ← loadLifecycle (reads.lifecycle.lifecycleRows tournamentId)
  let t : StoredTournament := ⟨row.2.spec, row.2.schedule, row.2.swissProgress, lifecycle⟩
  mapErr (fun _ => .corrupt) (t.validate platform)
  validateHeader row t
  validateEntries reads.entries t
  validateSeries reads.series t
  validateMatches reads.matchRows t
  validateByes reads.byes t
  return t

end Load

section Transition

/-- The row with the highest sequence. -/
def latest (rows : List EventRow) : Option EventRow :=
  rows.foldl (fun best row => match best with
    | none => some row
    | some found => if found.sequence < row.sequence then some row else some found) none

def TournamentStore.transition (s : TournamentStore) (tournamentId : String)
    (expectedSequence : Nat) (state : TournamentLifecycleState) (occurredAt : UnixMillis) :
    Except RepositoryError (TournamentLifecycleEvent × TournamentStore) := do
  validateId tournamentId
  reject (occurredAt < 0) .corrupt
  reject (2 ^ 63 ≤ expectedSequence) .conflict
  let row ← okOr (latest (s.events.filter (·.tournamentId == tournamentId))) .notFound
  let currentState ← lifecycleState row.state
  reject (row.sequence ≠ expectedSequence ∨ currentState.canTransitionTo state = false ∨
    occurredAt < row.occurredAt) .conflict
  let event : TournamentLifecycleEvent :=
    ⟨lifecycleSchemaVersion, expectedSequence + 1, state, occurredAt⟩
  let s ← insertLifecycle tournamentId s event
  let hit := fun header : TournamentRow => header.tournamentId == tournamentId &&
    header.status == currentState.asStr && decide (header.updatedAt ≤ occurredAt)
  let rows ← okOr (Table.updateWhere TournamentRow.check hit
    (fun header => { header with status := state.asStr, updatedAt := occurredAt }) s.tournaments)
    .unavailable
  reject (s.tournaments.countP hit ≠ 1) .conflict
  return (event, { s with tournaments := rows })

end Transition

/-- Requests to the repository. -/
inductive TournamentRequest where
  | insert (t : StoredTournament)
  | transition (tournamentId : String) (expectedSequence : Nat)
      (state : TournamentLifecycleState) (occurredAt : UnixMillis)
deriving DecidableEq

inductive TournamentResponse where
  | inserted (result : Except RepositoryError Unit)
  | transitioned (result : Except RepositoryError TournamentLifecycleEvent)

/-- Every request is one transaction. -/
def tournamentMachine (platform : Platform) :
    Machine TournamentStore TournamentRequest TournamentResponse where
  step s
    | .insert t =>
        let result := transact s (s.insert platform t)
        (.inserted result.1, result.2)
    | .transition tournamentId expectedSequence state occurredAt =>
        let result := transact s (s.transition tournamentId expectedSequence state occurredAt)
        (.transitioned result.1, result.2)

end WordArena.Tournament
