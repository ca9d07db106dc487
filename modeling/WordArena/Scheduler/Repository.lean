import WordArena.Library.Fallible
import WordArena.Library.Machine
import WordArena.Library.Table
import WordArena.Scheduler.Model

/-! The scheduler tables and the repository operations on them. Every operation
is one transaction. Columns that repeat a stored request or result are not
listed beside it, and checks of the tables that validated input always passes
are left out. -/
namespace WordArena.Scheduler

open Fallible WordArena.Application

/-- A row of `scheduler_limits`. -/
structure LimitRow where
  scopeKey : String
  policy : SchedulingLimit
  createdAt : UnixMillis
  updatedAt : UnixMillis
deriving DecidableEq

/-- A row of `scheduler_buckets`. -/
structure BucketRow where
  scopeKey : String
  state : TokenBucketState
deriving DecidableEq

/-- A row of `tournament_worker_controls`. -/
structure ControlRow where
  tournamentId : String
  control : TournamentWorkerControl
  sequence : Nat
  updatedAt : UnixMillis
deriving DecidableEq

inductive ReservationStatus where
  | active
  | cancelRequested
  | released
  | expired
  | completed
deriving DecidableEq, Repr

def ReservationStatus.isLive : ReservationStatus → Bool
  | .active => true
  | .cancelRequested => true
  | .released => false
  | .expired => false
  | .completed => false

/-- A row of `execution_reservations`. It was acquired at the time of its
request. -/
structure ReservationRow where
  request : ReservationRequest
  status : ReservationStatus
  expiresAt : UnixMillis
  updatedAt : UnixMillis
  finishedAt : Option UnixMillis
deriving DecidableEq

/-- A row of `execution_reservation_scopes`. -/
structure ScopeRow where
  reservationId : String
  scopeKey : String
deriving DecidableEq

/-- A row of `terminal_match_results`. -/
structure ResultRow where
  result : TerminalMatchResult
  reservationId : String
  committedAt : UnixMillis
deriving DecidableEq

structure SchedulerStore where
  limits : List LimitRow
  buckets : List BucketRow
  controls : List ControlRow
  reservations : List ReservationRow
  scopes : List ScopeRow
  results : List ResultRow

def SchedulerStore.empty : SchedulerStore := ⟨[], [], [], [], [], []⟩

def ReservationRow.isLive (row : ReservationRow) : Bool := row.status.isLive

def ReservationRow.check (row : ReservationRow) : Bool :=
  decide (0 ≤ row.request.now) &&
    decide (row.request.now < row.expiresAt) &&
    decide (row.request.now ≤ row.updatedAt) &&
    row.finishedAt.all (fun finished => decide (row.request.now ≤ finished)) &&
    (row.isLive == row.finishedAt.isNone)

/-- Identifiers are unique, and so is the match among live reservations. -/
def ReservationRow.clash (a b : ReservationRow) : Bool :=
  a.request.reservationId = b.request.reservationId ||
    (a.isLive && b.isLive && a.request.matchId = b.request.matchId)

def ScopeRow.clash (a b : ScopeRow) : Bool :=
  a.reservationId = b.reservationId && a.scopeKey = b.scopeKey

def ResultRow.clash (a b : ResultRow) : Bool :=
  a.result.matchId = b.result.matchId || a.result.chargeKey = b.result.chargeKey ||
    a.result.telemetryKey = b.result.telemetryKey || a.result.ratingKey = b.result.ratingKey ||
    a.reservationId = b.reservationId

def validateId (value : String) : Except SchedulerRepositoryError Unit :=
  reject (validId value 256 = false) .corrupt

/-! Reads. -/

/-- Live reservations counted through their scope rows. -/
def SchedulerStore.activeCount (s : SchedulerStore) (key : String) : Nat :=
  s.scopes.countP fun row => row.scopeKey = key &&
    s.reservations.any fun reservation =>
      reservation.request.reservationId = row.reservationId && reservation.isLive

structure StoredLimit where
  policy : SchedulingLimit
  bucket : Option TokenBucketState

def SchedulerStore.loadLimit (s : SchedulerStore) (key : String) :
    Except SchedulerRepositoryError StoredLimit := do
  let row ← okOr (s.limits.find? fun row => row.scopeKey = key) .corrupt
  reject (row.policy.scope.key ≠ key ∨ row.policy.schemaVersion ≠ schedulerSchemaVersion) .corrupt
  reject (row.policy.validate = false) .corrupt
  if row.policy.rate.isSome then
    let bucket ← okOr (s.buckets.find? fun bucket => bucket.scopeKey = key) .corrupt
    pure ⟨row.policy, some bucket.state⟩
  else pure ⟨row.policy, none⟩

def SchedulerStore.loadControl (s : SchedulerStore) (tournamentId : String) :
    TournamentWorkerControl :=
  ((s.controls.find? fun row => row.tournamentId = tournamentId).map (·.control)).getD .running

def SchedulerStore.loadTerminal (s : SchedulerStore) (matchId : String) :
    Except SchedulerRepositoryError (Option TerminalMatchResult) :=
  match s.results.find? fun row => row.result.matchId = matchId with
  | none => pure none
  | some row => do
      reject (row.result.validate = false) .corrupt
      pure (some row.result)

/-! Configuration. -/

/-- Limits are validated and their keys compared in the order given. -/
def uniqueLimits (seen : List String) :
    List SchedulingLimit → Except SchedulerRepositoryError Unit
  | [] => pure ()
  | limit :: rest => do
      reject (limit.validate = false) .corrupt
      reject (limit.scope.key ∈ seen) .conflict
      uniqueLimits (limit.scope.key :: seen) rest

def SchedulerStore.upsertLimit (s : SchedulerStore) (limit : SchedulingLimit) (now : UnixMillis) :
    Except SchedulerRepositoryError (List LimitRow) :=
  let key := limit.scope.key
  match s.limits.find? fun row => row.scopeKey = key with
  | none => pure (s.limits ++ [⟨key, limit, now, now⟩])
  | some _ =>
      okOr (Table.updateWhere (fun row => decide (row.createdAt ≤ row.updatedAt))
        (fun row => row.scopeKey = key) (fun row => { row with policy := limit, updatedAt := now })
        s.limits) .conflict

/-- A rate policy starts with a full bucket; without one there is none. -/
def SchedulerStore.resetBucket (s : SchedulerStore) (limit : SchedulingLimit) (now : UnixMillis) :
    List BucketRow :=
  let key := limit.scope.key
  match limit.rate with
  | none => s.buckets.filter fun row => row.scopeKey ≠ key
  | some rate =>
      if s.buckets.any fun row => row.scopeKey = key then
        Table.update (fun row => row.scopeKey = key)
          (fun row => { row with state := ⟨rate.capacity, 0, now⟩ }) s.buckets
      else s.buckets ++ [⟨key, ⟨rate.capacity, 0, now⟩⟩]

def configureLimit (now : UnixMillis) (s : SchedulerStore) (limit : SchedulingLimit) :
    Except SchedulerRepositoryError SchedulerStore := do
  reject (s.activeCount limit.scope.key ≠ 0) .conflict
  let limits ← s.upsertLimit limit now
  pure { s with limits, buckets := s.resetBucket limit now }

/-- The limits are applied in the order of their keys. -/
def configureLimits (s : SchedulerStore) (limits : List SchedulingLimit) (now : UnixMillis) :
    Except SchedulerRepositoryError (Unit × SchedulerStore) := do
  reject (limits = [] ∨ now < 0) .corrupt
  uniqueLimits [] limits
  let next ← (limits.mergeSort fun a b => decide (a.scope.key ≤ b.scope.key)).foldlM
    (configureLimit now) s
  pure ((), next)

/-! Tournament control. -/

def SchedulerStore.upsertControl (s : SchedulerStore) (tournamentId : String)
    (next : TournamentWorkerControl) (now : UnixMillis) :
    Except SchedulerRepositoryError (List ControlRow) :=
  match s.controls.find? fun row => row.tournamentId = tournamentId with
  | none => pure (s.controls ++ [⟨tournamentId, next, 0, now⟩])
  | some row => do
      reject (row.control = .cancelled ∨ now < row.updatedAt) .conflict
      reject (¬ row.sequence + 1 < 2 ^ 63) .corrupt
      pure (Table.update (fun row => row.tournamentId = tournamentId)
        (fun old => { old with control := next, sequence := row.sequence + 1, updatedAt := now })
        s.controls)

def setControl (s : SchedulerStore) (tournamentId : String) (next : TournamentWorkerControl)
    (now : UnixMillis) : Except SchedulerRepositoryError (Unit × SchedulerStore) := do
  validateId tournamentId
  reject (now < 0) .corrupt
  let controls ← s.upsertControl tournamentId next now
  if next = .cancelled then
    let reservations ← okOr (Table.updateWhere ReservationRow.check
      (fun row => row.request.tournamentId = tournamentId && row.status == .active)
      (fun row => { row with status := .cancelRequested, updatedAt := now }) s.reservations)
      .unavailable
    pure ((), { s with controls, reservations })
  else pure ((), { s with controls })

/-! Acquisition. -/

def ReservationRow.expired (now : UnixMillis) (row : ReservationRow) : Bool :=
  row.isLive && decide (row.expiresAt ≤ now)

def ReservationRow.finish (status : ReservationStatus) (now : UnixMillis) (row : ReservationRow) :
    ReservationRow :=
  { row with status, updatedAt := now, finishedAt := some now }

def expireReservations (s : SchedulerStore) (now : UnixMillis) :
    Except SchedulerRepositoryError (List String × SchedulerStore) := do
  let reservations ← okOr (Table.updateWhere ReservationRow.check (ReservationRow.expired now)
    (ReservationRow.finish .expired now) s.reservations) .unavailable
  pure ((s.reservations.filter (ReservationRow.expired now)).map (·.request.matchId),
    { s with reservations })

/-- Load and refill the limits of the scopes in order. Nothing is returned when
a scope is full; otherwise the limits come with the latest time at which an
empty bucket has a token again. -/
def scanScopes (s : SchedulerStore) (now : UnixMillis) : List SchedulerScope → List StoredLimit →
    Option UnixMillis →
    Except SchedulerRepositoryError (Option (List StoredLimit × Option UnixMillis))
  | [], stored, retryAt => pure (some (stored, retryAt))
  | scope :: rest, stored, retryAt => do
      let limit ← s.loadLimit scope.key
      if limit.policy.maxConcurrency ≤ s.activeCount scope.key then pure none
      else
        match limit.policy.rate, limit.bucket with
        | some rate, some bucket => do
            let refilled ← okOr (refillBucket bucket rate now) .corrupt
            scanScopes s now rest (stored ++ [{ limit with bucket := some refilled }])
              (if refilled.tokens = 0 then maxTime retryAt (tokenRetryAt refilled rate now)
              else retryAt)
        | _, _ => scanScopes s now rest (stored ++ [limit]) retryAt

def persistBucket (s : SchedulerStore) (limit : StoredLimit) :
    Except SchedulerRepositoryError SchedulerStore :=
  match limit.bucket with
  | none => pure s
  | some bucket => do
      reject (¬ bucket.remainder < 2 ^ 63) .corrupt
      pure { s with
        buckets := Table.update (fun row => row.scopeKey = limit.policy.scope.key)
          (fun row => { row with state := bucket }) s.buckets }

def persistBuckets (s : SchedulerStore) (limits : List StoredLimit) :
    Except SchedulerRepositoryError SchedulerStore :=
  limits.foldlM persistBucket s

/-- Take one token from the bucket of a limit that has one. -/
def consumeToken (limit : StoredLimit) : Except SchedulerRepositoryError StoredLimit :=
  match limit.bucket with
  | none => pure limit
  | some bucket => do
      reject (bucket.tokens = 0) .corrupt
      pure { limit with bucket := some { bucket with tokens := bucket.tokens - 1 } }

def insertScope (reservationId : String) (s : SchedulerStore) (scope : SchedulerScope) :
    Except SchedulerRepositoryError SchedulerStore := do
  let scopes ← okOr (Table.insert (fun row => s.limits.any fun limit => limit.scopeKey = row.scopeKey)
    ScopeRow.clash ⟨reservationId, scope.key⟩ s.scopes) .conflict
  pure { s with scopes }

def insertReservation (s : SchedulerStore) (request : ReservationRequest) (expiresAt : UnixMillis) :
    Except SchedulerRepositoryError SchedulerStore := do
  let reservations ← okOr (Table.insert ReservationRow.check ReservationRow.clash
    ⟨request, .active, expiresAt, request.now, none⟩ s.reservations) .conflict
  request.scopes.foldlM (insertScope request.reservationId) { s with reservations }

/-- The inputs of the reservation of a match that was acquired first. -/
def SchedulerStore.priorInputs (s : SchedulerStore) (matchId : String) : Option String :=
  (((s.reservations.filter fun row => row.request.matchId = matchId).mergeSort fun a b =>
    decide (a.request.now ≤ b.request.now)).head?).map (·.request.immutableInputsSha256)

/-- Reserve all scopes or none, once the match is known to be open. -/
def acquireScopes (s : SchedulerStore) (request : ReservationRequest) (expiresAt : UnixMillis) :
    Except SchedulerRepositoryError (ReservationResult × SchedulerStore) := do
  match ← scanScopes s request.now request.scopes [] none with
  | none => pure (.limited none, s)
  | some (stored, some retryAt) =>
      let next ← persistBuckets s stored
      pure (.limited (some retryAt), next)
  | some (stored, none) =>
      let consumed ← stored.mapM consumeToken
      let next ← persistBuckets s consumed
      let next ← insertReservation next request expiresAt
      pure (.acquired ⟨request, expiresAt, false⟩, next)

def acquireReservation (s : SchedulerStore) (request : ReservationRequest) :
    Except SchedulerRepositoryError (ReservationResult × SchedulerStore) := do
  reject (request.validate = false) .corrupt
  let expiresAt ← okOr (Checked.addI64 request.now request.durationMs) .corrupt
  let (_, s) ← expireReservations s request.now
  match ← s.loadTerminal request.matchId with
  | some existing =>
      reject (existing.immutableInputsSha256 ≠ request.immutableInputsSha256) .conflict
      pure (.alreadyFinished, s)
  | none =>
      reject ((s.priorInputs request.matchId).any (· ≠ request.immutableInputsSha256)) .conflict
      match s.loadControl request.tournamentId with
      | .paused => pure (.paused, s)
      | .draining => pure (.draining, s)
      | .cancelled => pure (.cancelled, s)
      | .running => acquireScopes s request expiresAt

/-! Renewal, release and publication. A reservation is named by its primary
key, so each update touches one row at most. -/

/-- The reservation the caller names and owns, with the inputs it was given. -/
def ReservationRow.ownedBy (reservation : ExecutionReservation) (row : ReservationRow) : Bool :=
  row.request.reservationId = reservation.request.reservationId &&
    row.request.owner = reservation.request.owner &&
    row.request.immutableInputsSha256 = reservation.request.immutableInputsSha256

def renewReservation (s : SchedulerStore) (reservation : ExecutionReservation) (now : UnixMillis)
    (durationMs : Int) :
    Except SchedulerRepositoryError (ExecutionReservation × SchedulerStore) := do
  reject (reservation.request.validate = false) .corrupt
  reject (now < 0 ∨ ¬ (1 ≤ durationMs ∧ durationMs ≤ maxReservationMs)) .corrupt
  let expires ← okOr (Checked.addI64 now durationMs) .corrupt
  let hit : ReservationRow → Bool := fun row => row.ownedBy reservation && row.status == .active &&
    decide (now < row.expiresAt) && decide (row.expiresAt < expires)
  let reservations ← okOr (Table.updateWhere ReservationRow.check hit
    (fun row => { row with expiresAt := expires, updatedAt := now }) s.reservations) .unavailable
  reject (s.reservations.countP hit ≠ 1) .conflict
  pure (⟨reservation.request, expires, false⟩, { s with reservations })

def releaseReservation (s : SchedulerStore) (reservation : ExecutionReservation)
    (now : UnixMillis) : Except SchedulerRepositoryError (Unit × SchedulerStore) := do
  let hit : ReservationRow → Bool := fun row => row.ownedBy reservation && row.isLive
  let reservations ← okOr (Table.updateWhere ReservationRow.check hit
    (ReservationRow.finish .released now) s.reservations) .unavailable
  reject (s.reservations.countP hit ≠ 1) .conflict
  pure ((), { s with reservations })

/-- The row whose worker may publish a result now. -/
def ReservationRow.mayPublish (reservation : ExecutionReservation) (result : TerminalMatchResult)
    (now : UnixMillis) (row : ReservationRow) : Bool :=
  row.request.reservationId = reservation.request.reservationId && row.status == .active &&
    row.request.owner = reservation.request.owner && row.request.matchId = result.matchId &&
    row.request.immutableInputsSha256 = result.immutableInputsSha256 && decide (now < row.expiresAt)

def commitResult (s : SchedulerStore) (reservation : ExecutionReservation)
    (result : TerminalMatchResult) (now : UnixMillis) :
    Except SchedulerRepositoryError (TerminalCommitResult × SchedulerStore) := do
  reject (result.validate = false) .corrupt
  reject (result.matchId ≠ reservation.request.matchId ∨
    result.immutableInputsSha256 ≠ reservation.request.immutableInputsSha256) .conflict
  match ← s.loadTerminal result.matchId with
  | some existing =>
      reject (existing ≠ result) .conflict
      pure (.alreadyApplied existing, s)
  | none =>
      let hit := ReservationRow.mayPublish reservation result now
      let reservations ← okOr (Table.updateWhere ReservationRow.check hit
        (ReservationRow.finish .completed now) s.reservations) .unavailable
      reject (s.reservations.countP hit ≠ 1) .conflict
      let results ← okOr (Table.insert (fun row => decide (0 ≤ row.committedAt)) ResultRow.clash
        ⟨result, reservation.request.reservationId, now⟩ s.results) .conflict
      pure (.applied result, { s with reservations, results })

/-! Recovery. -/

def ReservationRow.reservation (row : ReservationRow) :
    Except SchedulerRepositoryError ExecutionReservation := do
  reject (row.request.validate = false) .corrupt
  pure ⟨row.request, row.expiresAt, row.status == .cancelRequested⟩

def recovery (s : SchedulerStore) (now : UnixMillis) :
    Except SchedulerRepositoryError (RecoverySnapshot × SchedulerStore) := do
  let (expiredMatchIds, s) ← expireReservations s now
  let controls := (s.controls.mergeSort fun a b => decide (a.tournamentId ≤ b.tournamentId)).map
    fun row => (row.tournamentId, row.control)
  let live := s.reservations.filter fun row => row.isLive && decide (now < row.expiresAt)
  let ordered := live.mergeSort fun a b =>
    if a.request.now ≠ b.request.now then decide (a.request.now < b.request.now)
    else decide (a.request.reservationId ≤ b.request.reservationId)
  let active ← ordered.mapM ReservationRow.reservation
  pure (⟨controls, active, expiredMatchIds⟩, s)

/-! The repository as a machine. -/

inductive SchedulerRequest where
  | configure (limits : List SchedulingLimit) (now : UnixMillis)
  | setControl (tournamentId : String) (control : TournamentWorkerControl) (now : UnixMillis)
  | acquire (request : ReservationRequest)
  | renew (reservation : ExecutionReservation) (now : UnixMillis) (durationMs : Int)
  | release (reservation : ExecutionReservation) (now : UnixMillis)
  | commitTerminal (reservation : ExecutionReservation) (result : TerminalMatchResult)
      (now : UnixMillis)
  | reconstruct (now : UnixMillis)

inductive SchedulerResponse where
  | configured (result : Except SchedulerRepositoryError Unit)
  | controlled (result : Except SchedulerRepositoryError Unit)
  | acquired (result : Except SchedulerRepositoryError ReservationResult)
  | renewed (result : Except SchedulerRepositoryError ExecutionReservation)
  | released (result : Except SchedulerRepositoryError Unit)
  | committed (result : Except SchedulerRepositoryError TerminalCommitResult)
  | reconstructed (result : Except SchedulerRepositoryError RecoverySnapshot)
deriving DecidableEq

def schedulerRepository : Machine SchedulerStore SchedulerRequest SchedulerResponse where
  step s
    | .configure limits now => (transact s (configureLimits s limits now)).map .configured id
    | .setControl tournamentId control now =>
        (transact s (setControl s tournamentId control now)).map .controlled id
    | .acquire request => (transact s (acquireReservation s request)).map .acquired id
    | .renew reservation now durationMs =>
        (transact s (renewReservation s reservation now durationMs)).map .renewed id
    | .release reservation now => (transact s (releaseReservation s reservation now)).map .released id
    | .commitTerminal reservation result now =>
        (transact s (commitResult s reservation result now)).map .committed id
    | .reconstruct now => (transact s (recovery s now)).map .reconstructed id

end WordArena.Scheduler
