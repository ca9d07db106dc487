import WordArena.Library.Machine
import WordArena.Library.Table
import WordArena.Jobs.Model

/-! The job queue tables and the repository operations on them. Every
operation is one transaction. Checks of the tables that validated input always
passes are left out. -/
namespace WordArena.Jobs

open Fallible WordArena.Application

/-- A row of `jobs`. -/
structure JobRow extends JobRecord where
  lastErrorCode : Option String
deriving DecidableEq

inductive AttemptOutcome where
  | succeeded
  | retryable
  | permanent
  | cancelled
  | abandoned
deriving DecidableEq, Repr

/-- A row of `job_attempts`. -/
structure JobAttempt where
  jobId : String
  attempt : Nat
  leaseGeneration : Nat
  workerId : String
  leasedAt : UnixMillis
  leaseExpiresAt : UnixMillis
  finishedAt : Option UnixMillis
  handlerOutcome : Option AttemptOutcome
  finalStatus : Option JobStatus
  errorCode : Option String
  nextAvailableAt : Option UnixMillis
deriving DecidableEq

structure JobStore where
  jobs : List JobRow
  attempts : List JobAttempt

def JobStore.empty : JobStore := ⟨[], []⟩

/-- The table checks of `jobs` on times, attempts and lease columns. A
comparison with `NULL` passes. -/
def JobRow.check (row : JobRow) : Bool :=
  decide (0 ≤ row.availableAt) &&
    decide (row.attempt ≤ row.maxAttempts) &&
    row.leasedAt.all (fun leased => decide (0 ≤ leased)) &&
    row.leaseExpiresAt.all (fun expires => row.leasedAt.all fun leased => decide (leased < expires)) &&
    row.cancellationRequestedAt.all (fun requested => decide (0 ≤ requested)) &&
    decide (0 ≤ row.createdAt) &&
    decide (row.createdAt ≤ row.updatedAt) &&
    row.finishedAt.all (fun finished => decide (row.createdAt ≤ finished)) &&
    (if row.status = .leased then
      row.owner.isSome && row.leasedAt.isSome && row.leaseExpiresAt.isSome && row.finishedAt.isNone
    else row.owner.isNone && row.leasedAt.isNone && row.leaseExpiresAt.isNone) &&
    (row.status.isTerminal == row.finishedAt.isSome) &&
    row.leasedAt.all (fun leased => decide (row.createdAt ≤ leased)) &&
    row.cancellationRequestedAt.all (fun requested => decide (row.createdAt ≤ requested))

/-- The table checks of `job_attempts`. -/
def JobAttempt.check (row : JobAttempt) : Bool :=
  decide (0 < row.attempt) &&
    decide (0 < row.leaseGeneration) &&
    decide (0 ≤ row.leasedAt) &&
    decide (row.leasedAt < row.leaseExpiresAt) &&
    row.finishedAt.all (fun finished => decide (row.leasedAt ≤ finished)) &&
    row.nextAvailableAt.all (fun next => row.finishedAt.all fun finished => decide (finished ≤ next)) &&
    (row.finishedAt.isNone == row.handlerOutcome.isNone) &&
    (row.handlerOutcome != some .retryable || row.errorCode.isSome) &&
    (row.handlerOutcome != some .permanent || row.errorCode.isSome)

def JobRow.clash (a b : JobRow) : Bool :=
  a.jobId = b.jobId || (a.kind = b.kind && a.deduplicationKey = b.deduplicationKey)

def JobAttempt.clash (a b : JobAttempt) : Bool :=
  a.jobId = b.jobId && (a.attempt = b.attempt || a.leaseGeneration = b.leaseGeneration)

/-- The immutable input a record was made from. -/
def JobRecord.input (job : JobRecord) : NewJob where
  schemaVersion := job.schemaVersion
  jobId := job.jobId
  kind := job.kind
  payloadSchemaVersion := job.payloadSchemaVersion
  payloadJson := job.payloadJson
  priority := job.priority
  availableAt := job.availableAt
  maxAttempts := job.maxAttempts
  retryInitialMs := job.retryInitialMs
  retryMaxMs := job.retryMaxMs
  deduplicationKey := job.deduplicationKey

def JobRow.record (codec : JobCodec) (row : JobRow) : Except JobRepositoryError JobRecord :=
  let job := row.toJobRecord
  if !job.input.validate codec
    || hexDigest codec job.payloadJson != job.payloadSha256
    || decide (job.maxAttempts < job.attempt)
    || decide (job.updatedAt < job.createdAt)
    || job.status.isTerminal != job.finishedAt.isSome
    || (job.status == .leased) !=
      (job.owner.isSome && job.leasedAt.isSome && job.leaseExpiresAt.isSome)
    || job.status != .leased &&
      (job.owner.isSome || job.leasedAt.isSome || job.leaseExpiresAt.isSome)
    || job.leasedAt.any (fun leased => job.leaseExpiresAt.any fun expires => decide (expires ≤ leased))
  then .error .corrupt
  else .ok job

def validateId (value : String) : Except JobRepositoryError Unit :=
  reject (validId value 256 = false) .corrupt

def JobStore.find (s : JobStore) (jobId : String) : Option JobRow :=
  s.jobs.find? fun row => row.jobId = jobId

def JobStore.loadJob (codec : JobCodec) (s : JobStore) (jobId : String) :
    Except JobRepositoryError JobRecord := do
  validateId jobId
  let row ← okOr (s.find jobId) .notFound
  row.record codec

def JobStore.loadDeduplicated (codec : JobCodec) (s : JobStore) (kind key : String) :
    Except JobRepositoryError JobRecord := do
  let row ← okOr (s.jobs.find? fun row => row.kind = kind && row.deduplicationKey = key) .conflict
  row.record codec

def sameEnqueueIdentity (existing : JobRecord) (new : NewJob) (payloadSha256 : String) : Bool :=
  existing.schemaVersion == new.schemaVersion
    && existing.kind == new.kind
    && existing.payloadSchemaVersion == new.payloadSchemaVersion
    && existing.payloadJson == new.payloadJson
    && existing.payloadSha256 == payloadSha256
    && existing.priority == new.priority
    && existing.availableAt == new.availableAt
    && existing.maxAttempts == new.maxAttempts
    && existing.retryInitialMs == new.retryInitialMs
    && existing.retryMaxMs == new.retryMaxMs
    && existing.deduplicationKey == new.deduplicationKey

/-- The row inserted for a new job. -/
def NewJob.row (codec : JobCodec) (job : NewJob) (now : UnixMillis) : JobRow where
  schemaVersion := job.schemaVersion
  jobId := job.jobId
  kind := job.kind
  payloadSchemaVersion := job.payloadSchemaVersion
  payloadJson := job.payloadJson
  payloadSha256 := hexDigest codec job.payloadJson
  priority := job.priority
  availableAt := job.availableAt
  maxAttempts := job.maxAttempts
  attempt := 0
  retryInitialMs := job.retryInitialMs
  retryMaxMs := job.retryMaxMs
  deduplicationKey := job.deduplicationKey
  status := .queued
  owner := none
  leaseGeneration := 0
  leasedAt := none
  leaseExpiresAt := none
  cancellationRequestedAt := none
  createdAt := now
  updatedAt := now
  finishedAt := none
  lastErrorCode := none

/-- The insert commits before the new record is read back, so a failed read
would leave the row in place. -/
def enqueueJob (codec : JobCodec) (s : JobStore) (job : NewJob) (now : UnixMillis) :
    Except JobRepositoryError EnqueueResult × JobStore :=
  if !job.validate codec || decide (now < 0) then (.error .corrupt, s)
  else
    let row := job.row codec now
    if !row.check then (.error .unavailable, s)
    else if s.jobs.any row.clash then
      (do
        let existing ← s.loadDeduplicated codec job.kind job.deduplicationKey
        if sameEnqueueIdentity existing job (hexDigest codec job.payloadJson)
        then pure (.existing existing)
        else .error .conflict, s)
    else
      let next := { s with jobs := s.jobs ++ [row] }
      (do
        let inserted ← next.loadJob codec job.jobId
        pure (.inserted inserted), next)

/-! Claims. -/

def JobAttempt.abandonedStatus (row : JobAttempt) (job : Option JobRow) : JobStatus :=
  if (job.bind (·.cancellationRequestedAt)).isSome then .cancelled
  else if job.any (fun job => decide (job.maxAttempts ≤ row.attempt)) then .exhausted
  else .queued

/-- An expired attempt is closed as abandoned. -/
def JobAttempt.abandon (s : JobStore) (now : UnixMillis) (row : JobAttempt) : JobAttempt :=
  { row with
    finishedAt := some now
    handlerOutcome := some .abandoned
    finalStatus := some (row.abandonedStatus (s.find row.jobId))
    nextAvailableAt :=
      if (s.find row.jobId).any (fun job => decide (row.attempt < job.maxAttempts)) then some now
      else none }

def JobAttempt.expired (now : UnixMillis) (row : JobAttempt) : Bool :=
  row.finishedAt.isNone && decide (row.leaseExpiresAt ≤ now)

def JobRow.expiredAt (row : JobRow) (now : UnixMillis) : Bool :=
  row.status == .leased && row.leaseExpiresAt.any fun expires => decide (expires ≤ now)

/-- Expired leases that may not be claimed again. -/
def JobRow.spent (now : UnixMillis) (row : JobRow) : Bool :=
  row.expiredAt now &&
    (row.cancellationRequestedAt.isSome || decide (row.maxAttempts ≤ row.attempt))

def JobRow.close (now : UnixMillis) (row : JobRow) : JobRow :=
  { row with
    status := if row.cancellationRequestedAt.isSome then .cancelled else .exhausted
    owner := none
    leasedAt := none
    leaseExpiresAt := none
    updatedAt := now
    finishedAt := some now }

def recoverExpired (s : JobStore) (now : UnixMillis) : Except JobRepositoryError JobStore := do
  let attempts ← okOr (Table.updateWhere JobAttempt.check (JobAttempt.expired now)
    (JobAttempt.abandon s now) s.attempts) .unavailable
  let jobs ← okOr (Table.updateWhere JobRow.check (JobRow.spent now) (JobRow.close now) s.jobs)
    .unavailable
  pure ⟨jobs, attempts⟩

def JobRow.claimable (request : ClaimJobs) (row : JobRow) : Bool :=
  row.cancellationRequestedAt.isNone && decide (row.attempt < row.maxAttempts) &&
    (row.status == .queued && decide (row.availableAt ≤ request.now) ||
      row.expiredAt request.now) &&
    request.kinds.contains row.kind

/-- Priority descending, then availability, creation and identifier ascending. -/
def JobRow.claimsBefore (a b : JobRow) : Bool :=
  if a.priority ≠ b.priority then decide (b.priority < a.priority)
  else if a.availableAt ≠ b.availableAt then decide (a.availableAt < b.availableAt)
  else if a.createdAt ≠ b.createdAt then decide (a.createdAt < b.createdAt)
  else decide (a.jobId ≤ b.jobId)

def JobRow.lease (workerId : String) (now expiresAt : UnixMillis) (row : JobRow) : JobRow :=
  { row with
    status := .leased
    attempt := row.attempt + 1
    leaseGeneration := row.leaseGeneration + 1
    owner := some workerId
    leasedAt := some now
    leaseExpiresAt := some expiresAt
    updatedAt := now
    lastErrorCode := none }

def JobRow.attemptRow (row : JobRow) (workerId : String) (now expiresAt : UnixMillis) :
    JobAttempt where
  jobId := row.jobId
  attempt := row.attempt
  leaseGeneration := row.leaseGeneration
  workerId := workerId
  leasedAt := now
  leaseExpiresAt := expiresAt
  finishedAt := none
  handlerOutcome := none
  finalStatus := none
  errorCode := none
  nextAvailableAt := none

def claimJob (codec : JobCodec) (s : JobStore) (request : ClaimJobs) :
    Except JobRepositoryError (Option JobLease × JobStore) := do
  reject (request.validate = false) .corrupt
  let expiresAt ← okOr (Checked.addI64 request.now request.leaseDurationMs) .corrupt
  let s ← recoverExpired s request.now
  match ((s.jobs.filter (JobRow.claimable request)).mergeSort JobRow.claimsBefore).head? with
  | none => pure (none, s)
  | some chosen =>
      let jobs ← okOr (Table.updateWhere JobRow.check (fun row => row.jobId = chosen.jobId)
        (JobRow.lease request.workerId request.now expiresAt) s.jobs) .unavailable
      let leased := chosen.lease request.workerId request.now expiresAt
      let job ← leased.record codec
      let attempts ← okOr (Table.insert JobAttempt.check JobAttempt.clash
        (leased.attemptRow request.workerId request.now expiresAt) s.attempts) .conflict
      pure (some ⟨job, request.workerId, job.leaseGeneration, request.now, expiresAt⟩,
        ⟨jobs, attempts⟩)

/-! Renewal. -/

/-- The row a live lease owns. -/
def JobRow.heldBy (lease : JobLease) (now : UnixMillis) (row : JobRow) : Bool :=
  row.jobId = lease.job.jobId && row.status == .leased && row.owner == some lease.workerId &&
    row.attempt == lease.job.attempt && row.leaseGeneration == lease.leaseGeneration &&
    row.leaseExpiresAt.any fun expires => decide (now < expires)

def JobRow.extends (expiresAt : UnixMillis) (row : JobRow) : Bool :=
  row.leaseExpiresAt.any fun expires => decide (expires < expiresAt)

/-- The unfinished attempt a lease belongs to. -/
def JobAttempt.openFor (lease : JobLease) (row : JobAttempt) : Bool :=
  row.jobId = lease.job.jobId && row.attempt == lease.job.attempt &&
    row.leaseGeneration == lease.leaseGeneration && row.finishedAt.isNone

def renewJob (s : JobStore) (lease : JobLease) (now : UnixMillis) (durationMs : Int) :
    Except JobRepositoryError (RenewalResult × JobStore) := do
  reject (now < 0 ∨ ¬ (1 ≤ durationMs ∧ durationMs ≤ jobMaxLeaseMs)) .corrupt
  let expiresAt ← okOr (Checked.addI64 now durationMs) .corrupt
  let hit : JobRow → Bool := fun row => row.heldBy lease now && row.extends expiresAt
  let jobs ← okOr (Table.updateWhere JobRow.check hit
    (fun row => { row with leaseExpiresAt := some expiresAt, updatedAt := now }) s.jobs) .unavailable
  reject (s.jobs.countP hit ≠ 1) .conflict
  let attempts ← okOr (Table.updateWhere JobAttempt.check (JobAttempt.openFor lease)
    (fun row => { row with leaseExpiresAt := expiresAt }) s.attempts) .unavailable
  reject (s.attempts.countP (JobAttempt.openFor lease) ≠ 1) .corrupt
  let next : JobStore := ⟨jobs, attempts⟩
  let row ← okOr (next.find lease.job.jobId) .unavailable
  pure (if row.cancellationRequestedAt.isSome then .cancellationRequested else .renewed, next)

/-! Completion. -/

def outcomeColumns : JobHandlerOutcome → AttemptOutcome × Option String
  | .succeeded => (.succeeded, none)
  | .retryable errorCode => (.retryable, some errorCode)
  | .permanent errorCode => (.permanent, some errorCode)
  | .cancelled => (.cancelled, none)

/-- A completion that was already recorded for the same fence. -/
def existingCompletion (codec : JobCodec) (s : JobStore) (lease : JobLease)
    (outcome : JobHandlerOutcome) : Except JobRepositoryError (Option JobRecord) := do
  let found := s.attempts.find? fun row => row.jobId = lease.job.jobId &&
    row.attempt == lease.job.attempt && row.leaseGeneration == lease.leaseGeneration
  match found.bind fun row => row.handlerOutcome.map fun stored => (stored, row.errorCode) with
  | none => pure none
  | some columns =>
      reject (columns ≠ outcomeColumns outcome) .conflict
      let row ← okOr (s.find lease.job.jobId) .unavailable
      let job ← row.record codec
      pure (some job)

def validateActiveCompletion (current : JobRecord) (lease : JobLease) (outcome : JobHandlerOutcome)
    (now : UnixMillis) : Except JobRepositoryError Unit := do
  let expiry ← okOr current.leaseExpiresAt .corrupt
  reject (current.status ≠ .leased ∨ current.attempt ≠ lease.job.attempt ∨
    current.owner ≠ some lease.workerId ∨ current.leaseGeneration ≠ lease.leaseGeneration ∨
    expiry ≤ now ∨ (current.cancellationRequestedAt.isSome ∧ outcome ≠ .cancelled)) .conflict

def completionTransition (current : JobRecord) (outcome : JobHandlerOutcome) (now : UnixMillis) :
    Except JobRepositoryError (JobStatus × UnixMillis × Option UnixMillis) :=
  match outcome with
  | .succeeded => pure (.succeeded, current.availableAt, some now)
  | .permanent _ => pure (.permanentFailure, current.availableAt, some now)
  | .cancelled => pure (.cancelled, current.availableAt, some now)
  | .retryable _ =>
      if current.maxAttempts ≤ current.attempt then
        pure (.exhausted, current.availableAt, some now)
      else do
        let next ← okOr (Checked.addI64 now
          (retryBackoffMs current.retryInitialMs current.retryMaxMs current.attempt)) .corrupt
        pure (.queued, next, none)

def completeJob (codec : JobCodec) (s : JobStore) (lease : JobLease) (outcome : JobHandlerOutcome)
    (now : UnixMillis) : Except JobRepositoryError (CompletionResult × JobStore) := do
  reject (outcome.validate = false) .corrupt
  reject (now < 0) .corrupt
  match ← existingCompletion codec s lease outcome with
  | some job => pure (.alreadyApplied job, s)
  | none =>
      let row ← okOr (s.find lease.job.jobId) .notFound
      let current ← row.record codec
      validateActiveCompletion current lease outcome now
      let (status, availableAt, finishedAt) ← completionTransition current outcome now
      let jobs ← okOr (Table.updateWhere JobRow.check (JobRow.heldBy lease now)
        (fun row => { row with
          status, availableAt, finishedAt
          owner := none
          leasedAt := none
          leaseExpiresAt := none
          lastErrorCode := (outcomeColumns outcome).2
          updatedAt := now }) s.jobs) .unavailable
      reject (s.jobs.countP (JobRow.heldBy lease now) ≠ 1) .conflict
      let attempts ← okOr (Table.updateWhere JobAttempt.check (JobAttempt.openFor lease)
        (fun row => { row with
          finishedAt := some now
          handlerOutcome := some (outcomeColumns outcome).1
          finalStatus := some status
          errorCode := (outcomeColumns outcome).2
          nextAvailableAt := if status = .queued then some availableAt else none }) s.attempts)
        .unavailable
      reject (s.attempts.countP (JobAttempt.openFor lease) ≠ 1) .corrupt
      let next : JobStore := ⟨jobs, attempts⟩
      let row ← okOr (next.find current.jobId) .unavailable
      let result ← row.record codec
      pure (.applied result, next)

/-! Cancellation. -/

def cancelJob (s : JobStore) (jobId : String) (now : UnixMillis) :
    Except JobRepositoryError (CancellationResult × JobStore) := do
  validateId jobId
  reject (now < 0) .corrupt
  let row ← okOr (s.find jobId) .notFound
  if row.status.isTerminal then pure (.alreadyTerminal, s)
  else if row.status = .queued then
    let hit : JobRow → Bool := fun row => row.jobId = jobId && row.status == .queued
    let jobs ← okOr (Table.updateWhere JobRow.check hit
      (fun row => { row with
        status := .cancelled
        cancellationRequestedAt := some now
        updatedAt := now
        finishedAt := some now }) s.jobs) .unavailable
    reject (s.jobs.countP hit ≠ 1) .conflict
    pure (.cancelled, { s with jobs })
  else
    let hit : JobRow → Bool := fun row => row.jobId = jobId && row.status == .leased
    let jobs ← okOr (Table.updateWhere JobRow.check hit
      (fun row => { row with
        cancellationRequestedAt := row.cancellationRequestedAt.or (some now)
        updatedAt := now }) s.jobs) .unavailable
    reject (s.jobs.countP hit ≠ 1) .conflict
    pure (.requested, { s with jobs })

/-! The repository as a machine. -/

inductive JobRequest where
  | enqueue (job : NewJob) (now : UnixMillis)
  | load (jobId : String)
  | claim (request : ClaimJobs)
  | renew (lease : JobLease) (now : UnixMillis) (durationMs : Int)
  | complete (lease : JobLease) (outcome : JobHandlerOutcome) (now : UnixMillis)
  | cancel (jobId : String) (now : UnixMillis)

inductive JobResponse where
  | enqueued (result : Except JobRepositoryError EnqueueResult)
  | loaded (result : Except JobRepositoryError JobRecord)
  | claimed (result : Except JobRepositoryError (Option JobLease))
  | renewed (result : Except JobRepositoryError RenewalResult)
  | completed (result : Except JobRepositoryError CompletionResult)
  | cancelled (result : Except JobRepositoryError CancellationResult)
deriving DecidableEq

def jobRepository (codec : JobCodec) : Machine JobStore JobRequest JobResponse where
  step s
    | .enqueue job now => (enqueueJob codec s job now).map .enqueued id
    | .load jobId => (.loaded (s.loadJob codec jobId), s)
    | .claim request => (transact s (claimJob codec s request)).map .claimed id
    | .renew lease now durationMs => (transact s (renewJob s lease now durationMs)).map .renewed id
    | .complete lease outcome now =>
        (transact s (completeJob codec s lease outcome now)).map .completed id
    | .cancel jobId now => (transact s (cancelJob s jobId now)).map .cancelled id

end WordArena.Jobs
