import WordArena.Application.Text
import WordArena.Engine.Ruleset

/-! Durable jobs: immutable input, lease and outcome records, and their
validation. Canonical JSON is decided outside the repository and stays
arbitrary. -/
namespace WordArena.Jobs

open WordArena.Application WordArena.Engine

def jobSchemaVersion : Nat := 1

def jobPayloadMaxBytes : Nat := 1048576

def jobMaxAttempts : Nat := 100

def jobMaxLeaseMs : Int := 86400000

def jobMaxBackoffMs : Int := 604800000

/-- Functions supplied from outside: the digest and the test that bytes are
the compact encoding of the JSON value they decode to. -/
structure JobCodec where
  platform : Platform
  canonicalJson : List UInt8 → Bool

structure NewJob where
  schemaVersion : Nat
  jobId : String
  kind : String
  payloadSchemaVersion : Nat
  payloadJson : List UInt8
  priority : Int
  availableAt : UnixMillis
  maxAttempts : Nat
  retryInitialMs : Int
  retryMaxMs : Int
  deduplicationKey : String
deriving DecidableEq

def NewJob.validate (codec : JobCodec) (job : NewJob) : Bool :=
  job.schemaVersion == jobSchemaVersion &&
    validId job.jobId 256 &&
    validKind job.kind &&
    job.payloadSchemaVersion != 0 &&
    !job.payloadJson.isEmpty &&
    decide (job.payloadJson.length ≤ jobPayloadMaxBytes) &&
    decide (0 ≤ job.availableAt) &&
    decide (1 ≤ job.maxAttempts ∧ job.maxAttempts ≤ jobMaxAttempts) &&
    decide (0 < job.retryInitialMs) &&
    decide (job.retryInitialMs ≤ job.retryMaxMs) &&
    decide (job.retryMaxMs ≤ jobMaxBackoffMs) &&
    validId job.deduplicationKey 256 &&
    codec.canonicalJson job.payloadJson

def hexDigest (codec : JobCodec) (bytes : List UInt8) : String :=
  Bytes.hexLower (codec.platform.sha256 bytes).toList

inductive JobStatus where
  | queued
  | leased
  | succeeded
  | permanentFailure
  | exhausted
  | cancelled
deriving DecidableEq, Repr

def JobStatus.isTerminal : JobStatus → Bool
  | .queued => false
  | .leased => false
  | .succeeded => true
  | .permanentFailure => true
  | .exhausted => true
  | .cancelled => true

structure JobRecord where
  schemaVersion : Nat
  jobId : String
  kind : String
  payloadSchemaVersion : Nat
  payloadJson : List UInt8
  payloadSha256 : String
  priority : Int
  availableAt : UnixMillis
  maxAttempts : Nat
  attempt : Nat
  retryInitialMs : Int
  retryMaxMs : Int
  deduplicationKey : String
  status : JobStatus
  owner : Option String
  leaseGeneration : Nat
  leasedAt : Option UnixMillis
  leaseExpiresAt : Option UnixMillis
  cancellationRequestedAt : Option UnixMillis
  createdAt : UnixMillis
  updatedAt : UnixMillis
  finishedAt : Option UnixMillis
deriving DecidableEq

structure JobLease where
  job : JobRecord
  workerId : String
  leaseGeneration : Nat
  leasedAt : UnixMillis
  leaseExpiresAt : UnixMillis
deriving DecidableEq

/-- The kinds are a set in the source; only membership is used. -/
structure ClaimJobs where
  workerId : String
  kinds : List String
  now : UnixMillis
  leaseDurationMs : Int
deriving DecidableEq

def ClaimJobs.validate (request : ClaimJobs) : Bool :=
  validId request.workerId 128 && !request.kinds.isEmpty && request.kinds.all validKind &&
    decide (0 ≤ request.now) &&
    decide (1 ≤ request.leaseDurationMs ∧ request.leaseDurationMs ≤ jobMaxLeaseMs)

inductive EnqueueResult where
  | inserted (job : JobRecord)
  | existing (job : JobRecord)
deriving DecidableEq

inductive JobHandlerOutcome where
  | succeeded
  | retryable (errorCode : String)
  | permanent (errorCode : String)
  | cancelled
deriving DecidableEq

def JobHandlerOutcome.validate : JobHandlerOutcome → Bool
  | .retryable errorCode => validErrorCode errorCode
  | .permanent errorCode => validErrorCode errorCode
  | .succeeded => true
  | .cancelled => true

inductive CompletionResult where
  | applied (job : JobRecord)
  | alreadyApplied (job : JobRecord)
deriving DecidableEq

inductive RenewalResult where
  | renewed
  | cancellationRequested
deriving DecidableEq

inductive CancellationResult where
  | cancelled
  | requested
  | alreadyTerminal
deriving DecidableEq

inductive JobRepositoryError where
  | notFound
  | conflict
  | corrupt
  | unavailable
deriving DecidableEq, Repr

/-- Doubling backoff, saturating and capped. -/
def retryBackoffMs (initialMs maximumMs : Int) (attempt : Nat) : Int :=
  min (Checked.saturateI64 (initialMs * 2 ^ min (attempt - 1) 62)) maximumMs

end WordArena.Jobs
