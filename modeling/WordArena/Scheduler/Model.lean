import WordArena.Library.Checked
import WordArena.Application.Text

/-! Scheduling limits, token buckets, execution reservations and terminal
results, with their validation. -/
namespace WordArena.Scheduler

open WordArena.Application

def schedulerSchemaVersion : Nat := 1

def maxConcurrencyLimit : Nat := 10000

def maxRateCapacity : Nat := 1000000

def maxReservationMs : Int := 86400000

inductive SchedulerScope where
  | «global»
  | tournament (id : String)
  | harness (id : String)
  | provider (id : String)
deriving DecidableEq

def SchedulerScope.key : SchedulerScope → String
  | .global => "global"
  | .tournament id => "tournament:" ++ id
  | .harness id => "harness:" ++ id
  | .provider id => "provider:" ++ id

def SchedulerScope.validate : SchedulerScope → Bool
  | .global => true
  | .tournament id => validId id 128
  | .harness id => validId id 128
  | .provider id => validId id 128

structure RatePolicy where
  capacity : Nat
  refillTokens : Nat
  refillIntervalMs : Int
deriving DecidableEq

def RatePolicy.validate (rate : RatePolicy) : Bool :=
  decide (0 < rate.capacity ∧ rate.capacity ≤ maxRateCapacity) &&
    decide (0 < rate.refillTokens ∧ rate.refillTokens ≤ maxRateCapacity) &&
    decide (0 < rate.refillIntervalMs ∧ rate.refillIntervalMs ≤ 86400000)

structure SchedulingLimit where
  schemaVersion : Nat
  scope : SchedulerScope
  maxConcurrency : Nat
  rate : Option RatePolicy
deriving DecidableEq

def SchedulingLimit.validate (limit : SchedulingLimit) : Bool :=
  limit.schemaVersion == schedulerSchemaVersion && limit.scope.validate &&
    decide (1 ≤ limit.maxConcurrency ∧ limit.maxConcurrency ≤ maxConcurrencyLimit) &&
    limit.rate.all RatePolicy.validate

inductive TournamentWorkerControl where
  | running
  | paused
  | draining
  | cancelled
deriving DecidableEq, Repr

structure ReservationRequest where
  schemaVersion : Nat
  reservationId : String
  jobId : String
  tournamentId : String
  matchId : String
  runId : String
  harnessId : String
  providerId : String
  immutableInputsSha256 : String
  owner : String
  now : UnixMillis
  durationMs : Int
deriving DecidableEq

def ReservationRequest.validate (request : ReservationRequest) : Bool :=
  request.schemaVersion == schedulerSchemaVersion &&
    [request.reservationId, request.jobId, request.tournamentId, request.matchId, request.runId,
      request.harnessId, request.providerId, request.owner].all (validId · 256) &&
    validSha256 request.immutableInputsSha256 &&
    decide (0 ≤ request.now) &&
    decide (1 ≤ request.durationMs ∧ request.durationMs ≤ maxReservationMs)

def ReservationRequest.scopes (request : ReservationRequest) : List SchedulerScope :=
  [.global, .tournament request.tournamentId, .harness request.harnessId,
    .provider request.providerId]

structure ExecutionReservation where
  request : ReservationRequest
  expiresAt : UnixMillis
  cancellationRequested : Bool
deriving DecidableEq

inductive ReservationResult where
  | acquired (reservation : ExecutionReservation)
  | limited (retryAt : Option UnixMillis)
  | paused
  | draining
  | cancelled
  | alreadyFinished
deriving DecidableEq

structure TerminalMatchResult where
  schemaVersion : Nat
  matchId : String
  immutableInputsSha256 : String
  resultSha256 : String
  chargeKey : String
  telemetryKey : String
  ratingKey : String
deriving DecidableEq

def TerminalMatchResult.validate (result : TerminalMatchResult) : Bool :=
  result.schemaVersion == schedulerSchemaVersion && validId result.matchId 256 &&
    validSha256 result.immutableInputsSha256 && validSha256 result.resultSha256 &&
    validId result.chargeKey 256 && validId result.telemetryKey 256 && validId result.ratingKey 256

inductive TerminalCommitResult where
  | applied (result : TerminalMatchResult)
  | alreadyApplied (result : TerminalMatchResult)
deriving DecidableEq

structure RecoverySnapshot where
  controls : List (String × TournamentWorkerControl)
  active : List ExecutionReservation
  expiredMatchIds : List String
deriving DecidableEq

inductive SchedulerRepositoryError where
  | conflict
  | corrupt
  | unavailable
deriving DecidableEq, Repr

structure TokenBucketState where
  tokens : Nat
  remainder : Nat
  updatedAt : UnixMillis
deriving DecidableEq

/-- Refill one integer token bucket, or nothing when the clock went back or the
policy is invalid. The products saturate at 128 bits and the tokens at 32. -/
def refillBucket (state : TokenBucketState) (policy : RatePolicy) (now : UnixMillis) :
    Option TokenBucketState :=
  if now < state.updatedAt ∨ policy.capacity = 0 ∨ policy.refillTokens = 0 ∨
    policy.refillIntervalMs ≤ 0 then none
  else if policy.capacity ≤ state.tokens then some ⟨policy.capacity, 0, now⟩
  else
    let elapsed := (now - state.updatedAt).toNat
    let numerator :=
      min (min (elapsed * policy.refillTokens) (2 ^ 128 - 1) + state.remainder) (2 ^ 128 - 1)
    let interval := policy.refillIntervalMs.toNat
    let added := if numerator / interval < 2 ^ 32 then numerator / interval else 2 ^ 32 - 1
    let tokens := min (min (state.tokens + added) (2 ^ 32 - 1)) policy.capacity
    if tokens = policy.capacity then some ⟨tokens, 0, now⟩
    else if numerator % interval < 2 ^ 64 then some ⟨tokens, numerator % interval, now⟩
    else none

def tokenRetryAt (state : TokenBucketState) (policy : RatePolicy) (now : UnixMillis) :
    Option UnixMillis :=
  if 0 < state.tokens then some now
  else if policy.refillIntervalMs < 0 then none
  else
    let remaining := policy.refillIntervalMs.toNat - state.remainder
    let delay := min (remaining + (policy.refillTokens - 1)) (2 ^ 64 - 1) / policy.refillTokens
    if delay < 2 ^ 63 then Checked.addI64 now delay else none

def maxTime : Option UnixMillis → Option UnixMillis → Option UnixMillis
  | some left, some right => some (max left right)
  | left, right => left.or right

end WordArena.Scheduler
