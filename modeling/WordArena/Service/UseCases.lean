import WordArena.Library.Program
import WordArena.Service.Repository

/-! The use cases as programs over single repository operations. Clock readings
and seeds come from outside; everything else is decided by the store. -/
namespace WordArena.Service

open Fallible WordArena.Engine WordArena.Lexicon WordArena.Application

/-- Ports of the service, one request for each operation it uses. -/
inductive Request where
  | now
  | nextSeed
  | loadCreationIdempotency (keyDigest : Digest) (payloadSha256 : String)
  | insertIdempotent (record : StoredGame) (creation : CreationIdempotencyRecord)
  | loadIdempotency (gameId : GameId) (keyDigest : Digest) (payloadSha256 : String)
  | load (gameId : GameId)
  | loadInvalidAttempt (gameId : GameId) (turn : UInt64) (seat : Seat)
  | commitAction (commit : ActionCommit)
  | loadRecovery (gameId : GameId)
  | dueTimeouts (now : UnixMillis) (limit : UInt32)
deriving DecidableEq

def Request.Response : Request → Type
  | .now => UnixMillis
  | .nextSeed => GameSeed
  | .loadCreationIdempotency .. => CreationIdempotencyLookup
  | .insertIdempotent .. => Except RepositoryError Unit
  | .loadIdempotency .. => IdempotencyLookup
  | .load .. => Except RepositoryError StoredGame
  | .loadInvalidAttempt .. => Except RepositoryError (Option InvalidAttemptState)
  | .commitAction .. => Except RepositoryError Unit
  | .loadRecovery .. => Except RepositoryError RecoveryRecord
  | .dueTimeouts .. => List TimeoutCommand

/-- What the outside world adds to an answer. -/
structure Input where
  clock : Int64
  seed : GameSeed

/-- Keep the store of a transaction that was refused. -/
def commitOr (s : Store) (attempt : Except RepositoryError Store) :
    Except RepositoryError Unit × Store :=
  transact s (attempt.map fun t => ((), t))

def perform (inst : Installation) (input : Input) (s : Store) :
    (request : Request) → request.Response × Store
  | .now => (input.clock.toInt, s)
  | .nextSeed => (input.seed, s)
  | .loadCreationIdempotency keyDigest payload => (loadCreationIdempotency s keyDigest payload, s)
  | .insertIdempotent record creation => commitOr s (insertGame inst.platform s record creation)
  | .loadIdempotency gameId keyDigest payload => (lookupIdempotency s gameId keyDigest payload, s)
  | .load gameId => (loadGame inst.platform s gameId, s)
  | .loadInvalidAttempt gameId turn seat => (loadInvalidAttempt s gameId turn seat, s)
  | .commitAction commit => commitOr s (commitActionRecord s commit)
  | .loadRecovery gameId => (loadRecovery s gameId, s)
  | .dueTimeouts now limit => (dueTimeouts s now limit, s)

/-- The repository of one installation. -/
def repository (inst : Installation) : Program.Interface Store Input Request Request.Response :=
  ⟨perform inst⟩

/-- A use case that may fail with an application error. -/
abbrev Task := ExceptT ApplicationError (Program Request Request.Response)

def ask (request : Request) : Task request.Response :=
  ExceptT.mk (.query request fun response => .done (.ok response))

/-- Pass on a result, or stop with its error. -/
def settle {α : Type} (result : Except ApplicationError α) : Task α := ExceptT.mk (.done result)

/-- The result of a use case as a value, errors included. -/
def observe {α : Type} (task : Task α) : Task (Except ApplicationError α) :=
  ExceptT.mk (task.run >>= fun result => .done (.ok result))

/-! Pure parts. -/

def forLanguage : Language → Except GameError Ruleset
  | .english => .ok (Ruleset.builtin .englishV1)
  | .french => .ok (Ruleset.builtin .frenchV1)
  | language => .error (.rulesetUnavailable language)

def nextDeadline (policy : OperationalPolicy) (game : Game) (since : UnixMillis) :
    Option TurnDeadline :=
  if game.publicProjection.state.phase = .active then
    some ⟨game.publicProjection.state.version, game.publicProjection.state.currentPlayer,
      Checked.saturateI64 (since + policy.turnDurationMs), policy.version⟩
  else none

def resumeRecord (inst : Installation) (record : StoredGame) : Except ApplicationError Game := do
  let ruleset := Ruleset.builtin record.snapshot.state.rulesetId
  let lexicon ← okOr (inst.lexicons record.snapshot.state.lexicon) (.missingLexicon record.gameId)
  mapErr .engine (Game.resume inst.platform record.snapshot ruleset (some lexicon))

def rejectionFromEngine (quote : Quotation) : GameError → ActionRejection
  | .staleVersion _ _ => .versionConflict
  | error => .illegalAction (error.display quote)

def outcomeResult : ActionOutcome → Except ApplicationError GameActionResult
  | .accepted result => .ok ⟨result.committedAt, result.turnDeadline, result.event, result.game⟩
  | .rejected rejection => .error (.actionRejected rejection)

def createdGame (result : PersistedCreateResult) : CreatedGame where
  access := .new result.gameId result.publicView.state.scores.length
  gameId := result.gameId
  createdAt := result.createdAt
  publicView := result.publicView

def successorRecord (inst : Installation) (record : StoredGame) (game : Game)
    (committedAt : UnixMillis) : StoredGame where
  gameId := record.gameId
  createdAt := record.createdAt
  updatedAt := committedAt
  snapshot := game.snapshot inst.platform
  turnDeadline := nextDeadline inst.policy game committedAt

/-- What one attempted action asks to be stored. -/
structure Attempt where
  outcome : ActionOutcome
  successor : Option StoredGame
  invalidAttempt : Option InvalidAttemptState
  replay : Option ReplayBundle

def acceptedAttempt (inst : Installation) (record : StoredGame) (seat : Seat)
    (committedAt : UnixMillis) (game : Game) (event : GameEvent) : Attempt where
  outcome := .accepted ⟨committedAt, nextDeadline inst.policy game committedAt, event,
    game.seatProjection seat⟩
  successor := some (successorRecord inst record game committedAt)
  invalidAttempt := none
  replay := game.replayBundle inst.platform

/-- The policy response to a counted attempt: nothing below the limit, else a
forced move from the original snapshot. -/
def policyResponse (inst : Installation) (record : StoredGame) (expectedVersion : UInt64)
    (seat : Seat) (count : UInt32) : Except ApplicationError (Option Game) :=
  if inst.policy.invalidAttemptLimit ≤ count then
    match inst.policy.invalidAttemptResponse.move? with
    | none => .ok none
    | some move => do
        let game ← resumeRecord inst record
        let (game, _) ← mapErr .engine (game.applyMove inst.platform seat expectedVersion move)
        return some game
  else .ok none

/-- Counts saturate at the end of their range. -/
def nextCount (prior : Option InvalidAttemptState) : UInt32 :=
  UInt32.ofNat (min (((prior.map InvalidAttemptState.count).getD 0).toNat + 1) (2 ^ 32 - 1))

def countedAttempt (inst : Installation) (record : StoredGame) (expectedVersion : UInt64)
    (seat : Seat) (committedAt : UnixMillis) (rejection : ActionRejection)
    (prior : Option InvalidAttemptState) : Except ApplicationError Attempt := do
  let count := nextCount prior
  let forced ← policyResponse inst record expectedVersion seat count
  return {
    outcome := .rejected rejection
    successor := forced.map fun game => successorRecord inst record game committedAt
    invalidAttempt := some ⟨expectedVersion, seat, inst.policy.version, count⟩
    replay := forced.bind fun game => game.replayBundle inst.platform }

/-! Steps shared by the use cases. -/

def checked {α : Type} (result : Except RepositoryError α) : Task α :=
  settle (mapErr .repository result)

def loadRecord (inst : Installation) (gameId : GameId) : Task StoredGame := do
  match ← ask (.load gameId) with
  | .ok record => settle (.ok record)
  | .error .corrupt => do
      let recovery ← checked (← ask (.loadRecovery gameId))
      let lexicon ← settle (okOr (inst.lexicons recovery.replay.lexicon) (.missingLexicon gameId))
      let game ← settle (mapErr .engine (Game.replay inst.platform recovery.replay (some lexicon)))
      settle (.ok ⟨recovery.gameId, recovery.createdAt, recovery.updatedAt,
        game.snapshot inst.platform, none⟩)
  | .error error => settle (.error (.repository error))

def lookupReply : IdempotencyLookup → Option (Except ApplicationError GameActionResult)
  | .missing => none
  | .payloadConflict => some (.error (.actionRejected .idempotencyConflict))
  | .found outcome => some (outcomeResult outcome)

def cachedOutcome (gameId : GameId) (keyDigest : Digest) (payloadSha256 : String) :
    Task (Option (Except ApplicationError GameActionResult)) := do
  let lookup ← ask (.loadIdempotency gameId keyDigest payloadSha256)
  settle (.ok (lookupReply lookup))

/-- The part of a commit that names the command. -/
structure CommandIdentity where
  gameId : GameId
  keyDigest : Digest
  commandKind : String
  payloadSha256 : String

def actionCommit (command : CommandIdentity) (expectedVersion : UInt64) (committedAt : UnixMillis)
    (attempt : Attempt) : ActionCommit where
  expectedVersion := expectedVersion
  successor := attempt.successor
  idempotency := {
    gameId := command.gameId
    keyDigest := command.keyDigest
    digestVersion := idempotencyDigestVersion
    commandKind := command.commandKind
    payloadSha256 := command.payloadSha256
    outcome := attempt.outcome
    createdAt := committedAt }
  invalidAttempt := attempt.invalidAttempt
  replay := attempt.replay

/-- Decide an action on a loaded game. Only an illegal action of a player reads
the attempt counter. -/
def attemptAction (inst : Installation) (record : StoredGame) (game : Game)
    (expectedVersion : UInt64) (seat : Seat) (action : Move) (countInvalid : Bool)
    (gameId : GameId) (committedAt : UnixMillis) : Task Attempt :=
  match game.applyMove inst.platform seat expectedVersion action with
  | .ok (next, event) => settle (.ok (acceptedAttempt inst record seat committedAt next event))
  | .error error =>
      let rejection := rejectionFromEngine inst.quote error
      if countInvalid = true ∧ rejection ≠ .versionConflict then do
        let prior ← checked (← ask (.loadInvalidAttempt gameId expectedVersion seat))
        settle (countedAttempt inst record expectedVersion seat committedAt rejection prior)
      else settle (.ok ⟨.rejected rejection, none, none, none⟩)

/-- Commit a decided action. A lost race is answered from the cache when a twin
has stored the outcome. -/
def commitAttempted (command : CommandIdentity) (expectedVersion : UInt64)
    (committedAt : UnixMillis) (attempt : Attempt) : Task GameActionResult := do
  match ← ask (.commitAction (actionCommit command expectedVersion committedAt attempt)) with
  | .ok () => settle (outcomeResult attempt.outcome)
  | .error .conflict => do
      match ← cachedOutcome command.gameId command.keyDigest command.payloadSha256 with
      | some result => settle result
      | none => settle (.error (.repository .conflict))
  | .error error => settle (.error (.repository error))

def executeAction (inst : Installation) (command : CommandIdentity) (expectedVersion : UInt64)
    (seat : Seat) (action : Move) (countInvalid : Bool) : Task GameActionResult := do
  let record ← loadRecord inst command.gameId
  let game ← settle (resumeRecord inst record)
  let committedAt ← ask .now
  let attempt ← attemptAction inst record game expectedVersion seat action countInvalid
    command.gameId committedAt
  commitAttempted command expectedVersion committedAt attempt

/-! The use cases. -/

def creationReply : CreationIdempotencyLookup → Except ApplicationError (Option CreatedGame)
  | .missing => .ok none
  | .payloadConflict => .error (.actionRejected .idempotencyConflict)
  | .found result => .ok (some (createdGame result))

/-- Lookup that answers a retried creation. -/
def cachedCreation (keyDigest : Digest) (payloadSha256 : String) :
    Task (Option CreatedGame) := do
  let lookup ← ask (.loadCreationIdempotency keyDigest payloadSha256)
  settle (creationReply lookup)

def creationRecordOf (inst : Installation) (command : CreateGameCommand) (game : Game)
    (createdAt : UnixMillis) : StoredGame where
  gameId := command.gameId
  createdAt := createdAt
  updatedAt := createdAt
  snapshot := game.snapshot inst.platform
  turnDeadline := nextDeadline inst.policy game createdAt

def creationIdempotencyOf (inst : Installation) (command : CreateGameCommand) (game : Game)
    (createdAt : UnixMillis) : CreationIdempotencyRecord where
  keyDigest := digestKey inst.platform command.idempotencyKey
  digestVersion := idempotencyDigestVersion
  payloadSha256 := payloadSha256 inst.platform command.payload.json
  result := ⟨command.gameId, createdAt, game.publicProjection⟩

/-- Insert a dealt game. Losing either uniqueness race is answered from the
cache when the key is known by then. -/
def insertCreated (inst : Installation) (command : CreateGameCommand) (game : Game)
    (createdAt : UnixMillis) : Task CreatedGame := do
  let creation := creationIdempotencyOf inst command game createdAt
  match ← ask (.insertIdempotent (creationRecordOf inst command game createdAt) creation) with
  | .ok () => settle (.ok (createdGame creation.result))
  | .error error =>
      if error = .conflict ∨ error = .alreadyExists then do
        match ← cachedCreation creation.keyDigest creation.payloadSha256 with
        | some created => settle (.ok created)
        | none => settle (.error (.repository error))
      else settle (.error (.repository error))

def createGame (inst : Installation) (command : CreateGameCommand) : Task CreatedGame := do
  match ← cachedCreation (digestKey inst.platform command.idempotencyKey)
      (payloadSha256 inst.platform command.payload.json) with
  | some created => settle (.ok created)
  | none => do
      let ruleset ← settle (mapErr .engine (forLanguage command.language))
      let lexicon ← settle (okOr (inst.lexicons ruleset.lexicon) (.missingLexicon command.gameId))
      let createdAt ← ask .now
      let seed ← ask .nextSeed
      let game ← settle (mapErr .engine (Game.createWithModeAndPlayers inst.platform
        command.gameId.asStr ruleset (some lexicon) seed command.mode command.playerCount.toNat))
      insertCreated inst command game createdAt

/-- What `act` checks before it touches the repository. -/
def ensureAuthority (credential : CompetitiveSeatCredential) (command : GameActionCommand) :
    Except ApplicationError Unit := do
  reject (credential.gameId ≠ command.gameId) (.wrongGameAuthority command.gameId)
  reject (command.turn.seat ≠ credential.seat)
    (.wrongSeatAuthority credential.seat command.turn.seat)
  reject (command.turn.number ≠ command.expectedVersion)
    (.turnVersionMismatch command.turn.number command.expectedVersion)

def GameActionCommand.identity (platform : Platform) (command : GameActionCommand) :
    CommandIdentity where
  gameId := command.gameId
  keyDigest := digestKey platform command.idempotencyKey
  commandKind := "game_action"
  payloadSha256 := payloadSha256 platform command.payload.json

def act (inst : Installation) (credential : CompetitiveSeatCredential)
    (command : GameActionCommand) : Task GameActionResult := do
  settle (ensureAuthority credential command)
  let identity := command.identity inst.platform
  match ← cachedOutcome identity.gameId identity.keyDigest identity.payloadSha256 with
  | some result => settle result
  | none => executeAction inst identity command.expectedVersion credential.seat command.action true

def timeoutKey (policy : OperationalPolicy) (command : TimeoutCommand) :
    Except ApplicationError IdempotencyKey :=
  IdempotencyKey.new s!"timeout:{command.gameId.asStr}:{command.expectedVersion}:{policy.version}"

def TimeoutCommand.identity (inst : Installation) (command : TimeoutCommand)
    (key : IdempotencyKey) : CommandIdentity where
  gameId := command.gameId
  keyDigest := digestKey inst.platform key
  commandKind := "turn_timeout"
  payloadSha256 := payloadSha256 inst.platform
    (TimeoutPayload.mk command.gameId command.expectedVersion inst.policy.version).json

/-- The deadline of the expected turn, when the clock has reached it. The clock
is read only for a deadline of that turn. -/
def dueDeadline (record : StoredGame) (expectedVersion : UInt64) : Task TurnDeadline :=
  match record.turnDeadline with
  | none => settle (.error (.actionRejected .deadlineNotReached))
  | some deadline =>
      if deadline.turn ≠ expectedVersion then
        settle (.error (.actionRejected .deadlineNotReached))
      else do
        let now : UnixMillis ← ask .now
        if now < deadline.deadlineAt then settle (.error (.actionRejected .deadlineNotReached))
        else settle (.ok deadline)

def resolveTimeout (inst : Installation) (command : TimeoutCommand) : Task GameActionResult := do
  let key ← settle (timeoutKey inst.policy command)
  let identity := command.identity inst key
  match ← cachedOutcome identity.gameId identity.keyDigest identity.payloadSha256 with
  | some result => settle result
  | none => do
      let record ← loadRecord inst command.gameId
      let deadline ← dueDeadline record command.expectedVersion
      executeAction inst identity command.expectedVersion deadline.seat
        inst.policy.timeoutResponse.move false

/-- Errors a sweep takes for a lost race. -/
def ApplicationError.isRace : ApplicationError → Bool
  | .repository .conflict => true
  | .actionRejected .versionConflict => true
  | .actionRejected .deadlineNotReached => true
  | _ => false

def resolveDue (inst : Installation) (committed : List TimeoutCommand) (command : TimeoutCommand) :
    Task (List TimeoutCommand) := do
  match ← observe (resolveTimeout inst command) with
  | .ok _ => settle (.ok (committed ++ [command]))
  | .error error =>
      if error.isRace = true then settle (.ok committed) else settle (.error error)

def resolveDueTimeouts (inst : Installation) (limit : UInt32) : Task (List TimeoutCommand) := do
  let now ← ask .now
  let commands ← ask (.dueTimeouts now limit)
  commands.foldlM (resolveDue inst) []

/-! The service. -/

inductive ServiceCall where
  | create (command : CreateGameCommand)
  | act (credential : CompetitiveSeatCredential) (command : GameActionCommand)
  | timeout (command : TimeoutCommand)
  | sweep (limit : UInt32)
deriving DecidableEq

inductive Reply where
  | created (result : Except ApplicationError CreatedGame)
  | acted (result : Except ApplicationError GameActionResult)
  | swept (result : Except ApplicationError (List TimeoutCommand))
deriving DecidableEq

def serve (inst : Installation) : ServiceCall → Program Request Request.Response Reply
  | .create command => (createGame inst command).run >>= fun result => .done (.created result)
  | .act credential command => (act inst credential command).run >>= fun result => .done (.acted result)
  | .timeout command => (resolveTimeout inst command).run >>= fun result => .done (.acted result)
  | .sweep limit => (resolveDueTimeouts inst limit).run >>= fun result => .done (.swept result)

/-- Any number of calls in any interleaving of their requests. -/
abbrev ServicePool := Pool Store Input Request Request.Response ServiceCall Reply

abbrev ServiceAction := Pool.Action Input ServiceCall

def ServicePool.empty : ServicePool := ⟨.empty, []⟩

def service (inst : Installation) : Machine ServicePool ServiceAction Unit :=
  Pool.machine (repository inst) (serve inst)

end WordArena.Service
