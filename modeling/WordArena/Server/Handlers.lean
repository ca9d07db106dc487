import WordArena.Service.UseCases

/-! Entry points of the server that commit moves. Each of them calls one use case
and announces on its own what came of it: WebSocket clients get an invalidation,
MCP sessions a notification of the game. -/
namespace WordArena.Server

open WordArena.Engine WordArena.Service

/-- Version of the transport schema. -/
def apiSchemaVersion : UInt16 := 1

def deadlineBatchSize : UInt32 := 64

/-- What WebSocket clients are told of a changed game. -/
structure GameInvalidation where
  schemaVersion : UInt16
  gameId : GameId
  version : UInt64
deriving DecidableEq

/-- The body of a REST action. The seat comes from the credential. -/
structure GameActionRequest where
  expectedVersion : UInt64
  turnNumber : UInt64
  idempotencyKey : IdempotencyKey
  action : Move
deriving DecidableEq

/-- The input of an MCP tool that changes a game. -/
structure MutationInput where
  expectedVersion : UInt64
  turnId : UInt64
  idempotencyKey : String
deriving DecidableEq

/-- What an entry point has done by the time it responds: the reply of its use
case, the invalidations it has published and the games whose MCP subscriptions
it has notified. -/
structure Answer where
  reply : Reply
  published : List GameInvalidation
  notified : List GameId

abbrev Handler := Program Request Request.Response Answer

def GameActionRequest.command (request : GameActionRequest) (gameId : GameId)
    (credential : CompetitiveSeatCredential) : GameActionCommand where
  gameId := gameId
  expectedVersion := request.expectedVersion
  turn := ⟨request.turnNumber, credential.seat⟩
  idempotencyKey := request.idempotencyKey
  action := request.action

def gameActionAnswer (gameId : GameId) (result : Except ApplicationError GameActionResult) :
    Answer :=
  match result with
  | .error _ => ⟨.acted result, [], []⟩
  | .ok accepted => ⟨.acted result,
      [⟨apiSchemaVersion, gameId, accepted.game.publicView.state.version⟩], [gameId]⟩

/-- `POST /games/{game_id}/actions`, from the authenticated seat on. -/
def gameAction (inst : Installation) (gameId : GameId) (credential : CompetitiveSeatCredential)
    (request : GameActionRequest) : Handler :=
  (act inst credential (request.command gameId credential)).run >>= fun result =>
    .done (gameActionAnswer gameId result)

def MutationInput.command (input : MutationInput) (credential : CompetitiveSeatCredential)
    (key : IdempotencyKey) (action : Move) : GameActionCommand where
  gameId := credential.gameId
  expectedVersion := input.expectedVersion
  turn := ⟨input.turnId, credential.seat⟩
  idempotencyKey := key
  action := action

def mcpActAnswer (gameId : GameId) (result : Except ApplicationError GameActionResult) : Answer :=
  match result with
  | .error _ => ⟨.acted result, [], []⟩
  | .ok _ => ⟨.acted result, [], [gameId]⟩

/-- What every MCP tool that changes a game does with the authority of its
request. -/
def mcpAct (inst : Installation) (credential : CompetitiveSeatCredential) (input : MutationInput)
    (action : Move) : Handler :=
  match IdempotencyKey.new input.idempotencyKey with
  | .error error => .done ⟨.acted (.error error), [], []⟩
  | .ok key => (act inst credential (input.command credential key action)).run >>= fun result =>
      .done (mcpActAnswer credential.gameId result)

/-- The version after one, at most the last one. -/
def saturatingNext (version : UInt64) : UInt64 :=
  UInt64.ofNat (min (version.toNat + 1) (2 ^ 64 - 1))

def deadlineAnswer (result : Except ApplicationError (List TimeoutCommand)) : Answer :=
  match result with
  | .error _ => ⟨.swept result, [], []⟩
  | .ok commands => ⟨.swept result,
      commands.map fun command =>
        ⟨apiSchemaVersion, command.gameId, saturatingNext command.expectedVersion⟩,
      commands.map (·.gameId)⟩

/-- One iteration of the deadline worker. -/
def deadlineBatch (inst : Installation) : Handler :=
  (resolveDueTimeouts inst deadlineBatchSize).run >>= fun result => .done (deadlineAnswer result)

def createAnswer (result : Except ApplicationError CreatedGame) : Answer := ⟨.created result, [], []⟩

/-- Calls of the entry points. Creations give the others games to play. -/
inductive Entry where
  | create (command : CreateGameCommand)
  | gameAction (gameId : GameId) (credential : CompetitiveSeatCredential)
      (request : GameActionRequest)
  | mcpAct (credential : CompetitiveSeatCredential) (input : MutationInput) (action : Move)
  | deadlineBatch
deriving DecidableEq

def handle (inst : Installation) : Entry → Handler
  | .create command => (createGame inst command).run >>= fun result => .done (createAnswer result)
  | .gameAction gameId credential request => gameAction inst gameId credential request
  | .mcpAct credential input action => mcpAct inst credential input action
  | .deadlineBatch => deadlineBatch inst

/-- Any number of calls in any interleaving of their repository operations. -/
abbrev ServerPool := Pool Store Input Request Request.Response Entry Answer

abbrev ServerAction := Pool.Action Input Entry

def ServerPool.empty : ServerPool := ⟨.empty, []⟩

def server (inst : Installation) : Machine ServerPool ServerAction Unit :=
  Pool.machine (repository inst) (handle inst)

end WordArena.Server
