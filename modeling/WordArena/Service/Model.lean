import WordArena.Library.Json
import WordArena.Library.Checked
import WordArena.Application.Text
import WordArena.Engine.Display
import WordArena.Engine.Projection

/-! Vocabulary of the application service: identifiers, commands, outcomes,
policies, stored records and failures. Stored JSON is kept as the value it
decodes to. -/
namespace WordArena.Service

open WordArena.Engine WordArena.Lexicon WordArena.Application

abbrev Digest := Vector UInt8 32

/-- Nonempty, bounded and made of visible ASCII characters only. -/
def printable (maximum : Nat) (value : String) : Bool :=
  value ≠ "" && decide (value.utf8ByteSize ≤ maximum) &&
    value.toList.all fun c => decide (0x21 ≤ c.toNat ∧ c.toNat ≤ 0x7e)

structure GameId where
  asStr : String
  valid : printable 128 asStr = true
deriving DecidableEq

/-- Opaque retry identity chosen by a client. -/
structure IdempotencyKey where
  asStr : String
  valid : printable 256 asStr = true
deriving DecidableEq

structure Turn where
  number : UInt64
  seat : Seat
deriving DecidableEq, Repr

/-! Failures. -/

inductive RepositoryError where
  | notFound
  | alreadyExists
  | conflict
  | corrupt
  | incompatibleSchema
  | incompatiblePack
  | unavailable
deriving DecidableEq, Repr

inductive ActionRejection where
  | versionConflict
  | illegalAction (message : String)
  | idempotencyConflict
  | deadlineNotReached
deriving DecidableEq, Repr

/-- Failures of the use cases modelled here. -/
inductive ApplicationError where
  | invalidIdempotencyKey
  | missingLexicon (gameId : GameId)
  | wrongGameAuthority (gameId : GameId)
  | wrongSeatAuthority (actual claimed : Seat)
  | turnVersionMismatch (turn expectedVersion : UInt64)
  | actionRejected (rejection : ActionRejection)
  | repository (error : RepositoryError)
  | engine (error : GameError)
deriving DecidableEq

def IdempotencyKey.new (value : String) : Except ApplicationError IdempotencyKey :=
  if h : printable 256 value = true then .ok ⟨value, h⟩ else .error .invalidIdempotencyKey

/-! Commands and credentials. -/

structure CreateGameCommand where
  gameId : GameId
  language : Language
  mode : GameMode
  playerCount : UInt8
  idempotencyKey : IdempotencyKey
deriving DecidableEq

structure GameActionCommand where
  gameId : GameId
  expectedVersion : UInt64
  turn : Turn
  idempotencyKey : IdempotencyKey
  action : Move
deriving DecidableEq

structure TimeoutCommand where
  gameId : GameId
  expectedVersion : UInt64
deriving DecidableEq

structure PublicViewerCredential where
  gameId : GameId
deriving DecidableEq

structure CompetitiveSeatCredential where
  gameId : GameId
  seat : Seat
deriving DecidableEq

structure CreatedGameAccess where
  publicViewer : PublicViewerCredential
  seatOne : CompetitiveSeatCredential
  seatTwo : CompetitiveSeatCredential
  seats : List CompetitiveSeatCredential
deriving DecidableEq

def CreatedGameAccess.new (gameId : GameId) (playerCount : Nat) : CreatedGameAccess :=
  let seats := ((Seat.active playerCount).getD [.one, .two]).map (CompetitiveSeatCredential.mk gameId)
  ⟨⟨gameId⟩, seats.getD 0 ⟨gameId, .one⟩, seats.getD 1 ⟨gameId, .two⟩, seats⟩

/-! Policy. -/

inductive TimeoutResponse where
  | pass
  | resign
deriving DecidableEq, Repr

inductive InvalidAttemptResponse where
  | rejectOnly
  | pass
  | resign
deriving DecidableEq, Repr

/-- Reliability policy. Bootstrap asserts that its numbers are positive. -/
structure OperationalPolicy where
  version : UInt32
  turnDurationMs : Int
  timeoutResponse : TimeoutResponse
  invalidAttemptLimit : UInt32
  invalidAttemptResponse : InvalidAttemptResponse
  version_pos : 0 < version.toNat
  turnDuration_pos : 0 < turnDurationMs
  limit_pos : 0 < invalidAttemptLimit.toNat

def OperationalPolicy.standard : OperationalPolicy where
  version := 1
  turnDurationMs := 300000
  timeoutResponse := .pass
  invalidAttemptLimit := 3
  invalidAttemptResponse := .rejectOnly
  version_pos := by decide
  turnDuration_pos := by decide
  limit_pos := by decide

def TimeoutResponse.move : TimeoutResponse → Move
  | .pass => .pass
  | .resign => .resign

/-- The forced move after too many invalid attempts, when there is one. -/
def InvalidAttemptResponse.move? : InvalidAttemptResponse → Option Move
  | .rejectOnly => none
  | .pass => some .pass
  | .resign => some .resign

structure TurnDeadline where
  turn : UInt64
  seat : Seat
  deadlineAt : UnixMillis
  policyVersion : UInt32
deriving DecidableEq

/-! Outcomes and stored records. -/

structure PersistedActionResult where
  committedAt : UnixMillis
  turnDeadline : Option TurnDeadline
  event : GameEvent
  game : SeatProjection
deriving DecidableEq

structure GameActionResult where
  committedAt : UnixMillis
  turnDeadline : Option TurnDeadline
  event : GameEvent
  game : SeatProjection
deriving DecidableEq

inductive ActionOutcome where
  | accepted (result : PersistedActionResult)
  | rejected (rejection : ActionRejection)
deriving DecidableEq

structure IdempotencyRecord where
  gameId : GameId
  keyDigest : Digest
  digestVersion : UInt32
  commandKind : String
  payloadSha256 : String
  outcome : ActionOutcome
  createdAt : UnixMillis
deriving DecidableEq

inductive IdempotencyLookup where
  | missing
  | found (outcome : ActionOutcome)
  | payloadConflict
deriving DecidableEq

structure PersistedCreateResult where
  gameId : GameId
  createdAt : UnixMillis
  publicView : PublicProjection
deriving DecidableEq

structure CreationIdempotencyRecord where
  keyDigest : Digest
  digestVersion : UInt32
  payloadSha256 : String
  result : PersistedCreateResult
deriving DecidableEq

inductive CreationIdempotencyLookup where
  | missing
  | found (result : PersistedCreateResult)
  | payloadConflict
deriving DecidableEq

structure CreatedGame where
  gameId : GameId
  createdAt : UnixMillis
  publicView : PublicProjection
  access : CreatedGameAccess
deriving DecidableEq

structure StoredGame where
  gameId : GameId
  createdAt : UnixMillis
  updatedAt : UnixMillis
  snapshot : GameSnapshot
  turnDeadline : Option TurnDeadline
deriving DecidableEq

structure InvalidAttemptState where
  turn : UInt64
  seat : Seat
  policyVersion : UInt32
  count : UInt32
deriving DecidableEq

/-- One atomic write: an outcome with whatever game transition belongs to it. -/
structure ActionCommit where
  expectedVersion : UInt64
  successor : Option StoredGame
  idempotency : IdempotencyRecord
  invalidAttempt : Option InvalidAttemptState
  replay : Option ReplayBundle
deriving DecidableEq

structure RecoveryRecord where
  gameId : GameId
  createdAt : UnixMillis
  updatedAt : UnixMillis
  phase : GamePhase
  replay : ReplayBundle
deriving DecidableEq

def idempotencyDigestVersion : UInt32 := 1

/-! Payload digests. -/

def Seat.json : Seat → String
  | .one => Json.text "one"
  | .two => Json.text "two"
  | .three => Json.text "three"
  | .four => Json.text "four"

def Language.json : Language → String
  | .english => Json.text "english"
  | .french => Json.text "french"
  | .german => Json.text "german"
  | .spanish => Json.text "spanish"

def GameMode.json : GameMode → String
  | .competitive => Json.text "competitive"
  | .practice => Json.text "practice"

def Placement.json (p : Placement) : String :=
  Json.object [("tile_id", Json.number p.tileId.raw.toNat),
    ("coordinate", Json.object [("row", Json.number p.coordinate.row.toNat),
      ("column", Json.number p.coordinate.column.toNat)]),
    ("tile", Json.object [("letter", Json.text p.tile.letter),
      ("is_blank", Json.boolean p.tile.isBlank)])]

def Move.json : Move → String
  | .place placements => Json.object [("type", Json.text "place"),
      ("placements", Json.array (placements.map Placement.json))]
  | .exchange tileIds => Json.object [("type", Json.text "exchange"),
      ("tile_ids", Json.array (tileIds.map fun id => Json.number id.raw.toNat))]
  | .pass => Json.object [("type", Json.text "pass")]
  | .resign => Json.object [("type", Json.text "resign")]

structure ActionPayload where
  gameId : GameId
  expectedVersion : UInt64
  turn : Turn
  action : Move
deriving DecidableEq

structure CreatePayload where
  language : Language
  mode : GameMode
  playerCount : UInt8
deriving DecidableEq

structure TimeoutPayload where
  gameId : GameId
  expectedVersion : UInt64
  policyVersion : UInt32
deriving DecidableEq

def ActionPayload.json (p : ActionPayload) : String :=
  Json.object [("game_id", Json.text p.gameId.asStr),
    ("expected_version", Json.number p.expectedVersion.toNat),
    ("turn", Json.object [("number", Json.number p.turn.number.toNat), ("seat", Seat.json p.turn.seat)]),
    ("action", Move.json p.action)]

def CreatePayload.json (p : CreatePayload) : String :=
  Json.object [("language", Language.json p.language), ("mode", GameMode.json p.mode),
    ("player_count", Json.number p.playerCount.toNat)]

def TimeoutPayload.json (p : TimeoutPayload) : String :=
  Json.object [("game_id", Json.text p.gameId.asStr),
    ("expected_version", Json.number p.expectedVersion.toNat),
    ("policy_version", Json.number p.policyVersion.toNat)]

def payloadSha256 (platform : Platform) (json : String) : String :=
  Bytes.hexLower (platform.sha256 (Bytes.utf8 json)).toList

def digestKey (platform : Platform) (key : IdempotencyKey) : Digest :=
  platform.sha256 (Bytes.utf8 key.asStr)

def CreateGameCommand.payload (command : CreateGameCommand) : CreatePayload :=
  ⟨command.language, command.mode, command.playerCount⟩

def GameActionCommand.payload (command : GameActionCommand) : ActionPayload :=
  ⟨command.gameId, command.expectedVersion, command.turn, command.action⟩

/-- What a process is assembled from: the platform, message quotation, the
installed dictionaries and the policy. -/
structure Installation where
  platform : Platform
  quote : Quotation
  lexicons : PackIdentity → Option WordValidator
  policy : OperationalPolicy

end WordArena.Service
