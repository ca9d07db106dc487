import WordArena.Engine.Random

/-! Authoritative and public data of one game: the board, the events, the
durable artifacts and the game itself. A game keeps the validator it was
created with; every other field is plain data. -/
namespace WordArena.Engine

open WordArena.Lexicon

def boardSize : UInt8 := 15

def boardSquares : Nat := 225

def center : Coordinate := ⟨7, 7⟩

def snapshotSchemaVersion : UInt32 := 3

def replaySchemaVersion : UInt32 := 3

def publicReplaySchemaVersion : UInt32 := 1

/-- Letter assignment supplied by a player. -/
structure Tile where
  letter : String
  isBlank : Bool
deriving DecidableEq, Repr

structure Placement where
  tileId : TileId
  coordinate : Coordinate
  tile : Tile
deriving DecidableEq, Repr

inductive Move where
  | place (placements : List Placement)
  | exchange (tileIds : List TileId)
  | pass
  | resign
deriving DecidableEq, Repr

/-- Immutable tile on the public board. -/
structure BoardTile where
  tileId : TileId
  letter : String
  isBlank : Bool
deriving DecidableEq, Repr

inductive GameMode where
  | competitive
  | practice
deriving DecidableEq, Repr

inductive GamePhase where
  | active
  | finished
deriving DecidableEq, Repr

inductive TerminalReason where
  | resignation (resigned : Seat)
  | scorelessTurns
  | rackEmptied (outgoing : Seat)
deriving DecidableEq, Repr

structure FormedWord where
  text : String
  normalized : String
  coordinates : List Coordinate
  letterScore : UInt32
  wordMultiplier : UInt32
  score : UInt32
deriving DecidableEq, Repr

structure GameResult where
  gameId : String
  rulesetId : RulesetId
  lexicon : PackIdentity
  scores : List Score
  winner : Option Player
  finalVersion : UInt64
  reason : TerminalReason
deriving DecidableEq, Repr

/-- Public state without rack contents or future bag order. -/
structure PublicGameState where
  gameId : String
  rulesetId : RulesetId
  ruleset : RulesetIdentity
  lexicon : PackIdentity
  mode : GameMode
  rngAlgorithm : RngAlgorithm
  seedCommitment : SeedCommitment
  board : List (Option BoardTile)
  scores : List Score
  currentPlayer : Player
  version : UInt64
  scorelessTurns : UInt8
  rackCounts : List UInt8
  bagCount : UInt16
  phase : GamePhase
  result : Option GameResult
deriving DecidableEq, Repr

def PublicGameState.tileAt (state : PublicGameState) (c : Coordinate) : Option BoardTile :=
  if c.inBounds boardSize boardSize then (state.board[c.index boardSize]?).join else none

inductive GameEventKind where
  | created (gameId : String) (ruleset : Ruleset) (mode : GameMode) (rngAlgorithm : RngAlgorithm)
      (seedCommitment : SeedCommitment) (rackCounts : List UInt8) (bagCount : UInt16)
  | movePlayed (player : Player) (placements : List Placement) (words : List FormedWord)
      (bingoBonus score : UInt32) (drawCount : UInt8) (rackCountsAfter : List UInt8)
      (bagCountAfter : UInt16) (scoresAfter : List Score) (scorelessTurnsAfter : UInt8)
      (nextPlayer : Player) (result : Option GameResult)
  | passed (player : Player) (scorelessTurnsAfter : UInt8) (nextPlayer : Player)
      (result : Option GameResult)
  | exchanged (player : Player) (tileIds : List TileId) (rackCountsAfter : List UInt8)
      (bagCountAfter : UInt16) (scorelessTurnsAfter : UInt8) (nextPlayer : Player)
      (result : Option GameResult)
  | resigned (player : Player) (result : GameResult)
deriving DecidableEq

def GameEventKind.isCreated : GameEventKind → Bool
  | .created .. => true
  | _ => false

inductive EventVisibility where
  | publicEvent
  | seatPrivate (seat : Seat)
deriving DecidableEq, Repr

structure GameEvent where
  sequence : UInt64
  visibility : EventVisibility
  lexicon : PackIdentity
  kind : GameEventKind
deriving DecidableEq

/-- Seat-private tile transition paired with one public event. -/
structure PrivateGameEvent where
  sequence : UInt64
  visibility : EventVisibility
  seat : Seat
  removed : List PhysicalTile
  drawn : List PhysicalTile
  rackAfter : Rack
deriving DecidableEq

/-- Authoritative checkpoint. It is never a player projection. -/
structure GameSnapshot where
  schemaVersion : UInt32
  ruleset : RulesetIdentity
  rngAlgorithm : RngAlgorithm
  state : PublicGameState
  bag : Bag
  racks : List Rack
  seed : Vector UInt8 32
  events : List GameEvent
  privateEvents : List PrivateGameEvent
deriving DecidableEq

/-- Portable replay input with an explicit seed reveal. -/
structure ReplayBundle where
  schemaVersion : UInt32
  rulesetIdentity : RulesetIdentity
  ruleset : Ruleset
  lexicon : PackIdentity
  rngAlgorithm : RngAlgorithm
  seedReveal : Vector UInt8 32
  events : List GameEvent
  privateEvents : List PrivateGameEvent
deriving DecidableEq

/-- Replay input without the private transitions. -/
structure PublicReplayBundle where
  schemaVersion : UInt32
  rulesetIdentity : RulesetIdentity
  ruleset : Ruleset
  lexicon : PackIdentity
  rngAlgorithm : RngAlgorithm
  seedReveal : Vector UInt8 32
  events : List GameEvent
deriving DecidableEq

def PublicReplayBundle.ofReplayBundle (bundle : ReplayBundle) : PublicReplayBundle where
  schemaVersion := publicReplaySchemaVersion
  rulesetIdentity := bundle.rulesetIdentity
  ruleset := bundle.ruleset
  lexicon := bundle.lexicon
  rngAlgorithm := bundle.rngAlgorithm
  seedReveal := bundle.seedReveal
  events := bundle.events

/-- Exact-membership lookup of one pinned pack. Purity is built in: the answer
depends on the key alone. -/
structure WordValidator where
  identity : PackIdentity
  contains : NormalizedKey → Bool

structure Game where
  ruleset : Ruleset
  lexicon : WordValidator
  seed : GameSeed
  bag : Bag
  racks : List Rack
  state : PublicGameState
  events : List GameEvent
  privateEvents : List PrivateGameEvent

/-- The rack of a seat. Seats beyond the table own nothing. -/
def Game.rack (g : Game) (seat : Seat) : Rack := g.racks.getD seat.index ⟨[]⟩

/-- The normalization profile pinned by the ruleset. -/
def Game.profile (g : Game) : String := g.ruleset.lexicon.normalization.profile

end WordArena.Engine
