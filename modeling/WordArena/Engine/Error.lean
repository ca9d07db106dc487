import WordArena.Lexicon.Key
import WordArena.Engine.Model

/-! Typed failures of the rules, of creation, of resume and of replay. Every
variant keeps the data the engine reports with it. -/
namespace WordArena.Engine

open WordArena.Lexicon

inductive GameError where
  | rulesetUnavailable (language : Language)
  | invalidRuleset (ruleset : RulesetId)
  | invalidRulesetDefinition (ruleset : RulesetId) (reason : String)
  | missingLexicon (ruleset : RulesetId) (required : PackIdentity)
  | incompatibleLexicon (error : CompatibilityError)
  | rulesetMismatch (expected actual : RulesetId)
  | unsupportedSchema (artifact : String) (found expected : UInt32)
  | wrongPlayer (expected actual : Player)
  | staleVersion (expected actual : UInt64)
  | duplicatePlacementTile (tileId : TileId)
  | tileNotOwned (tileId : TileId)
  | tileFaceMismatch (tileId : TileId)
  | emptyExchange
  | exchangeBagTooSmall (required actual : UInt16)
  | emptyPlacement
  | coordinateOutOfBounds (coordinate : Coordinate)
  | duplicateCoordinate (coordinate : Coordinate)
  | occupiedSquare (coordinate : Coordinate)
  | notAligned
  | notContiguous (coordinate : Coordinate)
  | openingMoveMissesCenter
  | disconnectedPlacement
  | noWordFormed
  | normalization (error : NormalizedKeyError)
  | invalidTileToken (token normalized : String)
  | nonCanonicalBoardTile (token canonical : String)
  | invalidWord (word normalized : String)
  | scoreOverflow
  | versionOverflow
  | scorelessTurnOverflow
  | invalidTileState (reason : String)
  | seedCommitmentMismatch
  | gameFinished
  | invalidSnapshotBoard (actual expected : Nat)
  | replayEventMismatch (sequence : UInt64)
  | invalidReplayEvent (sequence : UInt64) (reason : String)
deriving DecidableEq, Repr

/-- Checked arithmetic and tile accounting that no legal game should reach. -/
def GameError.Internal : GameError → Prop
  | .scoreOverflow | .versionOverflow | .scorelessTurnOverflow | .invalidTileState _ => True
  | _ => False

/-- `Debug` form of a ruleset name inside error texts. -/
def RulesetId.debug : RulesetId → String
  | .englishV1 => "EnglishV1"
  | .frenchV1 => "FrenchV1"

/-- `Display` text of the two failures of ruleset validation, the only engine
errors that are ever embedded in another error as text. -/
def GameError.rulesetDisplay : GameError → String
  | .invalidRulesetDefinition ruleset reason =>
      s!"ruleset {ruleset.debug} definition is invalid: {reason}"
  | .invalidRuleset ruleset =>
      s!"ruleset {ruleset.debug} does not match its immutable built-in definition"
  | _ => ""

def TileId.debug (id : TileId) : String := s!"TileId({id.raw})"

def Coordinate.display (c : Coordinate) : String := s!"({c.row}, {c.column})"

end WordArena.Engine
