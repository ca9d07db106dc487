import WordArena.Web.Wire

/-! What the browser client makes of the documents of a server. A decoder answers nothing where
the source throws. Numbers and events stay as they were sent. -/
namespace WordArena.Web

open WordArena.Engine (Language RulesetId Coordinate Seat Premium GameMode GamePhase
  isPhysicalToken)

def projectionSchemaVersion : Int := 1

def replaySchemaVersion : Int := 3

/-! Checks of one value. -/

section Values

variable {α : Type}

def boolean : Option Document → Option Bool
  | some (.boolean value) => some value
  | _ => none

def array : Option Document → Option (List Document)
  | some (.array values) => some values
  | _ => none

/-- The rest of a decoder is reached only where the condition holds. -/
def require (holds : Bool) : Option Unit := if holds then some () else none

/-- The value that one of the allowed texts stands for. -/
def literal (allowed : List (String × α)) : Option Document → Option α
  | some (.string text) => (allowed.find? fun entry => entry.1 == text).map (·.2)
  | _ => none

def playerValues (value : Option Document) : Option (List Int) := do
  let values ← array value
  require (2 ≤ values.length && values.length ≤ 4)
  values.mapM fun item => integer (some item)

end Values

def seat : Option Document → Option Seat :=
  literal [("one", .one), ("two", .two), ("three", .three), ("four", .four)]

def rulesetId : Option Document → Option RulesetId :=
  literal [("english-v1", .englishV1), ("french-v1", .frenchV1)]

/-! Tiles. -/

structure BoardTile where
  tileId : Int
  letter : String
  isBlank : Bool
deriving DecidableEq, Repr

inductive TileFace where
  | blank
  | letter (token : String)
deriving DecidableEq, Repr

structure PhysicalTile where
  id : Int
  face : TileFace
deriving DecidableEq, Repr

def boardTile (value : Document) : Option BoardTile := do
  let item ← record value
  let letter ← string (field item "letter")
  require (isPhysicalToken letter)
  let tileId ← integer (field item "tile_id")
  let isBlank ← boolean (field item "is_blank")
  return ⟨tileId, letter, isBlank⟩

/-- The token of a face is read only where its kind is a letter. -/
def faceToken (face : List (String × Document)) : Bool → Option TileFace
  | true => some .blank
  | false => do
      let token ← string (field face "token")
      require (isPhysicalToken token)
      return .letter token

def physicalTile (value : Document) : Option PhysicalTile := do
  let item ← record value
  let face ← (field item "face").bind record
  let blank ← literal [("blank", true), ("letter", false)] (field face "kind")
  let decoded ← faceToken face blank
  let id ← integer (field item "id")
  return ⟨id, decoded⟩

def coordinate (value : Option Document) : Option (Int × Int) := do
  let item ← value.bind record
  let row ← integer (field item "row")
  let column ← integer (field item "column")
  return (row, column)

/-! The rules. -/

structure LexiconIdentity where
  packId : String
  packVersion : String
  formatVersion : Int
  locale : String
  normalization : List (String × Document)
  contentSha256 : String

structure Square where
  coordinate : Int × Int
  premium : Premium
deriving DecidableEq, Repr

structure TileDefinition where
  face : TileFace
  count : Int
  value : Int
deriving DecidableEq, Repr

structure Ruleset where
  schemaVersion : Int
  id : RulesetId
  language : Language
  lexicon : LexiconIdentity
  width : Int
  height : Int
  squares : List Square
  rackCapacity : Int
  bingoBonus : Int
  exchangeMinimum : Int
  scorelessTurnLimit : Int
  tiles : List TileDefinition

def lexiconIdentity (value : Option Document) : Option LexiconIdentity := do
  let lexicon ← value.bind record
  let packId ← string (field lexicon "pack_id")
  let packVersion ← string (field lexicon "pack_version")
  let formatVersion ← integer (field lexicon "format_version")
  let locale ← string (field lexicon "locale")
  let normalization ← (field lexicon "normalization").bind record
  let contentSha256 ← string (field lexicon "content_sha256")
  return ⟨packId, packVersion, formatVersion, locale, normalization, contentSha256⟩

def square (value : Document) : Option Square := do
  let item ← record value
  let place ← coordinate (field item "coordinate")
  let premium ← literal [("normal", .normal), ("double_letter", .doubleLetter),
    ("triple_letter", .tripleLetter), ("double_word", .doubleWord), ("triple_word", .tripleWord)]
    (field item "premium")
  return ⟨place, premium⟩

/-- The face is checked as that of a tile with this number. -/
def tileDefinition (entry : Document × Nat) : Option TileDefinition := do
  let definition ← record entry.1
  let face := ((field definition "face").map fun face => ("face", face)).toList
  let decoded ← physicalTile (.object (("id", encodeNat entry.2) :: face))
  let count ← integer (field definition "count")
  let value ← integer (field definition "value")
  return ⟨decoded.face, count, value⟩

def rulesetData (value : Option Document) : Option Ruleset := do
  let rules ← value.bind record
  let game ← (field rules "game").bind record
  let board ← (field game "board").bind record
  let width ← integer (field board "width")
  let height ← integer (field board "height")
  let squares ← (← array (field board "squares")).mapM square
  require (width == 15 && height == 15 && squares.length == 225)
  let tiles ← (← array (field game "tiles")).zipIdx.mapM tileDefinition
  let schemaVersion ← integer (field rules "schema_version")
  let id ← rulesetId (field rules "id")
  let language ← literal [("english", Language.english), ("french", .french)] (field rules "language")
  let lexicon ← lexiconIdentity (field rules "lexicon")
  let rackCapacity ← integer (field game "rack_capacity")
  let bingoBonus ← integer (field game "bingo_bonus")
  let exchangeMinimum ← integer (field game "exchange_minimum")
  let scorelessTurnLimit ← integer (field game "scoreless_turn_limit")
  return { schemaVersion, id, language, lexicon, width, height, squares, rackCapacity, bingoBonus,
           exchangeMinimum, scorelessTurnLimit, tiles }

/-! Projections. -/

structure GameEvent where
  sequence : Int
  kind : List (String × Document)

structure PublicGameState where
  gameId : String
  rulesetId : RulesetId
  mode : GameMode
  board : List (Option BoardTile)
  scores : List Int
  currentPlayer : Seat
  version : Int
  scorelessTurns : Int
  rackCounts : List Int
  bagCount : Int
  phase : GamePhase
deriving DecidableEq, Repr

structure PublicProjection where
  schemaVersion : Int
  state : PublicGameState
  events : List GameEvent

def gameEvent (value : Document) : Option GameEvent := do
  let event ← record value
  let kind ← (field event "kind").bind record
  let _ ← string (field kind "type")
  let sequence ← integer (field event "sequence")
  return ⟨sequence, kind⟩

def gameMode : Option Document → Option GameMode :=
  literal [("competitive", .competitive), ("practice", .practice)]

/-- A state that names no mode is competitive. -/
def stateMode : Option Document → Option GameMode
  | none => some .competitive
  | some .null => some .competitive
  | value => gameMode value

def boardSquare : Document → Option (Option BoardTile)
  | .null => some none
  | tile => (boardTile tile).map some

def publicState (value : Option Document) : Option PublicGameState := do
  let state ← value.bind record
  let board ← array (field state "board")
  require (board.length == 225)
  let gameId ← string (field state "game_id")
  let id ← rulesetId (field state "ruleset_id")
  let mode ← stateMode (field state "mode")
  let squares ← board.mapM boardSquare
  let scores ← playerValues (field state "scores")
  let currentPlayer ← seat (field state "current_player")
  let version ← integer (field state "version")
  let scorelessTurns ← integer (field state "scoreless_turns")
  let rackCounts ← playerValues (field state "rack_counts")
  let bagCount ← integer (field state "bag_count")
  let phase ← literal [("active", GamePhase.active), ("finished", .finished)] (field state "phase")
  return ⟨gameId, id, mode, squares, scores, currentPlayer, version, scorelessTurns, rackCounts,
    bagCount, phase⟩

def publicProjection (value : Option Document) : Option PublicProjection := do
  let projection ← value.bind record
  let schemaVersion ← integer (field projection "schema_version")
  require (schemaVersion == projectionSchemaVersion)
  let state ← publicState (field projection "state")
  let events ← (← array (field projection "events")).mapM gameEvent
  return ⟨schemaVersion, state, events⟩

/-! Authority. -/

inductive GameAuthority where
  | publicView
  | seat
  | spectator
deriving DecidableEq, Repr

mutual

/-- The names that a walk through a document meets. A field that a later one of its name
replaces is not there. -/
def Document.keys : Document → List String
  | .array values => elementKeys values
  | .object fields => fieldKeys fields
  | _ => []

def elementKeys : List Document → List String
  | [] => []
  | value :: values => value.keys ++ elementKeys values

def fieldKeys : List (String × Document) → List String
  | [] => []
  | (name, value) :: fields =>
      if fields.any fun entry => entry.1 == name then fieldKeys fields
      else name :: value.keys ++ fieldKeys fields

end

def Document.exposes (value : Document) (forbidden : List String) : Bool :=
  value.keys.any fun name => forbidden.contains name

def GameAuthority.forbidden : GameAuthority → List String
  | .publicView => ["rack", "racks", "private_events", "bag", "seed", "snapshot"]
  | .seat => ["racks", "bag", "seed", "snapshot"]
  | .spectator => ["bag", "seed", "snapshot"]

def assertPrivacy (value : Document) (authority : GameAuthority) : Option Unit :=
  require (!value.exposes authority.forbidden)

structure Deadline where
  turn : Int
  seat : Seat
  deadlineAt : Int
  policyVersion : Int
deriving DecidableEq, Repr

structure GameView where
  authority : GameAuthority
  observedAt : Int
  turnDeadline : Option Deadline
  publicView : PublicProjection
  seat : Option Seat
  rack : Option (List PhysicalTile)
  racks : Option (List (List PhysicalTile))

def turnDeadline : Option Document → Option (Option Deadline)
  | none => some none
  | some .null => some none
  | some value => do
      let deadline ← record value
      let turn ← integer (field deadline "turn")
      let owner ← seat (field deadline "seat")
      let deadlineAt ← integer (field deadline "deadline_at")
      let policyVersion ← integer (field deadline "policy_version")
      return some ⟨turn, owner, deadlineAt, policyVersion⟩

def rackTiles (value : Option Document) : Option (List PhysicalTile) :=
  (array value).bind fun tiles => tiles.mapM physicalTile

def openEnvelope (value : Document) : Option (Option Document) := do
  let envelope ← record value
  let schemaVersion ← integer (field envelope "schema_version")
  require (schemaVersion == apiSchemaVersion)
  return field envelope "data"

def decodeGame (authority : GameAuthority) (observedAt : Int) (deadline : Option Deadline)
    (game : List (String × Document)) : Option GameView :=
  match authority with
  | .publicView => do
      let state ← publicProjection (some (.object game))
      return ⟨authority, observedAt, deadline, state, none, none, none⟩
  | .seat => do
      let state ← publicProjection (field game "public")
      let owner ← seat (field game "seat")
      let rack ← rackTiles (field game "rack")
      return ⟨authority, observedAt, deadline, state, some owner, some rack, none⟩
  | .spectator => do
      let racks ← array (field game "racks")
      require (2 ≤ racks.length && racks.length ≤ 4)
      let state ← publicProjection (field game "public")
      let tiles ← racks.mapM fun rack => rackTiles (some rack)
      return ⟨authority, observedAt, deadline, state, none, none, some tiles⟩

def decodeGameView (value : Document) (authority : GameAuthority) : Option GameView := do
  assertPrivacy value authority
  let view ← (← openEnvelope value).bind record
  let observedAt ← integer (field view "observed_at")
  let deadline ← turnDeadline (field view "turn_deadline")
  let game ← (field view "game").bind record
  decodeGame authority observedAt deadline game

/-! Replays. -/

structure ReplayBundle where
  schemaVersion : Int
  observedAt : Int
  identityVersion : Int
  rulesetId : RulesetId
  contentSha256 : String
  ruleset : Ruleset
  rulesetWire : List (String × Document)
  lexicon : LexiconIdentity
  rngAlgorithm : String
  seedReveal : List Int
  events : List GameEvent
  eventsWire : List (List (String × Document))
  privateEvents : List (List (String × Document))

def seedByte (value : Document) : Option Int := do
  let byte ← integer (some value)
  require (0 ≤ byte && byte ≤ 255)
  return byte

def decodeReplayBundle (value : Document) : Option ReplayBundle := do
  let data ← (← openEnvelope value).bind record
  let replay ← (field data "replay").bind record
  let schemaVersion ← integer (field replay "schema_version")
  require (schemaVersion == replaySchemaVersion)
  let identity ← (field replay "ruleset_identity").bind record
  let lexicon ← lexiconIdentity (field replay "lexicon")
  let seedReveal ← (← array (field replay "seed_reveal")).mapM seedByte
  require (seedReveal.length == 32)
  let events ← (← array (field replay "events")).mapM gameEvent
  let eventsWire ← (← array (field replay "events")).mapM record
  require (events.zipIdx.all fun entry => entry.1.sequence == entry.2)
  let observedAt ← integer (field data "observed_at")
  let identityVersion ← integer (field identity "schema_version")
  let id ← rulesetId (field identity "ruleset_id")
  let contentSha256 ← string (field identity "content_sha256")
  let ruleset ← rulesetData (field replay "ruleset")
  let rulesetWire ← (field replay "ruleset").bind record
  let rngAlgorithm ← literal [("xoshiro256-star-star-v1", "xoshiro256-star-star-v1")]
    (field replay "rng_algorithm")
  let privateEvents ← (← array (field replay "private_events")).mapM record
  return { schemaVersion, observedAt, identityVersion, rulesetId := id, contentSha256, ruleset,
           rulesetWire, lexicon, rngAlgorithm, seedReveal, events, eventsWire, privateEvents }

end WordArena.Web
