import WordArena.Engine.Projection
import WordArena.Web.InvalidationSocket

/-! The documents in which the server sends a game. A record becomes an object with its fields
in order, an enumeration its name in the case of the wire, and an absent value `null`. -/
namespace WordArena.Web

open WordArena.Engine (Language RulesetId Coordinate Seat TileId TileFace PhysicalTile Premium
  BoardSquare BoardDefinition TileDefinition GameRules RulesetIdentity RngAlgorithm SeedCommitment
  Score Tile Placement GameMode GamePhase TerminalReason FormedWord GameResult EventVisibility
  PrivateGameEvent Rack Bag Game)
open WordArena.Lexicon

section Values

def encodeNat (n : Nat) : Document := .number (some n)

def encodeInt (n : Int) : Document := .number (some n)

def encodeList {α : Type} (encode : α → Document) (values : List α) : Document :=
  .array (values.map encode)

def encodeOption {α : Type} (encode : α → Document) : Option α → Document
  | some value => encode value
  | none => .null

end Values

/-! Names of enumerations. -/

def languageName : Language → String
  | .english => "english"
  | .french => "french"
  | .german => "german"
  | .spanish => "spanish"

def seatName : Seat → String
  | .one => "one"
  | .two => "two"
  | .three => "three"
  | .four => "four"

def premiumName : Premium → String
  | .normal => "normal"
  | .doubleLetter => "double_letter"
  | .tripleLetter => "triple_letter"
  | .doubleWord => "double_word"
  | .tripleWord => "triple_word"

def modeName : GameMode → String
  | .competitive => "competitive"
  | .practice => "practice"

def phaseName : GamePhase → String
  | .active => "active"
  | .finished => "finished"

def encodeSeat (seat : Seat) : Document := .string (seatName seat)

def encodeRulesetId (id : RulesetId) : Document := .string id.asStr

def encodeRngAlgorithm (algorithm : RngAlgorithm) : Document := .string algorithm.asStr

/-! The rules. -/

def encodeNormalization (descriptor : NormalizationDescriptor) : Document :=
  .object [("algorithm", .string descriptor.algorithm),
    ("version", encodeNat descriptor.version.toNat), ("profile", .string descriptor.profile)]

def encodePackIdentity (pack : PackIdentity) : Document :=
  .object [("pack_id", .string pack.packId), ("pack_version", .string pack.packVersion),
    ("format_version", encodeNat pack.formatVersion.toNat), ("locale", .string pack.locale),
    ("normalization", encodeNormalization pack.normalization),
    ("content_sha256", .string pack.contentSha256)]

def encodeCoordinate (c : Coordinate) : Document :=
  .object [("row", encodeNat c.row.toNat), ("column", encodeNat c.column.toNat)]

def encodeSquare (square : BoardSquare) : Document :=
  .object [("coordinate", encodeCoordinate square.coordinate),
    ("premium", .string (premiumName square.premium))]

def encodeBoard (board : BoardDefinition) : Document :=
  .object [("width", encodeNat board.width.toNat), ("height", encodeNat board.height.toNat),
    ("squares", encodeList encodeSquare board.squares)]

def encodeFace : TileFace → Document
  | .letter token => .object [("kind", .string "letter"), ("token", .string token.asStr)]
  | .blank => .object [("kind", .string "blank")]

def encodeTileDefinition (definition : TileDefinition) : Document :=
  .object [("face", encodeFace definition.face), ("count", encodeNat definition.count.toNat),
    ("value", encodeNat definition.value.toNat)]

def encodeGameRules (game : GameRules) : Document :=
  .object [("board", encodeBoard game.board), ("rack_capacity", encodeNat game.rackCapacity.toNat),
    ("bingo_bonus", encodeNat game.bingoBonus.toNat),
    ("exchange_minimum", encodeNat game.exchangeMinimum.toNat),
    ("scoreless_turn_limit", encodeNat game.scorelessTurnLimit.toNat),
    ("tiles", encodeList encodeTileDefinition game.tiles)]

def rulesetFields (ruleset : Engine.Ruleset) : List (String × Document) :=
  [("schema_version", encodeNat ruleset.schemaVersion.toNat), ("id", encodeRulesetId ruleset.id),
    ("language", .string (languageName ruleset.language)),
    ("lexicon", encodePackIdentity ruleset.lexicon), ("game", encodeGameRules ruleset.game)]

def encodeRuleset (ruleset : Engine.Ruleset) : Document := .object (rulesetFields ruleset)

def identityFields (identity : RulesetIdentity) : List (String × Document) :=
  [("schema_version", encodeNat identity.schemaVersion.toNat),
    ("ruleset_id", encodeRulesetId identity.rulesetId),
    ("content_sha256", .string identity.contentSha256)]

def encodeRulesetIdentity (identity : RulesetIdentity) : Document := .object (identityFields identity)

def encodeSeedCommitment (commitment : SeedCommitment) : Document :=
  .object [("algorithm", encodeRngAlgorithm commitment.algorithm),
    ("sha256", .string commitment.sha256)]

/-! Tiles, moves and results. -/

def encodeTileId (id : TileId) : Document := encodeNat id.raw.toNat

def encodePhysicalTile (tile : PhysicalTile) : Document :=
  .object [("id", encodeTileId tile.id), ("face", encodeFace tile.face)]

def encodeRack (rack : Rack) : Document := encodeList encodePhysicalTile rack.tiles

def encodeBag (bag : Bag) : Document := encodeList encodePhysicalTile bag.tiles

def encodeTile (tile : Tile) : Document :=
  .object [("letter", .string tile.letter), ("is_blank", .boolean tile.isBlank)]

def encodePlacement (p : Placement) : Document :=
  .object [("tile_id", encodeTileId p.tileId), ("coordinate", encodeCoordinate p.coordinate),
    ("tile", encodeTile p.tile)]

def encodeBoardTile (tile : Engine.BoardTile) : Document :=
  .object [("tile_id", encodeTileId tile.tileId), ("letter", .string tile.letter),
    ("is_blank", .boolean tile.isBlank)]

def encodeWord (word : FormedWord) : Document :=
  .object [("text", .string word.text), ("normalized", .string word.normalized),
    ("coordinates", encodeList encodeCoordinate word.coordinates),
    ("letter_score", encodeNat word.letterScore.toNat),
    ("word_multiplier", encodeNat word.wordMultiplier.toNat), ("score", encodeNat word.score.toNat)]

def encodeScore (score : Score) : Document := encodeInt score.value.toInt

def encodeReason : TerminalReason → Document
  | .resignation resigned =>
      .object [("type", .string "resignation"), ("resigned", encodeSeat resigned)]
  | .scorelessTurns => .object [("type", .string "scoreless_turns")]
  | .rackEmptied outgoing =>
      .object [("type", .string "rack_emptied"), ("outgoing", encodeSeat outgoing)]

def encodeResult (result : GameResult) : Document :=
  .object [("game_id", .string result.gameId), ("ruleset_id", encodeRulesetId result.rulesetId),
    ("lexicon", encodePackIdentity result.lexicon), ("scores", encodeList encodeScore result.scores),
    ("winner", encodeOption encodeSeat result.winner),
    ("final_version", encodeNat result.finalVersion.toNat), ("reason", encodeReason result.reason)]

def encodeRackCounts (counts : List UInt8) : Document :=
  encodeList (fun count => encodeNat count.toNat) counts

/-! Events. -/

def kindFields : Engine.GameEventKind → List (String × Document)
  | .created gameId ruleset mode rngAlgorithm seedCommitment rackCounts bagCount =>
      [("type", .string "created"), ("game_id", .string gameId), ("ruleset", encodeRuleset ruleset),
        ("mode", .string (modeName mode)), ("rng_algorithm", encodeRngAlgorithm rngAlgorithm),
        ("seed_commitment", encodeSeedCommitment seedCommitment),
        ("rack_counts", encodeRackCounts rackCounts), ("bag_count", encodeNat bagCount.toNat)]
  | .movePlayed player placements words bingoBonus score drawCount rackCountsAfter bagCountAfter
      scoresAfter scorelessTurnsAfter nextPlayer result =>
      [("type", .string "move_played"), ("player", encodeSeat player),
        ("placements", encodeList encodePlacement placements), ("words", encodeList encodeWord words),
        ("bingo_bonus", encodeNat bingoBonus.toNat), ("score", encodeNat score.toNat),
        ("draw_count", encodeNat drawCount.toNat),
        ("rack_counts_after", encodeRackCounts rackCountsAfter),
        ("bag_count_after", encodeNat bagCountAfter.toNat),
        ("scores_after", encodeList encodeScore scoresAfter),
        ("scoreless_turns_after", encodeNat scorelessTurnsAfter.toNat),
        ("next_player", encodeSeat nextPlayer), ("result", encodeOption encodeResult result)]
  | .passed player scorelessTurnsAfter nextPlayer result =>
      [("type", .string "passed"), ("player", encodeSeat player),
        ("scoreless_turns_after", encodeNat scorelessTurnsAfter.toNat),
        ("next_player", encodeSeat nextPlayer), ("result", encodeOption encodeResult result)]
  | .exchanged player tileIds rackCountsAfter bagCountAfter scorelessTurnsAfter nextPlayer result =>
      [("type", .string "exchanged"), ("player", encodeSeat player),
        ("tile_ids", encodeList encodeTileId tileIds),
        ("rack_counts_after", encodeRackCounts rackCountsAfter),
        ("bag_count_after", encodeNat bagCountAfter.toNat),
        ("scoreless_turns_after", encodeNat scorelessTurnsAfter.toNat),
        ("next_player", encodeSeat nextPlayer), ("result", encodeOption encodeResult result)]
  | .resigned player result =>
      [("type", .string "resigned"), ("player", encodeSeat player), ("result", encodeResult result)]

def encodeVisibility : EventVisibility → Document
  | .publicEvent => .object [("scope", .string "public")]
  | .seatPrivate seat => .object [("scope", .string "seat_private"), ("seat", encodeSeat seat)]

def eventFields (event : Engine.GameEvent) : List (String × Document) :=
  [("sequence", encodeNat event.sequence.toNat), ("visibility", encodeVisibility event.visibility),
    ("lexicon", encodePackIdentity event.lexicon), ("kind", .object (kindFields event.kind))]

def encodeEvent (event : Engine.GameEvent) : Document := .object (eventFields event)

def privateEventFields (event : PrivateGameEvent) : List (String × Document) :=
  [("sequence", encodeNat event.sequence.toNat), ("visibility", encodeVisibility event.visibility),
    ("seat", encodeSeat event.seat), ("removed", encodeList encodePhysicalTile event.removed),
    ("drawn", encodeList encodePhysicalTile event.drawn), ("rack_after", encodeRack event.rackAfter)]

def encodePrivateEvent (event : PrivateGameEvent) : Document := .object (privateEventFields event)

/-! Projections. -/

def encodeState (state : Engine.PublicGameState) : Document :=
  .object [("game_id", .string state.gameId), ("ruleset_id", encodeRulesetId state.rulesetId),
    ("ruleset", encodeRulesetIdentity state.ruleset), ("lexicon", encodePackIdentity state.lexicon),
    ("mode", .string (modeName state.mode)),
    ("rng_algorithm", encodeRngAlgorithm state.rngAlgorithm),
    ("seed_commitment", encodeSeedCommitment state.seedCommitment),
    ("board", encodeList (encodeOption encodeBoardTile) state.board),
    ("scores", encodeList encodeScore state.scores),
    ("current_player", encodeSeat state.currentPlayer), ("version", encodeNat state.version.toNat),
    ("scoreless_turns", encodeNat state.scorelessTurns.toNat),
    ("rack_counts", encodeRackCounts state.rackCounts),
    ("bag_count", encodeNat state.bagCount.toNat), ("phase", .string (phaseName state.phase)),
    ("result", encodeOption encodeResult state.result)]

def encodePublicProjection (projection : Engine.PublicProjection) : Document :=
  .object [("schema_version", encodeNat projection.schemaVersion.toNat),
    ("state", encodeState projection.state), ("events", encodeList encodeEvent projection.events)]

def encodeSeatProjection (projection : Engine.SeatProjection) : Document :=
  .object [("schema_version", encodeNat projection.schemaVersion.toNat),
    ("seat", encodeSeat projection.seat),
    ("public", encodePublicProjection projection.publicView), ("rack", encodeRack projection.rack),
    ("private_events", encodeList encodePrivateEvent projection.privateEvents)]

def encodeSpectatorProjection (projection : Engine.HumanSpectatorProjection) : Document :=
  .object [("schema_version", encodeNat projection.schemaVersion.toNat),
    ("public", encodePublicProjection projection.publicView),
    ("racks", encodeList encodeRack projection.racks),
    ("private_events", encodeList encodePrivateEvent projection.privateEvents)]

def encodeSeed (seed : Vector UInt8 32) : Document :=
  encodeList (fun byte => encodeNat byte.toNat) seed.toList

def encodeSnapshot (snapshot : Engine.GameSnapshot) : Document :=
  .object [("schema_version", encodeNat snapshot.schemaVersion.toNat),
    ("ruleset", encodeRulesetIdentity snapshot.ruleset),
    ("rng_algorithm", encodeRngAlgorithm snapshot.rngAlgorithm), ("state", encodeState snapshot.state),
    ("bag", encodeBag snapshot.bag), ("racks", encodeList encodeRack snapshot.racks),
    ("seed", encodeSeed snapshot.seed), ("events", encodeList encodeEvent snapshot.events),
    ("private_events", encodeList encodePrivateEvent snapshot.privateEvents)]

def encodeAdministratorProjection (projection : Engine.AdministratorProjection) : Document :=
  .object [("schema_version", encodeNat projection.schemaVersion.toNat),
    ("snapshot", encodeSnapshot projection.snapshot)]

def encodePublicReplay (bundle : Engine.PublicReplayBundle) : Document :=
  .object [("schema_version", encodeNat bundle.schemaVersion.toNat),
    ("ruleset_identity", encodeRulesetIdentity bundle.rulesetIdentity),
    ("ruleset", encodeRuleset bundle.ruleset), ("lexicon", encodePackIdentity bundle.lexicon),
    ("rng_algorithm", encodeRngAlgorithm bundle.rngAlgorithm),
    ("seed_reveal", encodeSeed bundle.seedReveal), ("events", encodeList encodeEvent bundle.events)]

def encodeReplay (bundle : Engine.ReplayBundle) : Document :=
  .object [("schema_version", encodeNat bundle.schemaVersion.toNat),
    ("ruleset_identity", encodeRulesetIdentity bundle.rulesetIdentity),
    ("ruleset", encodeRuleset bundle.ruleset), ("lexicon", encodePackIdentity bundle.lexicon),
    ("rng_algorithm", encodeRngAlgorithm bundle.rngAlgorithm),
    ("seed_reveal", encodeSeed bundle.seedReveal), ("events", encodeList encodeEvent bundle.events),
    ("private_events", encodeList encodePrivateEvent bundle.privateEvents)]

/-! Responses. -/

structure TurnDeadline where
  turn : UInt64
  seat : Seat
  deadlineAt : Int64
  policyVersion : UInt32
deriving DecidableEq, Repr

def encodeDeadline (deadline : TurnDeadline) : Document :=
  .object [("turn", encodeNat deadline.turn.toNat), ("seat", encodeSeat deadline.seat),
    ("deadline_at", encodeInt deadline.deadlineAt.toInt),
    ("policy_version", encodeNat deadline.policyVersion.toNat)]

/-- The query results of all roles have these three fields. -/
def encodeGameView (observedAt : Int64) (deadline : Option TurnDeadline) (game : Document) :
    Document :=
  .object [("observed_at", encodeInt observedAt.toInt),
    ("turn_deadline", encodeOption encodeDeadline deadline), ("game", game)]

def encodeReplayView (observedAt : Int64) (bundle : Engine.ReplayBundle) : Document :=
  .object [("observed_at", encodeInt observedAt.toInt), ("replay", encodeReplay bundle)]

def encodeEnvelope (data : Document) : Document :=
  .object [("schema_version", encodeInt apiSchemaVersion), ("data", data)]

end WordArena.Web
