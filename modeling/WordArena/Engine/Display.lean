import WordArena.Engine.Error

/-! Texts of engine failures as they reach a client. -/
namespace WordArena.Engine

open WordArena.Lexicon

/-- `Debug` forms of texts and characters inside messages. Which characters are
escaped depends on the Unicode tables of the host. -/
structure Quotation where
  text : String → String
  character : Char → String

def Language.debug : Language → String
  | .english => "English"
  | .french => "French"
  | .german => "German"
  | .spanish => "Spanish"

def Seat.debug : Seat → String
  | .one => "One"
  | .two => "Two"
  | .three => "Three"
  | .four => "Four"

def displayPack (pack : PackIdentity) : String :=
  s!"{pack.packId}@{pack.packVersion} [format {pack.formatVersion}, locale {pack.locale}, " ++
    s!"normalization {pack.normalization.algorithm}@{pack.normalization.version}/" ++
    s!"{pack.normalization.profile}, sha256 {pack.contentSha256}]"

def displayContext : CompatibilityContext → String
  | .ruleset => "ruleset"
  | .replay => "replay"
  | .activeGame => "active game"

def displayCompatibility : CompatibilityError → String
  | .exactPackRequired context expected actual =>
      s!"{displayContext context} requires {displayPack expected}, but the available pack is " ++
        s!"{displayPack actual}"
  | .conflictingPackVersion installed candidate =>
      s!"cache already contains {displayPack installed}; refusing different content for the same " ++
        s!"pack ID and version: {displayPack candidate}"

def displayKeyError (quote : Quotation) : NormalizedKeyError → String
  | .empty => "a normalized exact-membership key cannot be empty"
  | .forbiddenCharacter character =>
      s!"exact-membership key contains forbidden character {quote.character character}"
  | .unsupportedProfile profile =>
      s!"normalization profile {quote.text profile} is not implemented"
  | .unsupportedCharacter profile character =>
      s!"character {quote.character character} cannot be normalized by profile {quote.text profile}"

def GameError.display (quote : Quotation) : GameError → String
  | .rulesetUnavailable language =>
      s!"no curated offline V1 ruleset is available for language {language.debug}"
  | .invalidRuleset ruleset =>
      s!"ruleset {ruleset.debug} does not match its immutable built-in definition"
  | .invalidRulesetDefinition ruleset reason =>
      s!"ruleset {ruleset.debug} definition is invalid: {reason}"
  | .missingLexicon ruleset required =>
      s!"ruleset {ruleset.debug} requires lexicon {displayPack required}, but that exact pack is " ++
        s!"unavailable; run `cargo xtask setup`"
  | .incompatibleLexicon error => displayCompatibility error
  | .rulesetMismatch expected actual =>
      s!"persisted game requires ruleset {expected.debug}, but {actual.debug} was supplied"
  | .unsupportedSchema artifact found expected =>
      s!"unsupported {artifact} schema version {found}; expected {expected}"
  | .wrongPlayer expected actual => s!"it is {expected.debug}'s turn, not {actual.debug}'s"
  | .staleVersion expected actual => s!"stale game version {actual}; expected {expected}"
  | .duplicatePlacementTile tileId =>
      s!"placement contains tile ID {tileId.debug} more than once"
  | .tileNotOwned tileId => s!"acting rack does not own tile ID {tileId.debug}"
  | .tileFaceMismatch tileId =>
      s!"submitted assignment for tile ID {tileId.debug} does not match its physical face"
  | .emptyExchange => "an exchange must contain at least one tile"
  | .exchangeBagTooSmall required actual =>
      s!"exchange requires at least {required} bag tiles; found {actual}"
  | .emptyPlacement => "a tile placement must contain at least one tile"
  | .coordinateOutOfBounds coordinate =>
      s!"coordinate {coordinate.display} is outside the 15x15 board"
  | .duplicateCoordinate coordinate =>
      s!"placement contains coordinate {coordinate.display} more than once"
  | .occupiedSquare coordinate => s!"board square {coordinate.display} is already occupied"
  | .notAligned => "all newly placed tiles must share one row or one column"
  | .notContiguous coordinate => s!"placement is not contiguous at {coordinate.display}"
  | .openingMoveMissesCenter => "the opening placement must cover the center square"
  | .disconnectedPlacement => "placement must connect to at least one existing tile"
  | .noWordFormed => "placement must form at least one word of two or more tiles"
  | .normalization error => s!"tile or word normalization failed: {displayKeyError quote error}"
  | .invalidTileToken token normalized =>
      s!"tile token {quote.text token} normalizes to {quote.text normalized}; one physical tile " ++
        s!"must represent exactly one A-Z board letter"
  | .nonCanonicalBoardTile token canonical =>
      s!"persisted board tile {quote.text token} must use canonical token {quote.text canonical}"
  | .invalidWord word normalized =>
      s!"word {quote.text word} normalizes to {quote.text normalized} and is not in the active " ++
        s!"lexicon"
  | .scoreOverflow => "move score exceeds the supported u32 range"
  | .versionOverflow => "game version exceeds the supported u64 range"
  | .scorelessTurnOverflow => "scoreless-turn counter exceeds the supported u8 range"
  | .invalidTileState reason => s!"authoritative tile state violates conservation: {reason}"
  | .seedCommitmentMismatch => "snapshot seed reveal does not match its pre-game commitment"
  | .gameFinished => "the game is already finished"
  | .invalidSnapshotBoard actual expected =>
      s!"snapshot board contains {actual} squares; expected {expected}"
  | .replayEventMismatch sequence =>
      s!"replay event #{sequence} does not match deterministic recomputation"
  | .invalidReplayEvent sequence reason => s!"invalid replay event #{sequence}: {reason}"

end WordArena.Engine
