import WordArena.Library.Bytes
import WordArena.Engine.Error

/-! Versioned rules: the physical distribution, the scoring limits, their
structural validation and their content identity. A ruleset is playable only
when it equals one of the two committed fixtures. -/
namespace WordArena.Engine

open Fallible WordArena.Lexicon

/-- Functions supplied from outside the engine: the Unicode character tables
and the SHA-256 digest. The digest is an arbitrary fixed function. -/
structure Platform where
  tables : CharacterTables
  sha256 : List UInt8 → Vector UInt8 32

def rulesetSchemaVersion : UInt32 := 2

structure TileDefinition where
  face : TileFace
  count : UInt16
  value : UInt16
deriving DecidableEq

structure GameRules where
  board : BoardDefinition
  rackCapacity : UInt8
  bingoBonus : UInt16
  exchangeMinimum : UInt16
  scorelessTurnLimit : UInt8
  tiles : List TileDefinition
deriving DecidableEq

/-- The `u32` total of the source. Its validated sum fits `u16`. -/
def GameRules.totalTiles (game : GameRules) : Nat := (game.tiles.map (·.count.toNat)).sum

def GameRules.letter (game : GameRules) (token : String) : Option TileDefinition :=
  game.tiles.find? fun definition =>
    match definition.face with
    | .letter letter => letter.asStr == token
    | .blank => false

structure RulesetIdentity where
  schemaVersion : UInt32
  rulesetId : RulesetId
  contentSha256 : String
deriving DecidableEq, Repr

structure Ruleset where
  schemaVersion : UInt32
  id : RulesetId
  language : Language
  lexicon : PackIdentity
  game : GameRules
deriving DecidableEq

/-! Structural validation. -/

inductive RulesetDefinitionError where
  | schema (found expected : UInt32)
  | board (reason : String)
  | premiumAsymmetry (coordinate : Coordinate)
  | limit (reason : String)
  | tiles (reason : String)
deriving DecidableEq, Repr

def RulesetDefinitionError.display : RulesetDefinitionError → String
  | .schema found expected =>
      s!"ruleset schema {found} is unsupported; expected {expected}"
  | .board reason => s!"invalid board definition: {reason}"
  | .premiumAsymmetry coordinate =>
      s!"premium at {coordinate.display} is not horizontally and vertically symmetric"
  | .limit reason => s!"invalid game limit: {reason}"
  | .tiles reason => s!"invalid tile distribution: {reason}"

/-- One square must stand at its row-major place and share its premium with
both mirror images. -/
def validateSquare (board : BoardDefinition) (entry : BoardSquare × Nat) :
    Except RulesetDefinitionError Unit := do
  let row ← okOr (Checked.toU8 (entry.2 / board.width.toNat))
    (.board "board row cannot be represented")
  let column ← okOr (Checked.toU8 (entry.2 % board.width.toNat))
    (.board "board column cannot be represented")
  reject (entry.1.coordinate ≠ ⟨row, column⟩) (.board "squares must be unique and row-major")
  let horizontal : Coordinate := ⟨row, board.width - 1 - column⟩
  let vertical : Coordinate := ⟨board.height - 1 - row, column⟩
  reject ((board.square horizontal).map (·.premium) ≠ some entry.1.premium ∨
      (board.square vertical).map (·.premium) ≠ some entry.1.premium)
    (.premiumAsymmetry entry.1.coordinate)

def validateBoard (board : BoardDefinition) : Except RulesetDefinitionError Unit := do
  reject (board.width = 0 ∨ board.height = 0 ∨ board.width ≠ board.height)
    (.board "board must be nonempty and square")
  reject (board.squares.length ≠ board.width.toNat * board.height.toNat)
    (.board "board must enumerate every square exactly once")
  board.squares.zipIdx.forM (validateSquare board)
  let center : Coordinate := ⟨board.height / 2, board.width / 2⟩
  reject ((board.square center).map (·.premium) ≠ some .doubleWord)
    (.board "center square must be double-word")

def validateLimits (game : GameRules) : Except RulesetDefinitionError Unit := do
  reject (game.rackCapacity = 0) (.limit "rack capacity must be positive")
  reject (game.bingoBonus = 0) (.limit "bingo bonus must be positive")
  reject (game.exchangeMinimum < game.rackCapacity.toUInt16)
    (.limit "exchange minimum cannot be below rack capacity")
  reject (game.scorelessTurnLimit = 0) (.limit "scoreless-turn limit must be positive")

/-- Letters stand first, in order and with positive values; the blank is last
and worthless. -/
def validateFace (definition : TileDefinition) (index : Nat) :
    Except RulesetDefinitionError Unit :=
  if index < 26 then
    match definition.face with
    | .letter token =>
        reject (token.asStr ≠ String.singleton (Char.ofNat ('A'.toNat + index)) ∨
            definition.value = 0)
          (.tiles "letters must be ordered A-Z with positive values")
    | .blank => .error (.tiles "letter definitions must precede blank")
  else
    reject (definition.face ≠ .blank ∨ definition.value ≠ 0)
      (.tiles "final definition must be a zero-value blank")

/-- The running total and largest value of the definitions seen so far. -/
def validateTile (sums : UInt16 × UInt16) (entry : TileDefinition × Nat) :
    Except RulesetDefinitionError (UInt16 × UInt16) := do
  reject (entry.1.count = 0) (.tiles "every face must have a positive count")
  let total ← okOr (Checked.addU16 sums.1 entry.1.count) (.tiles "tile count overflows")
  validateFace entry.1 entry.2
  return (total, max sums.2 entry.1.value)

def validateTiles (tiles : List TileDefinition) (rackCapacity : UInt8) :
    Except RulesetDefinitionError Unit := do
  reject (tiles.length ≠ 27) (.tiles "distribution must contain A-Z and one blank definition")
  let sums ← tiles.zipIdx.foldlM validateTile (0, 0)
  reject (sums.1.toNat < rackCapacity.toNat * 2)
    (.tiles "distribution cannot deal two full opening racks")
  let _ ← okOr (Checked.mulU32 sums.1.toUInt32 sums.2.toUInt32)
    (.tiles "maximum tile-value total overflows")
  return ()

def Ruleset.validateDefinition (r : Ruleset) : Except RulesetDefinitionError Unit := do
  reject (r.schemaVersion ≠ rulesetSchemaVersion) (.schema r.schemaVersion rulesetSchemaVersion)
  validateBoard r.game.board
  validateLimits r.game
  validateTiles r.game.tiles r.game.rackCapacity

/-! Content identity. -/

def Premium.code : Premium → UInt8
  | .normal => 0
  | .doubleLetter => 1
  | .tripleLetter => 2
  | .doubleWord => 3
  | .tripleWord => 4

def hashString (text : String) : List UInt8 :=
  Bytes.bigEndian 8 (Bytes.utf8 text).length ++ Bytes.utf8 text

def hashPack (pack : PackIdentity) : List UInt8 :=
  hashString pack.packId ++ hashString pack.packVersion ++
    Bytes.bigEndian 4 pack.formatVersion.toNat ++ hashString pack.locale ++
    hashString pack.normalization.algorithm ++
    Bytes.bigEndian 4 pack.normalization.version.toNat ++
    hashString pack.normalization.profile ++ hashString pack.contentSha256

def hashSquare (square : BoardSquare) : List UInt8 :=
  [square.coordinate.row, square.coordinate.column, square.premium.code]

def hashTile (tile : TileDefinition) : List UInt8 :=
  (match tile.face with
    | .letter token => 1 :: hashString token.asStr
    | .blank => [0]) ++
    Bytes.bigEndian 2 tile.count.toNat ++ Bytes.bigEndian 2 tile.value.toNat

/-- Length of a collection as the source writes it, saturating at `u32::MAX`. -/
def hashLength (n : Nat) : List UInt8 := Bytes.bigEndian 4 (min n (2 ^ 32 - 1))

/-- Every byte fed to the digest, in the order of the source. -/
def rulesetBytes (r : Ruleset) : List UInt8 :=
  Bytes.utf8 "word-arena-ruleset-v1" ++ [0] ++ Bytes.bigEndian 4 r.schemaVersion.toNat ++
    hashString r.id.asStr ++ hashString r.language.code ++ hashPack r.lexicon ++
    [r.game.board.width, r.game.board.height] ++ hashLength r.game.board.squares.length ++
    r.game.board.squares.flatMap hashSquare ++ [r.game.rackCapacity] ++
    Bytes.bigEndian 2 r.game.bingoBonus.toNat ++ Bytes.bigEndian 2 r.game.exchangeMinimum.toNat ++
    [r.game.scorelessTurnLimit] ++ hashLength r.game.tiles.length ++
    r.game.tiles.flatMap hashTile

def rulesetSha256 (platform : Platform) (r : Ruleset) : String :=
  Bytes.hexLower (platform.sha256 (rulesetBytes r)).toList

def Ruleset.identity (platform : Platform) (r : Ruleset) : RulesetIdentity :=
  ⟨r.schemaVersion, r.id, rulesetSha256 platform r⟩

def Ruleset.letterValue (r : Ruleset) (token : String) : Option UInt16 :=
  (r.game.letter token).map (·.value)

end WordArena.Engine
