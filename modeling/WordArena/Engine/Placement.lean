import WordArena.Engine.State

/-! Validation and scoring of one placement before anything is committed. The
proposed tiles are kept as the list of placements; their coordinates are
distinct once checked, so a lookup has at most one answer. -/
namespace WordArena.Engine

open Fallible WordArena.Lexicon

structure PreparedMove where
  placements : List Placement
  played : List PhysicalTile
  words : List FormedWord
  bingoBonus : UInt32
  score : UInt32
deriving DecidableEq

/-- A tile seen through the proposed placements and the committed board. -/
inductive TileRef where
  | proposed (placement : Placement)
  | board (tile : BoardTile)
deriving DecidableEq, Repr

def TileRef.letter : TileRef → String
  | .proposed placement => placement.tile.letter
  | .board tile => tile.letter

def TileRef.isBlank : TileRef → Bool
  | .proposed placement => placement.tile.isBlank
  | .board tile => tile.isBlank

inductive Orientation where
  | horizontal
  | vertical
  | single
deriving DecidableEq, Repr

def orientation (placements : List Placement) : Except GameError Orientation :=
  match placements with
  | [_] => .ok .single
  | _ =>
      let first := placements.head?.map (·.coordinate)
      let sameRow := placements.all fun p => some p.coordinate.row == first.map (·.row)
      let sameColumn := placements.all fun p => some p.coordinate.column == first.map (·.column)
      match sameRow, sameColumn with
      | true, false => .ok .horizontal
      | false, true => .ok .vertical
      | _, _ => .error .notAligned

/-- The sort key of the source, a lexicographic pair of bytes, as one number. -/
def Orientation.key : Orientation → Coordinate → Nat
  | .horizontal, c => c.column.toNat * 256 + c.row.toNat
  | .vertical, c => c.row.toNat * 256 + c.column.toNat
  | .single, c => c.row.toNat * 256 + c.column.toNat

def sortPlacements (o : Orientation) (placements : List Placement) : List Placement :=
  placements.insertionSort fun a b => o.key a.coordinate ≤ o.key b.coordinate

/-- The square at a signed position, when it is on the board. -/
def coordinateAt (row column : Int) : Option Coordinate :=
  if 0 ≤ row ∧ row < 256 ∧ 0 ≤ column ∧ column < 256 then
    let c : Coordinate := ⟨UInt8.ofNat row.toNat, UInt8.ofNat column.toNat⟩
    if c.inBounds boardSize boardSize then some c else none
  else none

def neighbors (c : Coordinate) : List (Option Coordinate) :=
  [coordinateAt (c.row.toNat - 1) c.column.toNat, coordinateAt (c.row.toNat + 1) c.column.toNat,
    coordinateAt c.row.toNat (c.column.toNat - 1), coordinateAt c.row.toNat (c.column.toNat + 1)]

def canonicalTileToken (platform : Platform) (profile token : String) : Except GameError String := do
  let key ← mapErr .normalization (normalizeKey platform.tables profile token)
  reject (key.value.utf8ByteSize ≠ 1) (.invalidTileToken token key.value)
  return key.value

/-- A letter tile shows its own letter; a blank may be assigned any letter. -/
def assignmentMatches (physical : PhysicalTile) (assigned : Tile) : Bool :=
  match physical.face with
  | .letter token => !assigned.isBlank && assigned.letter == token.asStr
  | .blank => assigned.isBlank

def validateAssignment (physical : PhysicalTile) (assigned : Tile) : Except GameError Unit :=
  reject (¬ assignmentMatches physical assigned) (.tileFaceMismatch physical.id)

/-- Placements accepted so far, with their canonical letters, and the owned
tiles they use. -/
structure OwnedPlacements where
  placements : List Placement
  played : List PhysicalTile
deriving DecidableEq

def Game.validateOwnedPlacement (platform : Platform) (g : Game) (player : Player)
    (owned : OwnedPlacements) (placement : Placement) : Except GameError OwnedPlacements := do
  reject (placement.tileId ∈ owned.placements.map (·.tileId))
    (.duplicatePlacementTile placement.tileId)
  let physical ← okOr ((g.rack player).tiles.find? fun tile => tile.id = placement.tileId)
    (.tileNotOwned placement.tileId)
  reject (¬ placement.coordinate.inBounds boardSize boardSize)
    (.coordinateOutOfBounds placement.coordinate)
  let letter ← canonicalTileToken platform g.profile placement.tile.letter
  let canonical := { placement with tile := { placement.tile with letter } }
  validateAssignment physical canonical.tile
  reject ((g.state.tileAt placement.coordinate).isSome) (.occupiedSquare placement.coordinate)
  return ⟨owned.placements ++ [canonical], owned.played ++ [physical]⟩

def Game.validateOwnedPlacements (platform : Platform) (g : Game) (player : Player)
    (placements : List Placement) : Except GameError OwnedPlacements :=
  placements.foldlM (g.validateOwnedPlacement platform player) ⟨[], []⟩

def validateUniqueCoordinates (placements : List Placement) : Except GameError Unit :=
  let coordinates := placements.map (·.coordinate)
  match coordinates.find? fun c => 1 < coordinates.count c with
  | some duplicate => .error (.duplicateCoordinate duplicate)
  | none => .ok ()

def Game.tileWithProposed (g : Game) (proposed : List Placement) (c : Coordinate) :
    Option TileRef :=
  match proposed.find? fun p => p.coordinate = c with
  | some placement => some (.proposed placement)
  | none => (g.state.tileAt c).map .board

/-- The squares from the first to the last placement along its line. -/
def spanSquares (o : Orientation) (first last : Coordinate) : List Coordinate :=
  match o with
  | .horizontal =>
      (List.range' first.column.toNat (last.column.toNat + 1 - first.column.toNat)).map
        fun column => ⟨first.row, UInt8.ofNat column⟩
  | .vertical =>
      (List.range' first.row.toNat (last.row.toNat + 1 - first.row.toNat)).map
        fun row => ⟨UInt8.ofNat row, first.column⟩
  | .single => []

def Game.validateContiguous (g : Game) (placements : List Placement) (o : Orientation) :
    Except GameError Unit :=
  match placements.head?, placements.getLast? with
  | some first, some last =>
      (spanSquares o first.coordinate last.coordinate).forM fun c =>
        reject ((g.tileWithProposed placements c).isNone) (.notContiguous c)
  | _, _ => .ok ()

def Game.validateConnection (g : Game) (proposed : List Placement) : Except GameError Unit :=
  if g.state.board.all Option.isNone then
    reject (¬ proposed.any fun p => p.coordinate = center) .openingMoveMissesCenter
  else
    reject (¬ proposed.any fun p => (neighbors p.coordinate).reduceOption.any
      fun n => (g.state.tileAt n).isSome) .disconnectedPlacement

/-- Walk against the step while the previous square is occupied. A line has
fifteen squares, so the fuel of the callers is never the reason to stop. -/
def walkBack (occupied : Coordinate → Bool) (rowStep columnStep : Int) :
    Nat → Int → Int → Int × Int
  | 0, row, column => (row, column)
  | fuel + 1, row, column =>
      match coordinateAt (row - rowStep) (column - columnStep) with
      | some previous =>
          if occupied previous then
            walkBack occupied rowStep columnStep fuel (row - rowStep) (column - columnStep)
          else (row, column)
      | none => (row, column)

/-- Collect squares along the step while they are occupied. -/
def walkForward (occupied : Coordinate → Bool) (rowStep columnStep : Int) :
    Nat → Int → Int → List Coordinate
  | 0, _, _ => []
  | fuel + 1, row, column =>
      match coordinateAt row column with
      | some c =>
          if occupied c then
            c :: walkForward occupied rowStep columnStep fuel (row + rowStep) (column + columnStep)
          else []
      | none => []

def Game.wordSegment (g : Game) (proposed : List Placement) (origin : Coordinate)
    (rowStep columnStep : Int) : List Coordinate :=
  let occupied c := (g.tileWithProposed proposed c).isSome
  let start := walkBack occupied rowStep columnStep boardSize.toNat origin.row.toNat
    origin.column.toNat
  walkForward occupied rowStep columnStep boardSize.toNat start.1 start.2

/-- The candidate words of a placement: the main line first, then one cross
line for every new tile. -/
def Game.wordSegments (g : Game) (placements : List Placement) (o : Orientation) :
    List (List Coordinate) :=
  match placements.head? with
  | none => []
  | some first =>
      match o with
      | .horizontal =>
          g.wordSegment placements first.coordinate 0 1 ::
            placements.map fun p => g.wordSegment placements p.coordinate 1 0
      | .vertical =>
          g.wordSegment placements first.coordinate 1 0 ::
            placements.map fun p => g.wordSegment placements p.coordinate 0 1
      | .single =>
          [g.wordSegment placements first.coordinate 0 1,
            g.wordSegment placements first.coordinate 1 0]

def Game.formedWordCoordinates (g : Game) (placements : List Placement) (o : Orientation) :
    List (List Coordinate) :=
  ((g.wordSegments placements o).filter fun segment => 2 ≤ segment.length).eraseDups

/-- Spelling and score of the squares of a word read so far. -/
structure WordTally where
  text : String
  letterScore : UInt32
  wordMultiplier : UInt32
deriving DecidableEq, Repr

def premiumLetter : Premium → UInt32
  | .doubleLetter => 2
  | .tripleLetter => 3
  | _ => 1

def premiumWord : Premium → UInt32
  | .doubleWord => 2
  | .tripleWord => 3
  | _ => 1

/-- The premium a square contributes. It counts only when the square is newly
covered, and every square of a validated ruleset has a definition. -/
def Game.newPremium (g : Game) (proposed : List Placement) (c : Coordinate) : Premium :=
  if proposed.any fun p => p.coordinate = c then
    match g.ruleset.game.board.square c with
    | some square => square.premium
    | none => .normal
  else .normal

def Game.tallySquare (g : Game) (proposed : List Placement) (tally : WordTally) (c : Coordinate) :
    Except GameError WordTally :=
  match g.tileWithProposed proposed c with
  -- The squares of a formed word are occupied.
  | none => .ok tally
  | some tile => do
      let base : UInt32 :=
        if tile.isBlank then 0 else ((g.ruleset.letterValue tile.letter).getD 0).toUInt32
      let premium := g.newPremium proposed c
      let value ← okOr (Checked.mulU32 base (premiumLetter premium)) .scoreOverflow
      let wordMultiplier ←
        okOr (Checked.mulU32 tally.wordMultiplier (premiumWord premium)) .scoreOverflow
      let letterScore ← okOr (Checked.addU32 tally.letterScore value) .scoreOverflow
      return ⟨tally.text ++ tile.letter, letterScore, wordMultiplier⟩

def Game.validateWord (platform : Platform) (g : Game) (proposed : List Placement)
    (coordinates : List Coordinate) : Except GameError FormedWord := do
  let tally ← coordinates.foldlM (g.tallySquare proposed) ⟨"", 0, 1⟩
  let key ← mapErr .normalization (normalizeKey platform.tables g.profile tally.text)
  reject (g.lexicon.contains key = false) (.invalidWord tally.text key.value)
  let score ← okOr (Checked.mulU32 tally.letterScore tally.wordMultiplier) .scoreOverflow
  return ⟨tally.text, key.value, coordinates, tally.letterScore, tally.wordMultiplier, score⟩

/-- Validate one word and add it to the words and score so far. -/
def Game.addWord (platform : Platform) (g : Game) (proposed : List Placement)
    (sofar : List FormedWord × UInt32) (coordinates : List Coordinate) :
    Except GameError (List FormedWord × UInt32) := do
  let word ← g.validateWord platform proposed coordinates
  let score ← okOr (Checked.addU32 sofar.2 word.score) .scoreOverflow
  return (sofar.1 ++ [word], score)

def Game.bingoBonus (g : Game) (placements : List Placement) : UInt32 :=
  if placements.length = g.ruleset.game.rackCapacity.toNat then
    g.ruleset.game.bingoBonus.toUInt32
  else 0

def Game.preparePlacement (platform : Platform) (g : Game) (player : Player)
    (placements : List Placement) : Except GameError PreparedMove := do
  reject (placements = []) .emptyPlacement
  let owned ← g.validateOwnedPlacements platform player placements
  validateUniqueCoordinates owned.placements
  let o ← orientation owned.placements
  let sorted := sortPlacements o owned.placements
  g.validateContiguous sorted o
  g.validateConnection sorted
  let coordinates := g.formedWordCoordinates sorted o
  reject (coordinates = []) .noWordFormed
  let (words, wordScore) ← coordinates.foldlM (g.addWord platform sorted) ([], 0)
  let bingoBonus := g.bingoBonus sorted
  let score ← okOr (Checked.addU32 wordScore bingoBonus) .scoreOverflow
  let played := sorted.filterMap fun p => owned.played.find? fun tile => tile.id = p.tileId
  return ⟨sorted, played, words, bingoBonus, score⟩

end WordArena.Engine
