import Mathlib.Data.List.Sort
import WordArena.Library.Shuffle
import WordArena.Engine.Builtin

/-! Versioned randomness: seed expansion, the xoshiro256** stream, bounded
sampling by rejection, bag construction, deals, exchanges and the conservation
check. The digest is the only part that is not computed here. -/
namespace WordArena.Engine

open Fallible

inductive RngAlgorithm where
  | xoshiro256StarStarV1
deriving DecidableEq, Repr

def RngAlgorithm.asStr : RngAlgorithm → String
  | .xoshiro256StarStarV1 => "xoshiro256-star-star-v1"

/-- Fixed 256-bit seed supplied by the application. -/
structure GameSeed where
  bytes : Vector UInt8 32
deriving DecidableEq

structure SeedCommitment where
  algorithm : RngAlgorithm
  sha256 : String
deriving DecidableEq, Repr

def seedCommitmentSha256 (platform : Platform) (algorithm : RngAlgorithm) (seed : GameSeed) :
    String :=
  Bytes.hexLower (platform.sha256 (Bytes.utf8 "word-arena-seed-commitment-v1" ++ [0] ++
    Bytes.utf8 algorithm.asStr ++ [0] ++ seed.bytes.toList)).toList

def GameSeed.commitment (platform : Platform) (seed : GameSeed) (algorithm : RngAlgorithm) :
    SeedCommitment :=
  ⟨algorithm, seedCommitmentSha256 platform algorithm seed⟩

def SeedCommitment.verify (platform : Platform) (commitment : SeedCommitment) (seed : GameSeed) :
    Bool :=
  commitment.sha256 == seedCommitmentSha256 platform commitment.algorithm seed

/-! The generator. -/

/-- The four state words. -/
structure DeterministicRng where
  s0 : UInt64
  s1 : UInt64
  s2 : UInt64
  s3 : UInt64
deriving DecidableEq, Repr

def rotateLeft (word : UInt64) (amount : Nat) : UInt64 := ⟨word.toBitVec.rotateLeft amount⟩

/-- Four big-endian words of a digest, with the defensive fallback that keeps
the generator out of the all-zero state. -/
def DeterministicRng.ofDigest (digest : Vector UInt8 32) : DeterministicRng :=
  let word (i : Nat) : UInt64 := UInt64.ofNat (Bytes.value ((digest.toList.drop (8 * i)).take 8))
  let state : DeterministicRng := ⟨word 0, word 1, word 2, word 3⟩
  if state = ⟨0, 0, 0, 0⟩ then { state with s0 := 0x9e3779b97f4a7c15 } else state

def DeterministicRng.new (platform : Platform) (seed : GameSeed) : DeterministicRng :=
  .ofDigest (platform.sha256 (Bytes.utf8 "word-arena-xoshiro256-star-star-v1" ++ [0] ++
    seed.bytes.toList))

def DeterministicRng.forExchange (platform : Platform) (seed : GameSeed) (transition : UInt64) :
    DeterministicRng :=
  .ofDigest (platform.sha256 (Bytes.utf8 "word-arena-exchange-xoshiro256-star-star-v1" ++ [0] ++
    seed.bytes.toList ++ Bytes.bigEndian 8 transition.toNat))

/-- The output word of the current state. -/
def DeterministicRng.output (rng : DeterministicRng) : UInt64 := rotateLeft (rng.s1 * 5) 7 * 9

/-- The state after one draw. -/
def DeterministicRng.advance (rng : DeterministicRng) : DeterministicRng :=
  let shifted := rng.s1 <<< 17
  let s2 := rng.s2 ^^^ rng.s0
  let s3 := rng.s3 ^^^ rng.s1
  let s1 := rng.s1 ^^^ s2
  let s0 := rng.s0 ^^^ s3
  let s2 := s2 ^^^ shifted
  let s3 := rotateLeft s3 45
  ⟨s0, s1, s2, s3⟩

def DeterministicRng.nextU64 (rng : DeterministicRng) : UInt64 × DeterministicRng :=
  (rng.output, rng.advance)

/-- The rejection loop. The generator has `2 ^ 256` states, so a draw that is
not accepted within that many steps is never accepted at all. -/
def DeterministicRng.sample (threshold upper : UInt64) : Nat → DeterministicRng → UInt64 × DeterministicRng
  | 0, rng => (0, rng)
  | fuel + 1, rng =>
      let (value, rng) := rng.nextU64
      if value ≥ threshold then (value % upper, rng) else sample threshold upper fuel rng

def DeterministicRng.uniformBelow (rng : DeterministicRng) (upper : UInt64) :
    UInt64 × DeterministicRng :=
  let threshold := (0 - upper) % upper
  sample threshold upper (2 ^ 256) rng

def DeterministicRng.shuffle {α : Type} (rng : DeterministicRng) (values : List α) :
    List α × DeterministicRng :=
  Shuffle.shuffle (fun rng upper =>
    let (selected, rng) := rng.uniformBelow (UInt64.ofNat upper)
    (selected.toNat, rng)) rng values

/-! Tiles, conservation and deals. -/

inductive ConservationError where
  | count (expected actual : Nat)
  | duplicateTileId (id : TileId)
  | tileIdOutOfRange (id : TileId) (tileCount : Nat)
  | faceDistribution
deriving DecidableEq, Repr

def ConservationError.display : ConservationError → String
  | .count expected actual => s!"tile count mismatch: expected {expected}, found {actual}"
  | .duplicateTileId id => s!"tile ID {id.debug} appears more than once"
  | .tileIdOutOfRange id tileCount =>
      s!"tile ID {id.debug} is outside distribution size {tileCount}"
  | .faceDistribution => "physical tile faces differ from the ruleset distribution"

inductive RandomError where
  | playerCount (playerCount : Nat)
  | ruleset (reason : String)
  | tooManyTiles
  | conservation (error : ConservationError)
deriving DecidableEq, Repr

def RandomError.display : RandomError → String
  | .playerCount count => s!"player count {count} must be between 2 and 4"
  | .ruleset reason => s!"cannot prepare deterministic bag from ruleset: {reason}"
  | .tooManyTiles => "ruleset contains too many physical tiles for V1 tile IDs"
  | .conservation error => error.display

/-- One face for every physical tile, in ruleset order. -/
def expectedFaces (game : GameRules) : List TileFace :=
  game.tiles.flatMap fun definition => List.replicate definition.count.toNat definition.face

/-- Number the physical tiles in ruleset order. -/
def buildTiles (game : GameRules) : Except RandomError (List PhysicalTile) :=
  (expectedFaces game).zipIdx.mapM fun entry => do
    let id ← okOr (Checked.toU16 entry.2) .tooManyTiles
    return ⟨⟨id⟩, entry.1⟩

/-- Check one tile against the distribution and the identities seen so far. -/
def checkTile (game : GameRules) (ids : List TileId) (tile : PhysicalTile) :
    Except ConservationError (List TileId) := do
  reject (game.totalTiles ≤ tile.id.raw.toNat) (.tileIdOutOfRange tile.id game.totalTiles)
  reject (tile.id ∈ ids) (.duplicateTileId tile.id)
  reject ((expectedFaces game)[tile.id.raw.toNat]? ≠ some tile.face) .faceDistribution
  return tile.id :: ids

def verifyTileConservation (game : GameRules) (bag : Bag) (racks : List Rack)
    (board : List PhysicalTile) : Except ConservationError Unit := do
  let ids ← (bag.tiles ++ racks.flatMap Rack.tiles ++ board).foldlM (checkTile game) []
  reject (ids.length ≠ game.totalTiles) (.count game.totalTiles ids.length)

structure InitialDeal where
  algorithm : RngAlgorithm
  commitment : SeedCommitment
  bag : Bag
  racks : List Rack
deriving DecidableEq

/-- Fill one seat's rack from the end of the bag. -/
def dealSeat (capacity : Nat) (table : Bag × List Rack) (seat : Seat) : Bag × List Rack :=
  let (drawn, bag) := table.1.drawUpTo capacity
  (bag, table.2.modify seat.index (·.extend drawn))

def prepareInitialDealForPlayers (platform : Platform) (ruleset : Ruleset) (seed : GameSeed)
    (playerCount : Nat) : Except RandomError InitialDeal := do
  mapErr (fun error => .ruleset error.rulesetDisplay) ruleset.validate
  let seats ← okOr (Seat.active playerCount) (.playerCount playerCount)
  let algorithm := RngAlgorithm.xoshiro256StarStarV1
  let tiles ← buildTiles ruleset.game
  let shuffled := ((DeterministicRng.new platform seed).shuffle tiles).1
  let (bag, racks) := seats.foldl (dealSeat ruleset.game.rackCapacity.toNat)
    (⟨shuffled⟩, List.replicate playerCount ⟨[]⟩)
  mapErr .conservation (verifyTileConservation ruleset.game bag racks [])
  return { algorithm, commitment := seed.commitment platform algorithm, bag, racks }

/-- Tiles ordered by identity. Identities are distinct, so stability of the
source's sort is irrelevant. -/
def sortById (tiles : List PhysicalTile) : List PhysicalTile :=
  tiles.insertionSort (fun a b => a.id.raw ≤ b.id.raw)

def returnTilesToBag (platform : Platform) (bag : Bag) (returned : List PhysicalTile)
    (seed : GameSeed) (transition : UInt64) : Bag :=
  let tiles := bag.tiles ++ sortById returned
  ⟨((DeterministicRng.forExchange platform seed transition).shuffle tiles).1⟩

end WordArena.Engine
