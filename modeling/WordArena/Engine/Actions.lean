import WordArena.Engine.Placement

/-! Creation and the four atomic actions. An action returns the next game with
its event, or an error; on an error the caller keeps the game it had, since
the source assigns nothing before its last check. -/
namespace WordArena.Engine

open Fallible WordArena.Lexicon

def countU8 (count : Nat) : Except GameError UInt8 :=
  okOr (Checked.toU8 count) (.invalidTileState s!"tile count {count} exceeds u8")

def countU16 (count : Nat) : Except GameError UInt16 :=
  okOr (Checked.toU16 count) (.invalidTileState s!"tile count {count} exceeds u16")

def rackCounts (racks : List Rack) : Except GameError (List UInt8) :=
  racks.mapM fun rack => countU8 rack.tiles.length

def invalidPlayerCount (playerCount : Nat) : GameError :=
  .invalidTileState s!"player count {playerCount} must be between 2 and 4"

def nextScoreless (current : UInt8) (score : UInt32) : Except GameError UInt8 :=
  if score = 0 then okOr (Checked.addU8 current 1) .scorelessTurnOverflow else .ok 0

/-! The physical board. -/

def boardFace (tile : BoardTile) : Except GameError TileFace :=
  if tile.isBlank then .ok .blank
  else do
    let token ← mapErr (fun _ => .invalidTileState
      s!"board tile {tile.tileId.debug} has an invalid physical token") (TileToken.new tile.letter)
    return .letter token

def physicalTile (platform : Platform) (ruleset : Ruleset) (tile : BoardTile) :
    Except GameError PhysicalTile := do
  let canonical ← canonicalTileToken platform ruleset.lexicon.normalization.profile tile.letter
  reject (canonical ≠ tile.letter) (.nonCanonicalBoardTile tile.letter canonical)
  let face ← boardFace tile
  return ⟨tile.tileId, face⟩

def physicalBoard (platform : Platform) (state : PublicGameState) (ruleset : Ruleset) :
    Except GameError (List PhysicalTile) :=
  state.board.reduceOption.mapM (physicalTile platform ruleset)

/-- The check made before a tile transition is committed. -/
def checkConservation (platform : Platform) (ruleset : Ruleset) (state : PublicGameState)
    (bag : Bag) (racks : List Rack) : Except GameError Unit := do
  let board ← physicalBoard platform state ruleset
  mapErr (fun error => .invalidTileState error.display)
    (verifyTileConservation ruleset.game bag racks board)

/-! Completion. -/

def tileValue (ruleset : Ruleset) (tile : PhysicalTile) : UInt16 :=
  match tile.face with
  | .letter token => (ruleset.letterValue token.asStr).getD 0
  | .blank => 0

def rackValue (ruleset : Ruleset) (rack : Rack) : Except GameError Int32 :=
  rack.tiles.foldlM (fun total tile =>
    okOr (Checked.addI32 total (Int32.ofInt (tileValue ruleset tile).toNat)) .scoreOverflow) 0

/-- Add a signed delta to one seat's score. -/
def adjustScore (scores : List Score) (seat : Seat) (delta : Int32) :
    Except GameError (List Score) := do
  let updated ← okOr ((scores.getD seat.index .zero).checkedAdd delta) .scoreOverflow
  return scores.set seat.index updated

/-- Deduct a seat's own rack; the deduction is also returned. -/
def deductRack (ruleset : Ruleset) (racks : List Rack) (scores : List Score) (seat : Seat) :
    Except GameError (List Score × Int32) := do
  let deduction ← rackValue ruleset (racks.getD seat.index ⟨[]⟩)
  let scores ← adjustScore scores seat (-deduction)
  return (scores, deduction)

def deductAll (ruleset : Ruleset) (racks : List Rack) (active : List Seat) (scores : List Score) :
    Except GameError (List Score) :=
  active.foldlM (fun scores seat => do
    let (scores, _) ← deductRack ruleset racks scores seat
    return scores) scores

/-- Deduct every rack but the outgoing one and sum the deductions. -/
def deductOthers (ruleset : Ruleset) (racks : List Rack) (active : List Seat) (outgoing : Seat)
    (scores : List Score) : Except GameError (List Score × Int32) :=
  (active.filter (· ≠ outgoing)).foldlM (fun sofar seat => do
    let (scores, deduction) ← deductRack ruleset racks sofar.1 seat
    let bonus ← okOr (Checked.addI32 sofar.2 deduction) .scoreOverflow
    return (scores, bonus)) (scores, 0)

def finalScores (ruleset : Ruleset) (racks : List Rack) (active : List Seat)
    (reason : TerminalReason) (scores : List Score) : Except GameError (List Score) :=
  match reason with
  | .resignation _ => .ok scores
  | .scorelessTurns => deductAll ruleset racks active scores
  | .rackEmptied outgoing => do
      let (scores, bonus) ← deductOthers ruleset racks active outgoing scores
      adjustScore scores outgoing bonus

/-- One pass over the scores with the best seat so far and whether it is tied.
An index without a seat ends the search without a winner. -/
def uniqueWinnerLoop (excluded : Option Seat) :
    List (Score × Nat) → Option (Seat × Score) → Bool → Option Seat
  | [], best, tied => if tied then none else best.map (·.1)
  | (score, index) :: rest, best, tied =>
      match Seat.all[index]? with
      | none => none
      | some seat =>
          if some seat = excluded then uniqueWinnerLoop excluded rest best tied
          else match best with
            | none => uniqueWinnerLoop excluded rest (some (seat, score)) false
            | some (_, bestScore) =>
                if score.value > bestScore.value then
                  uniqueWinnerLoop excluded rest (some (seat, score)) false
                else if score = bestScore then uniqueWinnerLoop excluded rest best true
                else uniqueWinnerLoop excluded rest best tied

def uniqueWinner (scores : List Score) (excluded : Option Seat) : Option Seat :=
  uniqueWinnerLoop excluded scores.zipIdx none false

/-- The winner named by a terminal reason. -/
def winnerOf (active : List Seat) (reason : TerminalReason) (scores : List Score) : Option Seat :=
  match reason with
  | .resignation resigned =>
      if active.length = 2 then active.find? (· ≠ resigned) else uniqueWinner scores (some resigned)
  | .scorelessTurns => uniqueWinner scores none
  | .rackEmptied _ => uniqueWinner scores none

def Game.completeState (g : Game) (state : PublicGameState) (racks : List Rack)
    (reason : TerminalReason) : Except GameError (PublicGameState × GameResult) := do
  let active ← okOr (Seat.active racks.length) (invalidPlayerCount racks.length)
  let scores ← finalScores g.ruleset racks active reason state.scores
  let result : GameResult := {
    gameId := g.state.gameId
    rulesetId := state.rulesetId
    lexicon := state.lexicon
    scores
    winner := winnerOf active reason scores
    finalVersion := state.version
    reason }
  return ({ state with scores, phase := .finished, result := some result }, result)

/-- Complete the state when a terminal rule applies. -/
def Game.completeWhen (g : Game) (state : PublicGameState) (racks : List Rack)
    (reason : Option TerminalReason) : Except GameError (PublicGameState × Option GameResult) :=
  match reason with
  | none => .ok (state, none)
  | some reason => do
      let (state, result) ← g.completeState state racks reason
      return (state, some result)

/-- The scoreless-turn rule on a counter that was just updated. -/
def Game.scorelessReason (g : Game) (turns : UInt8) : Option TerminalReason :=
  if turns ≥ g.ruleset.game.scorelessTurnLimit then some .scorelessTurns else none

/-- Going out takes precedence over the scoreless-turn rule. -/
def Game.placementReason (g : Game) (player : Player) (bag : Bag) (rack : Rack) (turns : UInt8) :
    Option TerminalReason :=
  if bag.tiles = [] ∧ rack.tiles = [] then some (.rackEmptied player) else g.scorelessReason turns

/-! Actions. -/

def Game.validateAction (g : Game) (player : Player) (expectedVersion : UInt64) :
    Except GameError Unit := do
  reject (g.state.phase = .finished) .gameFinished
  reject (player ≠ g.state.currentPlayer) (.wrongPlayer g.state.currentPlayer player)
  reject (expectedVersion ≠ g.state.version) (.staleVersion g.state.version expectedVersion)

def Game.nextVersion (g : Game) : Except GameError UInt64 :=
  okOr (Checked.addU64 g.state.version 1) .versionOverflow

def Game.nextPlayer (g : Game) (player : Player) : Except GameError Player :=
  okOr (player.next g.racks.length) (invalidPlayerCount g.racks.length)

def Rack.without (rack : Rack) (ids : List TileId) : Rack :=
  ⟨rack.tiles.filter fun tile => tile.id ∉ ids⟩

/-- Private tiles after a draw into one rack. -/
structure Redraw where
  drawn : List PhysicalTile
  bag : Bag
  racks : List Rack

/-- Drop the given tiles from the acting rack, then draw replacements. -/
def Game.redraw (g : Game) (player : Player) (ids : List TileId) (count : Nat) : Redraw where
  drawn := (g.bag.drawUpTo count).1
  bag := (g.bag.drawUpTo count).2
  racks := g.racks.set player.index
    (((g.rack player).without ids).extend (g.bag.drawUpTo count).1)

def placeOnBoard (board : List (Option BoardTile)) (placements : List Placement) :
    List (Option BoardTile) :=
  placements.foldl (fun board p => board.set (p.coordinate.index boardSize)
    (some ⟨p.tileId, p.tile.letter, p.tile.isBlank⟩)) board

/-- Number of tiles that refill the acting rack to its capacity. -/
def Game.refillCount (g : Game) (player : Player) (ids : List TileId) : Except GameError Nat :=
  okOr (if ((g.rack player).without ids).tiles.length ≤ g.ruleset.game.rackCapacity.toNat then
      some (g.ruleset.game.rackCapacity.toNat - ((g.rack player).without ids).tiles.length)
    else none) (.invalidTileState "rack exceeds configured capacity")

def Game.playTiles (platform : Platform) (g : Game) (player : Player) (expectedVersion : UInt64)
    (placements : List Placement) : Except GameError (Game × GameEvent) := do
  g.validateAction player expectedVersion
  let prepared ← g.preparePlacement platform player placements
  let scoreDelta ← okOr (Checked.toI32 prepared.score.toNat) .scoreOverflow
  let updatedScore ←
    okOr ((g.state.scores.getD player.index .zero).checkedAdd scoreDelta) .scoreOverflow
  let updatedVersion ← g.nextVersion
  let scorelessTurns ← nextScoreless g.state.scorelessTurns prepared.score
  let playedIds := prepared.placements.map (·.tileId)
  let refillCount ← g.refillCount player playedIds
  let next := g.redraw player playedIds refillCount
  let currentPlayer ← g.nextPlayer player
  let rackCounts ← rackCounts next.racks
  let bagCount ← countU16 next.bag.tiles.length
  let nextState := { g.state with
    board := placeOnBoard g.state.board prepared.placements
    scores := g.state.scores.set player.index updatedScore
    currentPlayer
    version := updatedVersion
    scorelessTurns
    rackCounts
    bagCount }
  checkConservation platform g.ruleset nextState next.bag next.racks
  let (nextState, result) ← g.completeWhen nextState next.racks
    (g.placementReason player next.bag (next.racks.getD player.index ⟨[]⟩) scorelessTurns)
  let drawCount ← countU8 next.drawn.length
  let event : GameEvent := {
    sequence := updatedVersion
    visibility := .publicEvent
    lexicon := nextState.lexicon
    kind := .movePlayed player prepared.placements prepared.words prepared.bingoBonus
      prepared.score drawCount nextState.rackCounts nextState.bagCount nextState.scores
      nextState.scorelessTurns nextState.currentPlayer result }
  let privateEvent : PrivateGameEvent := {
    sequence := updatedVersion
    visibility := .seatPrivate player
    seat := player
    removed := prepared.played
    drawn := next.drawn
    rackAfter := next.racks.getD player.index ⟨[]⟩ }
  return ({ g with
    bag := next.bag
    racks := next.racks
    state := nextState
    events := g.events ++ [event]
    privateEvents := g.privateEvents ++ [privateEvent] }, event)

def Game.pass (g : Game) (player : Player) (expectedVersion : UInt64) :
    Except GameError (Game × GameEvent) := do
  g.validateAction player expectedVersion
  let updatedVersion ← g.nextVersion
  let currentPlayer ← g.nextPlayer player
  let scorelessTurns ← okOr (Checked.addU8 g.state.scorelessTurns 1) .scorelessTurnOverflow
  let nextState := { g.state with version := updatedVersion, currentPlayer, scorelessTurns }
  let (nextState, result) ← g.completeWhen nextState g.racks (g.scorelessReason scorelessTurns)
  let event : GameEvent := {
    sequence := updatedVersion
    visibility := .publicEvent
    lexicon := nextState.lexicon
    kind := .passed player nextState.scorelessTurns nextState.currentPlayer result }
  return ({ g with state := nextState, events := g.events ++ [event] }, event)

/-- The first repeated identity of a sorted list. -/
def findDuplicate : List TileId → Option TileId
  | a :: b :: rest => if a = b then some a else findDuplicate (b :: rest)
  | _ => none

def sortIds (tileIds : List TileId) : List TileId :=
  tileIds.insertionSort fun a b => a.raw ≤ b.raw

/-- The acting rack's tile with a given identity. -/
def Game.ownedTile (g : Game) (player : Player) (tileId : TileId) : Except GameError PhysicalTile :=
  okOr ((g.rack player).tiles.find? fun tile => tile.id = tileId) (.tileNotOwned tileId)

def rejectDuplicate (tileIds : List TileId) : Except GameError Unit :=
  match findDuplicate tileIds with
  | some tileId => .error (.duplicatePlacementTile tileId)
  | none => .ok ()

def Game.exchangeTiles (platform : Platform) (g : Game) (player : Player)
    (expectedVersion : UInt64) (tileIds : List TileId) : Except GameError (Game × GameEvent) := do
  g.validateAction player expectedVersion
  reject (tileIds = []) .emptyExchange
  let tileIds := sortIds tileIds
  rejectDuplicate tileIds
  let bagCount ← countU16 g.bag.tiles.length
  reject (bagCount < g.ruleset.game.exchangeMinimum)
    (.exchangeBagTooSmall g.ruleset.game.exchangeMinimum bagCount)
  let returned ← tileIds.mapM (g.ownedTile player)
  let updatedVersion ← g.nextVersion
  let next := g.redraw player tileIds returned.length
  let nextBag := returnTilesToBag platform next.bag returned g.seed updatedVersion
  let currentPlayer ← g.nextPlayer player
  let scorelessTurns ← okOr (Checked.addU8 g.state.scorelessTurns 1) .scorelessTurnOverflow
  let rackCounts ← rackCounts next.racks
  let bagCount ← countU16 nextBag.tiles.length
  let nextState := { g.state with
    version := updatedVersion, currentPlayer, scorelessTurns, rackCounts, bagCount }
  checkConservation platform g.ruleset nextState nextBag next.racks
  let (nextState, result) ← g.completeWhen nextState next.racks (g.scorelessReason scorelessTurns)
  let event : GameEvent := {
    sequence := updatedVersion
    visibility := .publicEvent
    lexicon := nextState.lexicon
    kind := .exchanged player tileIds nextState.rackCounts nextState.bagCount
      nextState.scorelessTurns nextState.currentPlayer result }
  let privateEvent : PrivateGameEvent := {
    sequence := updatedVersion
    visibility := .seatPrivate player
    seat := player
    removed := returned
    drawn := next.drawn
    rackAfter := next.racks.getD player.index ⟨[]⟩ }
  return ({ g with
    bag := nextBag
    racks := next.racks
    state := nextState
    events := g.events ++ [event]
    privateEvents := g.privateEvents ++ [privateEvent] }, event)

def Game.resign (g : Game) (player : Player) (expectedVersion : UInt64) :
    Except GameError (Game × GameEvent) := do
  g.validateAction player expectedVersion
  let updatedVersion ← g.nextVersion
  let (nextState, result) ← g.completeState { g.state with version := updatedVersion } g.racks
    (.resignation player)
  let event : GameEvent := {
    sequence := updatedVersion
    visibility := .publicEvent
    lexicon := nextState.lexicon
    kind := .resigned player result }
  return ({ g with state := nextState, events := g.events ++ [event] }, event)

def Game.applyMove (platform : Platform) (g : Game) (player : Player) (expectedVersion : UInt64)
    (action : Move) : Except GameError (Game × GameEvent) :=
  match action with
  | .place placements => g.playTiles platform player expectedVersion placements
  | .exchange tileIds => g.exchangeTiles platform player expectedVersion tileIds
  | .pass => g.pass player expectedVersion
  | .resign => g.resign player expectedVersion

/-! Creation. -/

def Game.createWithModeAndPlayers (platform : Platform) (gameId : String) (ruleset : Ruleset)
    (lexicon : Option WordValidator) (seed : GameSeed) (mode : GameMode) (playerCount : Nat) :
    Except GameError Game := do
  ruleset.validate
  let lexicon ← okOr lexicon (.missingLexicon ruleset.id ruleset.lexicon)
  ruleset.ensureLexicon .ruleset lexicon.identity
  let deal ← mapErr (fun error => .invalidTileState error.display)
    (prepareInitialDealForPlayers platform ruleset seed playerCount)
  let rackCounts ← rackCounts deal.racks
  let bagCount ← countU16 deal.bag.tiles.length
  let state : PublicGameState := {
    gameId
    rulesetId := ruleset.id
    ruleset := ruleset.identity platform
    lexicon := lexicon.identity
    mode
    rngAlgorithm := deal.algorithm
    seedCommitment := deal.commitment
    board := List.replicate boardSquares none
    scores := List.replicate playerCount .zero
    currentPlayer := .one
    version := 0
    scorelessTurns := 0
    rackCounts
    bagCount
    phase := .active
    result := none }
  let event : GameEvent := {
    sequence := 0
    visibility := .publicEvent
    lexicon := lexicon.identity
    kind := .created gameId ruleset mode deal.algorithm deal.commitment rackCounts bagCount }
  return {
    ruleset, lexicon, seed
    bag := deal.bag
    racks := deal.racks
    state
    events := [event]
    privateEvents := [] }

end WordArena.Engine
