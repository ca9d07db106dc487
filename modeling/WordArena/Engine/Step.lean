import WordArena.Library.System
import WordArena.Engine.Actions

/-! What each accepted action does, stated once. An accepted action is a record
of the values it computed, the conditions they satisfy, and the next game they
determine. Later proofs read these records and never unfold an action. -/
namespace WordArena.Engine

open Fallible

/-- One request of a client: any seat, any expected version, any action. -/
structure Call where
  player : Player
  expectedVersion : UInt64
  action : Move
deriving DecidableEq, Repr

/-- The engine as a request handler that starts from any created game. -/
def engine (platform : Platform) : System Game Call GameEvent GameError where
  initial g := ∃ gameId ruleset lexicon seed mode playerCount,
    Game.createWithModeAndPlayers platform gameId ruleset lexicon seed mode playerCount = .ok g
  step g call := g.applyMove platform call.player call.expectedVersion call.action

theorem validateAction_eq_ok {g : Game} {player : Player} {version : UInt64} {u : Unit} :
    g.validateAction player version = .ok u ↔
      g.state.phase = .active ∧ player = g.state.currentPlayer ∧ version = g.state.version := by
  have hPhase : g.state.phase ≠ .finished ↔ g.state.phase = .active := by
    cases g.state.phase <;> simp
  simp [Game.validateAction, bind_eq_ok, hPhase]

/-- Whatever an action is, it is refused first for its player and version. -/
theorem applyMove_refused {platform : Platform} {g : Game} {player : Player} {version : UInt64}
    {error : GameError} (h : g.validateAction player version = .error error) (action : Move) :
    g.applyMove platform player version action = .error error := by
  cases action <;> exact bind_eq_error.mpr (.inl h)

theorem validateAction_stale {g : Game} {version : UInt64} (hPhase : g.state.phase = .active)
    (hVersion : version ≠ g.state.version) :
    g.validateAction g.state.currentPlayer version = .error (.staleVersion g.state.version version) := by
  simp [Game.validateAction, bind_eq_error, hPhase, hVersion]

theorem nextVersion_eq_ok {g : Game} {version : UInt64} :
    g.nextVersion = .ok version ↔ version.toNat = g.state.version.toNat + 1 := by
  simp [Game.nextVersion]

theorem nextPlayer_eq_ok {g : Game} {player next : Player} :
    g.nextPlayer player = .ok next ↔ player.next g.racks.length = some next := by
  simp [Game.nextPlayer]

theorem countU8_eq_ok {n : Nat} {c : UInt8} : countU8 n = .ok c ↔ c.toNat = n := by
  simp [countU8]

theorem countU16_eq_ok {n : Nat} {c : UInt16} : countU16 n = .ok c ↔ c.toNat = n := by
  simp [countU16]

theorem refillCount_eq_ok {g : Game} {player : Player} {ids : List TileId} {count : Nat} :
    g.refillCount player ids = .ok count ↔
      ((g.rack player).without ids).tiles.length + count = g.ruleset.game.rackCapacity.toNat := by
  simp only [Game.refillCount, okOr_eq_ok, Option.ite_none_right_eq_some, Option.some.injEq]
  omega

/-- Counts agree with the racks they count, in order. -/
theorem rackCounts_eq_ok {racks : List Rack} {counts : List UInt8} :
    rackCounts racks = .ok counts ↔
      counts.map UInt8.toNat = racks.map (fun rack => rack.tiles.length) := by
  rw [rackCounts, mapM_eq_ok]
  simp only [countU8_eq_ok]
  constructor
  · intro h
    induction h with
    | nil => rfl
    | cons hHead _ ih => simp [hHead, ih]
  · intro h
    induction racks generalizing counts with
    | nil =>
        cases counts with
        | nil => exact .nil
        | cons c counts => simp at h
    | cons rack racks ih =>
        cases counts with
        | nil => simp at h
        | cons c counts =>
            simp only [List.map_cons, List.cons.injEq] at h
            exact .cons h.1 (ih h.2)

/-! Completion. -/

/-- The result recorded when a state is completed. -/
def Game.resultOf (g : Game) (mid : PublicGameState) (active : List Seat) (scores : List Score)
    (reason : TerminalReason) : GameResult where
  gameId := g.state.gameId
  rulesetId := mid.rulesetId
  lexicon := mid.lexicon
  scores := scores
  winner := winnerOf active reason scores
  finalVersion := mid.version
  reason := reason

theorem completeState_eq_ok {g : Game} {mid final : PublicGameState} {racks : List Rack}
    {reason : TerminalReason} {result : GameResult} :
    g.completeState mid racks reason = .ok (final, result) ↔
      ∃ active scores, Seat.active racks.length = some active ∧
        finalScores g.ruleset racks active reason mid.scores = .ok scores ∧
        result = g.resultOf mid active scores reason ∧
        final = { mid with scores, phase := .finished, result := some result } := by
  simp only [Game.completeState, bind_eq_ok, okOr_eq_ok, pure_eq_ok, Prod.mk.injEq, Game.resultOf]
  constructor
  · rintro ⟨active, hActive, scores, hScores, rfl, rfl⟩
    exact ⟨active, scores, hActive, hScores, rfl, rfl⟩
  · rintro ⟨active, scores, hActive, hScores, rfl, rfl⟩
    exact ⟨active, hActive, scores, hScores, rfl, rfl⟩

/-- Completion either does nothing or finishes the game for a reason. -/
theorem completeWhen_eq_ok {g : Game} {mid final : PublicGameState} {racks : List Rack}
    {reason : Option TerminalReason} {result : Option GameResult} :
    g.completeWhen mid racks reason = .ok (final, result) ↔
      (reason = none ∧ final = mid ∧ result = none) ∨
      ∃ why outcome, reason = some why ∧ g.completeState mid racks why = .ok (final, outcome) ∧
        result = some outcome := by
  cases reason with
  | none => simp [Game.completeWhen, eq_comm]
  | some why =>
      simp only [Game.completeWhen, bind_eq_ok, pure_eq_ok, Prod.exists, Prod.mk.injEq]
      constructor
      · rintro ⟨final', outcome, h, rfl, rfl⟩
        exact .inr ⟨why, outcome, rfl, h, rfl⟩
      · rintro (⟨h, -⟩ | ⟨_, outcome, h, hState, rfl⟩)
        · cases h
        · cases h
          exact ⟨final, outcome, hState, rfl, rfl⟩

/-- Completion changes the scores, the phase and the result, nothing else. -/
theorem completeState_frame {g : Game} {mid final : PublicGameState} {racks : List Rack}
    {reason : TerminalReason} {result : GameResult}
    (h : g.completeState mid racks reason = .ok (final, result)) :
    final = { mid with scores := final.scores, phase := final.phase, result := final.result } := by
  obtain ⟨_, _, -, -, -, rfl⟩ := completeState_eq_ok.mp h
  rfl

theorem completeWhen_frame {g : Game} {mid final : PublicGameState} {racks : List Rack}
    {reason : Option TerminalReason} {result : Option GameResult}
    (h : g.completeWhen mid racks reason = .ok (final, result)) :
    final = { mid with scores := final.scores, phase := final.phase, result := final.result } := by
  rcases completeWhen_eq_ok.mp h with ⟨-, rfl, -⟩ | ⟨_, _, -, hState, -⟩
  · rfl
  · exact completeState_frame hState

/-! Placements. -/

/-- Values computed by an accepted placement. -/
structure PlacementStep where
  prepared : PreparedMove
  updatedScore : Score
  version : UInt64
  turns : UInt8
  refill : Nat
  nextPlayer : Player
  counts : List UInt8
  bagCount : UInt16
  final : PublicGameState
  result : Option GameResult
  drawCount : UInt8

namespace PlacementStep

variable (d : PlacementStep) (platform : Platform) (g : Game) (player : Player)

def ids : List TileId := d.prepared.placements.map (·.tileId)

def redraw : Redraw := g.redraw player d.ids d.refill

/-- The state before completion. -/
def mid : PublicGameState :=
  { g.state with
    board := placeOnBoard g.state.board d.prepared.placements
    scores := g.state.scores.set player.index d.updatedScore
    currentPlayer := d.nextPlayer
    version := d.version
    scorelessTurns := d.turns
    rackCounts := d.counts
    bagCount := d.bagCount }

def reason : Option TerminalReason :=
  g.placementReason player (d.redraw g player).bag
    ((d.redraw g player).racks.getD player.index ⟨[]⟩) d.turns

structure Valid (placements : List Placement) : Prop where
  phase : g.state.phase = .active
  turn : player = g.state.currentPlayer
  prepare : g.preparePlacement platform player placements = .ok d.prepared
  scoreFits : d.prepared.score.toNat < 2 ^ 31
  score : d.updatedScore.value.toInt =
    (g.state.scores.getD player.index .zero).value.toInt + d.prepared.score.toNat
  version : d.version.toNat = g.state.version.toNat + 1
  turns : nextScoreless g.state.scorelessTurns d.prepared.score = .ok d.turns
  refill : ((g.rack player).without d.ids).tiles.length + d.refill =
    g.ruleset.game.rackCapacity.toNat
  nextPlayer : player.next g.racks.length = some d.nextPlayer
  counts : rackCounts (d.redraw g player).racks = .ok d.counts
  bagCount : d.bagCount.toNat = (d.redraw g player).bag.tiles.length
  conserved : checkConservation platform g.ruleset (d.mid g player) (d.redraw g player).bag
    (d.redraw g player).racks = .ok ()
  completed : g.completeWhen (d.mid g player) (d.redraw g player).racks (d.reason g player) =
    .ok (d.final, d.result)
  drawCount : d.drawCount.toNat = (d.redraw g player).drawn.length

def event : GameEvent where
  sequence := d.version
  visibility := .publicEvent
  lexicon := d.final.lexicon
  kind := .movePlayed player d.prepared.placements d.prepared.words d.prepared.bingoBonus
    d.prepared.score d.drawCount d.final.rackCounts d.final.bagCount d.final.scores
    d.final.scorelessTurns d.final.currentPlayer d.result

def privateEvent : PrivateGameEvent where
  sequence := d.version
  visibility := .seatPrivate player
  seat := player
  removed := d.prepared.played
  drawn := (d.redraw g player).drawn
  rackAfter := (d.redraw g player).racks.getD player.index ⟨[]⟩

def game : Game :=
  { g with
    bag := (d.redraw g player).bag
    racks := (d.redraw g player).racks
    state := d.final
    events := g.events ++ [d.event player]
    privateEvents := g.privateEvents ++ [d.privateEvent g player] }

end PlacementStep

theorem playTiles_eq_ok {platform : Platform} {g g' : Game} {player : Player} {version : UInt64}
    {placements : List Placement} {event : GameEvent} :
    g.playTiles platform player version placements = .ok (g', event) ↔
      version = g.state.version ∧ ∃ d : PlacementStep, d.Valid platform g player placements ∧
        g' = d.game g player ∧ event = d.event player := by
  simp only [Game.playTiles, bind_eq_ok, validateAction_eq_ok, okOr_eq_ok, Checked.toI32_eq_some,
    Score.checkedAdd_eq_some, nextVersion_eq_ok, refillCount_eq_ok, nextPlayer_eq_ok,
    countU16_eq_ok, countU8_eq_ok, Prod.exists, pure_eq_ok, Prod.mk.injEq]
  constructor
  · rintro ⟨-, ⟨hPhase, hTurn, hVersion⟩, prepared, hPrepare, delta, hDelta, updatedScore, hScore,
      newVersion, hNew, turns, hTurns, refill, hRefill, next, hNext, counts, hCounts, bagCount,
      hBag, _, hConserved, final, result, hCompleted, drawCount, hDraw, rfl, rfl⟩
    refine ⟨hVersion, ⟨prepared, updatedScore, newVersion, turns, refill, next, counts, bagCount,
      final, result, drawCount⟩, ?_, rfl, rfl⟩
    have hFits : prepared.score.toNat < 2 ^ 31 := by
      have := delta.toInt_lt
      omega
    exact ⟨hPhase, hTurn, hPrepare, hFits, by rw [hScore, hDelta], hNew, hTurns, hRefill, hNext,
      hCounts, hBag, hConserved, hCompleted, hDraw⟩
  · rintro ⟨hVersion, d, h, rfl, rfl⟩
    have hFits := h.scoreFits
    obtain ⟨delta, hDelta⟩ : ∃ delta : Int32, delta.toInt = d.prepared.score.toNat :=
      Checked.exists_i32 (by omega) (by omega)
    exact ⟨(), ⟨h.phase, h.turn, hVersion⟩, d.prepared, h.prepare, delta, hDelta, d.updatedScore,
      by rw [h.score, hDelta], d.version, h.version, d.turns, h.turns, d.refill, h.refill,
      d.nextPlayer, h.nextPlayer, d.counts, h.counts, d.bagCount, h.bagCount, (), h.conserved,
      d.final, d.result, h.completed, d.drawCount, h.drawCount, rfl, rfl⟩

/-! Exchanges. -/

/-- Values computed by an accepted exchange. -/
structure ExchangeStep where
  returned : List PhysicalTile
  version : UInt64
  nextPlayer : Player
  turns : UInt8
  counts : List UInt8
  bagCount : UInt16
  final : PublicGameState
  result : Option GameResult

namespace ExchangeStep

variable (d : ExchangeStep) (platform : Platform) (g : Game) (player : Player)
  (tileIds : List TileId)

def redraw : Redraw := g.redraw player (sortIds tileIds) d.returned.length

/-- The bag after the returned tiles are shuffled in. -/
def bag : Bag :=
  returnTilesToBag platform (d.redraw g player tileIds).bag d.returned g.seed d.version

def mid : PublicGameState :=
  { g.state with
    version := d.version
    currentPlayer := d.nextPlayer
    scorelessTurns := d.turns
    rackCounts := d.counts
    bagCount := d.bagCount }

structure Valid : Prop where
  phase : g.state.phase = .active
  turn : player = g.state.currentPlayer
  nonempty : tileIds ≠ []
  distinct : findDuplicate (sortIds tileIds) = none
  bagFits : g.bag.tiles.length < 2 ^ 16
  minimum : g.ruleset.game.exchangeMinimum.toNat ≤ g.bag.tiles.length
  owned : (sortIds tileIds).mapM (g.ownedTile player) = .ok d.returned
  version : d.version.toNat = g.state.version.toNat + 1
  nextPlayer : player.next g.racks.length = some d.nextPlayer
  turns : d.turns.toNat = g.state.scorelessTurns.toNat + 1
  counts : rackCounts (d.redraw g player tileIds).racks = .ok d.counts
  bagCount : d.bagCount.toNat = (d.bag platform g player tileIds).tiles.length
  conserved : checkConservation platform g.ruleset (d.mid g) (d.bag platform g player tileIds)
    (d.redraw g player tileIds).racks = .ok ()
  completed : g.completeWhen (d.mid g) (d.redraw g player tileIds).racks
    (g.scorelessReason d.turns) = .ok (d.final, d.result)

def event : GameEvent where
  sequence := d.version
  visibility := .publicEvent
  lexicon := d.final.lexicon
  kind := .exchanged player (sortIds tileIds) d.final.rackCounts d.final.bagCount
    d.final.scorelessTurns d.final.currentPlayer d.result

def privateEvent : PrivateGameEvent where
  sequence := d.version
  visibility := .seatPrivate player
  seat := player
  removed := d.returned
  drawn := (d.redraw g player tileIds).drawn
  rackAfter := (d.redraw g player tileIds).racks.getD player.index ⟨[]⟩

def game : Game :=
  { g with
    bag := d.bag platform g player tileIds
    racks := (d.redraw g player tileIds).racks
    state := d.final
    events := g.events ++ [d.event player tileIds]
    privateEvents := g.privateEvents ++ [d.privateEvent g player tileIds] }

end ExchangeStep

theorem rejectDuplicate_eq_ok {tileIds : List TileId} {u : Unit} :
    rejectDuplicate tileIds = .ok u ↔ findDuplicate tileIds = none := by
  cases h : findDuplicate tileIds <;> simp [rejectDuplicate, h]

theorem exchangeTiles_eq_ok {platform : Platform} {g g' : Game} {player : Player}
    {version : UInt64} {tileIds : List TileId} {event : GameEvent} :
    g.exchangeTiles platform player version tileIds = .ok (g', event) ↔
      version = g.state.version ∧ ∃ d : ExchangeStep, d.Valid platform g player tileIds ∧
        g' = d.game platform g player tileIds ∧ event = d.event player tileIds := by
  simp only [Game.exchangeTiles, bind_eq_ok, validateAction_eq_ok, reject_eq_ok,
    rejectDuplicate_eq_ok, countU16_eq_ok, nextVersion_eq_ok, nextPlayer_eq_ok, okOr_eq_ok,
    Checked.addU8_eq_some, Prod.exists, pure_eq_ok, Prod.mk.injEq,
    UInt16.lt_iff_toNat_lt, Nat.not_lt]
  constructor
  · rintro ⟨-, ⟨hPhase, hTurn, hVersion⟩, -, hNonempty, -, hDistinct, count, hCount, -, hMinimum,
      returned, hOwned, newVersion, hNew, next, hNext, turns, hTurns, counts, hCounts, bagCount,
      hBag, _, hConserved, final, result, hCompleted, rfl, rfl⟩
    have hFits := count.toNat_lt
    rw [hCount] at hFits hMinimum
    exact ⟨hVersion, ⟨returned, newVersion, next, turns, counts, bagCount, final, result⟩,
      ⟨hPhase, hTurn, hNonempty, hDistinct, hFits, hMinimum, hOwned, hNew, hNext, hTurns, hCounts,
        hBag, hConserved, hCompleted⟩, rfl, rfl⟩
  · rintro ⟨hVersion, d, h, rfl, rfl⟩
    obtain ⟨count, hCount⟩ := Checked.exists_u16 h.bagFits
    exact ⟨(), ⟨h.phase, h.turn, hVersion⟩, (), h.nonempty, (), h.distinct, _, hCount, (),
      by rw [hCount]; exact h.minimum, d.returned, h.owned, d.version, h.version, d.nextPlayer,
      h.nextPlayer, d.turns, h.turns, d.counts, h.counts, d.bagCount, h.bagCount, (), h.conserved,
      d.final, d.result, h.completed, rfl, rfl⟩

/-! Passes and resignations. -/

/-- Values computed by an accepted pass. -/
structure PassStep where
  version : UInt64
  nextPlayer : Player
  turns : UInt8
  final : PublicGameState
  result : Option GameResult

namespace PassStep

variable (d : PassStep) (g : Game) (player : Player)

def mid : PublicGameState :=
  { g.state with
    version := d.version
    currentPlayer := d.nextPlayer
    scorelessTurns := d.turns }

structure Valid : Prop where
  phase : g.state.phase = .active
  turn : player = g.state.currentPlayer
  version : d.version.toNat = g.state.version.toNat + 1
  nextPlayer : player.next g.racks.length = some d.nextPlayer
  turns : d.turns.toNat = g.state.scorelessTurns.toNat + 1
  completed : g.completeWhen (d.mid g) g.racks (g.scorelessReason d.turns) =
    .ok (d.final, d.result)

def event : GameEvent where
  sequence := d.version
  visibility := .publicEvent
  lexicon := d.final.lexicon
  kind := .passed player d.final.scorelessTurns d.final.currentPlayer d.result

def game : Game := { g with state := d.final, events := g.events ++ [d.event player] }

end PassStep

theorem pass_eq_ok {g g' : Game} {player : Player} {version : UInt64} {event : GameEvent} :
    g.pass player version = .ok (g', event) ↔
      version = g.state.version ∧ ∃ d : PassStep, d.Valid g player ∧
        g' = d.game g player ∧ event = d.event player := by
  simp only [Game.pass, bind_eq_ok, validateAction_eq_ok, nextVersion_eq_ok, nextPlayer_eq_ok,
    okOr_eq_ok, Checked.addU8_eq_some, Prod.exists, pure_eq_ok, Prod.mk.injEq]
  constructor
  · rintro ⟨-, ⟨hPhase, hTurn, hVersion⟩, newVersion, hNew, next, hNext, turns, hTurns, final,
      result, hCompleted, rfl, rfl⟩
    exact ⟨hVersion, ⟨newVersion, next, turns, final, result⟩,
      ⟨hPhase, hTurn, hNew, hNext, hTurns, hCompleted⟩, rfl, rfl⟩
  · rintro ⟨hVersion, d, h, rfl, rfl⟩
    exact ⟨(), ⟨h.phase, h.turn, hVersion⟩, d.version, h.version, d.nextPlayer, h.nextPlayer,
      d.turns, h.turns, d.final, d.result, h.completed, rfl, rfl⟩

/-- Values computed by an accepted resignation. -/
structure ResignStep where
  version : UInt64
  final : PublicGameState
  result : GameResult

namespace ResignStep

variable (d : ResignStep) (g : Game) (player : Player)

def mid : PublicGameState := { g.state with version := d.version }

structure Valid : Prop where
  phase : g.state.phase = .active
  turn : player = g.state.currentPlayer
  version : d.version.toNat = g.state.version.toNat + 1
  completed : g.completeState (d.mid g) g.racks (.resignation player) = .ok (d.final, d.result)

def event : GameEvent where
  sequence := d.version
  visibility := .publicEvent
  lexicon := d.final.lexicon
  kind := .resigned player d.result

def game : Game := { g with state := d.final, events := g.events ++ [d.event player] }

end ResignStep

theorem resign_eq_ok {g g' : Game} {player : Player} {version : UInt64} {event : GameEvent} :
    g.resign player version = .ok (g', event) ↔
      version = g.state.version ∧ ∃ d : ResignStep, d.Valid g player ∧
        g' = d.game g player ∧ event = d.event player := by
  simp only [Game.resign, bind_eq_ok, validateAction_eq_ok, nextVersion_eq_ok, Prod.exists,
    pure_eq_ok, Prod.mk.injEq]
  constructor
  · rintro ⟨-, ⟨hPhase, hTurn, hVersion⟩, newVersion, hNew, final, result, hCompleted, rfl, rfl⟩
    exact ⟨hVersion, ⟨newVersion, final, result⟩, ⟨hPhase, hTurn, hNew, hCompleted⟩, rfl, rfl⟩
  · rintro ⟨hVersion, d, h, rfl, rfl⟩
    exact ⟨(), ⟨h.phase, h.turn, hVersion⟩, d.version, h.version, d.final, d.result, h.completed,
      rfl, rfl⟩

/-! Creation. -/

/-- Values computed by an accepted creation. -/
structure Creation where
  validator : WordValidator
  deal : InitialDeal
  counts : List UInt8
  bagCount : UInt16

namespace Creation

variable (d : Creation) (platform : Platform) (gameId : String) (ruleset : Ruleset)
  (seed : GameSeed) (mode : GameMode) (playerCount : Nat)

structure Valid : Prop where
  builtin : ruleset = Ruleset.builtin ruleset.id
  lexicon : ruleset.lexicon = d.validator.identity
  deal : prepareInitialDealForPlayers platform ruleset seed playerCount = .ok d.deal
  counts : rackCounts d.deal.racks = .ok d.counts
  bagCount : d.bagCount.toNat = d.deal.bag.tiles.length

def state : PublicGameState where
  gameId := gameId
  rulesetId := ruleset.id
  ruleset := ruleset.identity platform
  lexicon := d.validator.identity
  mode := mode
  rngAlgorithm := d.deal.algorithm
  seedCommitment := d.deal.commitment
  board := List.replicate boardSquares none
  scores := List.replicate playerCount .zero
  currentPlayer := .one
  version := 0
  scorelessTurns := 0
  rackCounts := d.counts
  bagCount := d.bagCount
  phase := .active
  result := none

def event : GameEvent where
  sequence := 0
  visibility := .publicEvent
  lexicon := d.validator.identity
  kind := .created gameId ruleset mode d.deal.algorithm d.deal.commitment d.counts d.bagCount

def game : Game where
  ruleset := ruleset
  lexicon := d.validator
  seed := seed
  bag := d.deal.bag
  racks := d.deal.racks
  state := d.state platform gameId ruleset mode playerCount
  events := [d.event gameId ruleset mode]
  privateEvents := []

end Creation

theorem createWithModeAndPlayers_eq_ok {platform : Platform} {gameId : String} {ruleset : Ruleset}
    {lexicon : Option WordValidator} {seed : GameSeed} {mode : GameMode} {playerCount : Nat}
    {g : Game} :
    Game.createWithModeAndPlayers platform gameId ruleset lexicon seed mode playerCount = .ok g ↔
      ∃ d : Creation, lexicon = some d.validator ∧ d.Valid platform ruleset seed playerCount ∧
        g = d.game platform gameId ruleset seed mode playerCount := by
  simp only [Game.createWithModeAndPlayers, bind_eq_ok, validate_eq_ok, okOr_eq_ok,
    ensureLexicon_eq_ok, mapErr_eq_ok, countU16_eq_ok, pure_eq_ok]
  constructor
  · rintro ⟨-, hRuleset, validator, hLexicon, -, ⟨-, hIdentity⟩, deal, hDeal, counts, hCounts,
      bagCount, hBag, rfl⟩
    exact ⟨⟨validator, deal, counts, bagCount⟩, hLexicon,
      ⟨hRuleset, hIdentity, hDeal, hCounts, hBag⟩, rfl⟩
  · rintro ⟨d, hLexicon, h, rfl⟩
    exact ⟨(), h.builtin, d.validator, hLexicon, (), ⟨h.builtin, h.lexicon⟩, d.deal, h.deal,
      d.counts, h.counts, d.bagCount, h.bagCount, rfl⟩

/-! What the four actions have in common. -/

/-- The part of an accepted action that does not depend on its kind: private
tiles, the state before completion, the terminal rule and what is recorded. -/
structure Commit where
  bag : Bag
  racks : List Rack
  mid : PublicGameState
  reason : Option TerminalReason
  final : PublicGameState
  result : Option GameResult
  kind : GameEventKind
  privateEvents : List PrivateGameEvent

namespace Commit

variable (c : Commit) (g : Game) (player : Player)

structure Valid : Prop where
  phase : g.state.phase = .active
  turn : player = g.state.currentPlayer
  version : c.mid.version.toNat = g.state.version.toNat + 1
  frame : c.mid = { g.state with
    board := c.mid.board
    scores := c.mid.scores
    currentPlayer := c.mid.currentPlayer
    version := c.mid.version
    scorelessTurns := c.mid.scorelessTurns
    rackCounts := c.mid.rackCounts
    bagCount := c.mid.bagCount }
  racks_length : c.racks.length = g.racks.length
  scores_length : c.mid.scores.length = g.state.scores.length
  board_length : c.mid.board.length = g.state.board.length
  nextPlayer : c.mid.currentPlayer = g.state.currentPlayer ∨
    g.state.currentPlayer.next g.racks.length = some c.mid.currentPlayer
  actor : ∀ seat, c.reason = some (.rackEmptied seat) ∨ c.reason = some (.resignation seat) →
    seat = player
  completed : g.completeWhen c.mid c.racks c.reason = .ok (c.final, c.result)
  created : c.kind.isCreated = false
  privateEvents : ∀ e ∈ c.privateEvents, e.sequence = c.mid.version

def event : GameEvent where
  sequence := c.mid.version
  visibility := .publicEvent
  lexicon := c.final.lexicon
  kind := c.kind

def game : Game :=
  { g with
    bag := c.bag
    racks := c.racks
    state := c.final
    events := g.events ++ [c.event]
    privateEvents := g.privateEvents ++ c.privateEvents }

end Commit

theorem Redraw.length_racks (g : Game) (player : Player) (ids : List TileId) (count : Nat) :
    (g.redraw player ids count).racks.length = g.racks.length := List.length_set

/-- The scoreless-turn rule names no seat. -/
theorem scorelessReason_actor {g : Game} {turns : UInt8} {seat : Seat} :
    g.scorelessReason turns ≠ some (.rackEmptied seat) ∧
      g.scorelessReason turns ≠ some (.resignation seat) := by
  unfold Game.scorelessReason
  split <;> simp

/-- The placement rule names only the acting seat. -/
theorem placementReason_actor {g : Game} {player seat : Seat} {bag : Bag} {rack : Rack}
    {turns : UInt8} (h : g.placementReason player bag rack turns = some (.rackEmptied seat) ∨
      g.placementReason player bag rack turns = some (.resignation seat)) : seat = player := by
  unfold Game.placementReason at h
  split at h
  · rcases h with h | h
    · cases h
      rfl
    · cases h
  · rcases h with h | h
    · exact absurd h scorelessReason_actor.1
    · exact absurd h scorelessReason_actor.2

theorem placeOnBoard_length (board : List (Option BoardTile)) (placements : List Placement) :
    (placeOnBoard board placements).length = board.length := by
  induction placements generalizing board with
  | nil => rfl
  | cons p placements ih => exact (ih _).trans List.length_set

def PlacementStep.commit (d : PlacementStep) (g : Game) (player : Player) : Commit where
  bag := (d.redraw g player).bag
  racks := (d.redraw g player).racks
  mid := d.mid g player
  reason := d.reason g player
  final := d.final
  result := d.result
  kind := (d.event player).kind
  privateEvents := [d.privateEvent g player]

def ExchangeStep.commit (d : ExchangeStep) (platform : Platform) (g : Game) (player : Player)
    (tileIds : List TileId) : Commit where
  bag := d.bag platform g player tileIds
  racks := (d.redraw g player tileIds).racks
  mid := d.mid g
  reason := g.scorelessReason d.turns
  final := d.final
  result := d.result
  kind := (d.event player tileIds).kind
  privateEvents := [d.privateEvent g player tileIds]

def PassStep.commit (d : PassStep) (g : Game) (player : Player) : Commit where
  bag := g.bag
  racks := g.racks
  mid := d.mid g
  reason := g.scorelessReason d.turns
  final := d.final
  result := d.result
  kind := (d.event player).kind
  privateEvents := []

def ResignStep.commit (d : ResignStep) (g : Game) (player : Player) : Commit where
  bag := g.bag
  racks := g.racks
  mid := d.mid g
  reason := some (.resignation player)
  final := d.final
  result := some d.result
  kind := (d.event player).kind
  privateEvents := []

section

variable {platform : Platform} {g : Game} {player : Player}

theorem PlacementStep.Valid.commit {d : PlacementStep} {placements : List Placement}
    (h : d.Valid platform g player placements) : (d.commit g player).Valid g player where
  phase := h.phase
  turn := h.turn
  version := h.version
  frame := rfl
  racks_length := Redraw.length_racks ..
  scores_length := List.length_set
  board_length := placeOnBoard_length ..
  nextPlayer := .inr (h.turn ▸ h.nextPlayer)
  actor := fun _ => placementReason_actor
  completed := h.completed
  created := rfl
  privateEvents := by simp [PlacementStep.commit, PlacementStep.privateEvent, PlacementStep.mid]

theorem ExchangeStep.Valid.commit {d : ExchangeStep} {tileIds : List TileId}
    (h : d.Valid platform g player tileIds) :
    (d.commit platform g player tileIds).Valid g player where
  phase := h.phase
  turn := h.turn
  version := h.version
  frame := rfl
  racks_length := Redraw.length_racks ..
  scores_length := rfl
  board_length := rfl
  nextPlayer := .inr (h.turn ▸ h.nextPlayer)
  actor := fun _ hReason => absurd hReason (not_or.mpr scorelessReason_actor)
  completed := h.completed
  created := rfl
  privateEvents := by simp [ExchangeStep.commit, ExchangeStep.privateEvent, ExchangeStep.mid]

theorem PassStep.Valid.commit {d : PassStep} (h : d.Valid g player) :
    (d.commit g player).Valid g player where
  phase := h.phase
  turn := h.turn
  version := h.version
  frame := rfl
  racks_length := rfl
  scores_length := rfl
  board_length := rfl
  nextPlayer := .inr (h.turn ▸ h.nextPlayer)
  actor := fun _ hReason => absurd hReason (not_or.mpr scorelessReason_actor)
  completed := h.completed
  created := rfl
  privateEvents := by simp [PassStep.commit]

theorem ResignStep.Valid.commit {d : ResignStep} (h : d.Valid g player) :
    (d.commit g player).Valid g player where
  phase := h.phase
  turn := h.turn
  version := h.version
  frame := rfl
  racks_length := rfl
  scores_length := rfl
  board_length := rfl
  nextPlayer := .inl rfl
  actor := by simp [ResignStep.commit, eq_comm]
  completed := completeWhen_eq_ok.mpr (.inr ⟨_, d.result, rfl, h.completed, rfl⟩)
  created := rfl
  privateEvents := by simp [ResignStep.commit]

theorem PassStep.game_eq (d : PassStep) : d.game g player = (d.commit g player).game g := by
  simp [PassStep.game, PassStep.commit, Commit.game, Commit.event, PassStep.event, PassStep.mid]

theorem ResignStep.game_eq (d : ResignStep) : d.game g player = (d.commit g player).game g := by
  simp [ResignStep.game, ResignStep.commit, Commit.game, Commit.event, ResignStep.event,
    ResignStep.mid]

end

/-- An accepted action of a seat with the game and the event it leads to. -/
inductive Accepted (platform : Platform) (g : Game) (player : Player) :
    Move → Game → GameEvent → Prop where
  | place {placements : List Placement} (d : PlacementStep)
      (valid : d.Valid platform g player placements) :
      Accepted platform g player (.place placements) (d.game g player) (d.event player)
  | exchange {tileIds : List TileId} (d : ExchangeStep)
      (valid : d.Valid platform g player tileIds) :
      Accepted platform g player (.exchange tileIds) (d.game platform g player tileIds)
        (d.event player tileIds)
  | pass (d : PassStep) (valid : d.Valid g player) :
      Accepted platform g player .pass (d.game g player) (d.event player)
  | resign (d : ResignStep) (valid : d.Valid g player) :
      Accepted platform g player .resign (d.game g player) (d.event player)

/-- The handler accepts exactly the actions described above, at the current
version only. -/
theorem applyMove_eq_ok {platform : Platform} {g g' : Game} {player : Player} {version : UInt64}
    {action : Move} {event : GameEvent} :
    g.applyMove platform player version action = .ok (g', event) ↔
      version = g.state.version ∧ Accepted platform g player action g' event := by
  cases action with
  | place placements =>
      rw [Game.applyMove, playTiles_eq_ok]
      refine and_congr_right fun _ => ⟨?_, ?_⟩
      · rintro ⟨d, h, rfl, rfl⟩
        exact .place d h
      · rintro ⟨d, h⟩
        exact ⟨d, h, rfl, rfl⟩
  | exchange tileIds =>
      rw [Game.applyMove, exchangeTiles_eq_ok]
      refine and_congr_right fun _ => ⟨?_, ?_⟩
      · rintro ⟨d, h, rfl, rfl⟩
        exact .exchange d h
      · rintro (_ | ⟨d, h⟩)
        exact ⟨d, h, rfl, rfl⟩
  | pass =>
      rw [Game.applyMove, pass_eq_ok]
      refine and_congr_right fun _ => ⟨?_, ?_⟩
      · rintro ⟨d, h, rfl, rfl⟩
        exact .pass d h
      · rintro (_ | _ | ⟨d, h⟩)
        exact ⟨d, h, rfl, rfl⟩
  | resign =>
      rw [Game.applyMove, resign_eq_ok]
      refine and_congr_right fun _ => ⟨?_, ?_⟩
      · rintro ⟨d, h, rfl, rfl⟩
        exact .resign d h
      · rintro (_ | _ | _ | ⟨d, h⟩)
        exact ⟨d, h, rfl, rfl⟩

theorem Accepted.commit {platform : Platform} {g g' : Game} {player : Player} {action : Move}
    {event : GameEvent} (h : Accepted platform g player action g' event) :
    ∃ c : Commit, c.Valid g player ∧ g' = c.game g ∧ event = c.event := by
  cases h with
  | place d valid => exact ⟨d.commit g player, valid.commit, rfl, rfl⟩
  | exchange d valid => exact ⟨d.commit platform g player _, valid.commit, rfl, rfl⟩
  | pass d valid => exact ⟨d.commit g player, valid.commit, d.game_eq, rfl⟩
  | resign d valid => exact ⟨d.commit g player, valid.commit, d.game_eq, rfl⟩

/-- A game some creation and some accepted actions lead to. -/
abbrev Reachable (platform : Platform) (g : Game) : Prop := (engine platform).Reachable g

theorem accepts_iff {platform : Platform} {g g' : Game} :
    (engine platform).Accepts g g' ↔
      ∃ player action event, Accepted platform g player action g' event := by
  constructor
  · rintro ⟨call, event, h⟩
    exact ⟨call.player, call.action, event, (applyMove_eq_ok.mp h).2⟩
  · rintro ⟨player, action, event, h⟩
    exact ⟨⟨player, g.state.version, action⟩, event, applyMove_eq_ok.mpr ⟨rfl, h⟩⟩

theorem Reachable.accept {platform : Platform} {g g' : Game} {player : Player} {action : Move}
    {event : GameEvent} (h : Reachable platform g)
    (last : Accepted platform g player action g' event) : Reachable platform g' :=
  System.Reachable.accepted h (accepts_iff.mpr ⟨player, action, event, last⟩)

/-- An invariant of creation and of every accepted action holds in every
reachable game. -/
theorem Reachable.invariant {platform : Platform} (inv : Game → Prop)
    (create : ∀ (d : Creation) gameId ruleset seed mode playerCount,
      d.Valid platform ruleset seed playerCount →
        inv (d.game platform gameId ruleset seed mode playerCount))
    (step : ∀ g player action g' event, Reachable platform g → inv g →
      Accepted platform g player action g' event → inv g')
    {g : Game} (h : Reachable platform g) : inv g := by
  refine System.Reachable.induction ?_ ?_ h
  · rintro s ⟨gameId, ruleset, lexicon, seed, mode, playerCount, hCreate⟩
    obtain ⟨d, -, hValid, rfl⟩ := createWithModeAndPlayers_eq_ok.mp hCreate
    exact create d gameId ruleset seed mode playerCount hValid
  · intro s t hReach hInv hStep
    obtain ⟨player, action, event, hAccepted⟩ := accepts_iff.mp hStep
    exact step s player action t event hReach hInv hAccepted

/-- A run keeps the rules, the dictionary and the seed it started with. -/
theorem Run.kept {platform : Platform} {g g' : Game} (h : (engine platform).Run g g') :
    g'.ruleset = g.ruleset ∧ g'.lexicon = g.lexicon ∧ g'.seed = g.seed := by
  induction h with
  | refl => exact ⟨rfl, rfl, rfl⟩
  | snoc _ last ih =>
      obtain ⟨player, action, event, hAccepted⟩ := accepts_iff.mp last
      obtain ⟨c, -, rfl, -⟩ := hAccepted.commit
      exact ih

end WordArena.Engine
