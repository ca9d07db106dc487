import Mathlib.Algebra.Group.Action.Defs
import WordArena.Engine.Ledger
import WordArena.Engine.Scoring
import WordArena.Engine.Stream

/-! No internal failure. Cumulative scores are bounded by the tiles on the
board, versions by the measure and counts by the distribution, so every
checked operation of an action that passed its validation succeeds. -/
namespace WordArena.Engine

open Fallible

/-! Bounds over whole runs. -/

theorem pointsOf_le_points (kind : GameEventKind) (seat : Seat) : kind.pointsOf seat ≤ kind.points := by
  unfold GameEventKind.pointsOf GameEventKind.points
  cases kind <;> simp only [le_refl]
  split
  · exact le_refl _
  · exact Nat.zero_le _

theorem Accepted.points_le {platform : Platform} {g g' : Game} {player : Player} {action : Move}
    {event : GameEvent} (h : Accepted platform g player action g' event) (hShape : Shape g)
    (hFilled : Filled g) : event.kind.points ≤ moveLimit := by
  cases h with
  | place d valid =>
      obtain ⟨o, hLegal⟩ := legal_of_preparePlacement valid.prepare
      exact hLegal.score_le hShape hFilled
  | exchange d valid => exact Nat.zero_le _
  | pass d valid => exact Nat.zero_le _
  | resign d valid => exact Nat.zero_le _

/-- Every tile on the board pays for at most one move. -/
theorem Reachable.earned_le {platform : Platform} {g : Game} (h : Reachable platform g)
    (seat : Seat) : g.earned seat ≤ moveLimit * g.tilesOnBoard := by
  refine Reachable.invariant (fun g => g.earned seat ≤ moveLimit * g.tilesOnBoard) ?_ ?_ h
  · intro d gameId ruleset seed mode playerCount _
    exact Nat.zero_le _
  · intro g player action g' event hReachable hEarned hAccepted
    have hPoints := hAccepted.points_le hReachable.shape hReachable.filled
    have hSeat := pointsOf_le_points event.kind seat
    have hAdvance := hAccepted.advance hReachable.shape
    have hAfter : g'.earned seat = g.earned seat + event.kind.pointsOf seat := by
      obtain ⟨c, -, rfl, rfl⟩ := hAccepted.commit
      exact c.earned g seat
    rw [hAfter]
    cases hAdvance with
    | scored _ hBoard _ =>
        have := Nat.mul_le_mul_left moveLimit hBoard
        rw [Nat.mul_succ] at this
        omega
    | scoreless hZero hBoard _ =>
        have := Nat.mul_le_mul_left moveLimit hBoard
        omega
    | resigned _ hZero hBoard _ =>
        rw [hBoard] at hEarned
        omega

/-- The largest score a game can reach before the end adjustment. -/
def scoreLimit : Nat := moveLimit * 103

theorem Reachable.tilesOnBoard_le {platform : Platform} {g : Game} (h : Reachable platform g) :
    g.tilesOnBoard ≤ 102 :=
  h.conserved.tilesOnBoard_le.trans h.shape.totalTiles.2

/-- Before the end a score is not negative and far from its width. -/
theorem Reachable.score_bounds {platform : Platform} {g : Game} (h : Reachable platform g)
    (hPhase : g.state.phase = .active) {seat : Seat} (hSeat : seat.index < g.racks.length) :
    0 ≤ scoreOf g.state.scores seat ∧ scoreOf g.state.scores seat ≤ moveLimit * 102 := by
  have hEarned := h.earned_le seat
  have hScore := (h.ledger.active hPhase).2 seat hSeat
  have hLimit := Nat.mul_le_mul_left moveLimit h.tilesOnBoard_le
  omega

/-! Racks. -/

theorem tileValue_le {ruleset : Ruleset} (hBuiltin : ruleset = Ruleset.builtin ruleset.id)
    (tile : PhysicalTile) : (tileValue ruleset tile).toNat ≤ 10 := by
  unfold tileValue
  split
  · rename_i token _
    cases hValue : ruleset.letterValue token.asStr with
    | none => exact Nat.zero_le 10
    | some value =>
        rw [hBuiltin] at hValue
        exact builtin_letterValue_le hValue
  · exact Nat.zero_le 10

theorem rackPoints_le {ruleset : Ruleset} (hBuiltin : ruleset = Ruleset.builtin ruleset.id)
    (rack : Rack) : rackPoints ruleset rack ≤ 10 * rack.tiles.length := by
  have hSum := List.sum_le_card_nsmul (rack.tiles.map fun tile => (tileValue ruleset tile).toNat) 10
    (by
      intro n hn
      obtain ⟨tile, -, rfl⟩ := List.mem_map.mp hn
      exact tileValue_le hBuiltin tile)
  rw [List.length_map, smul_eq_mul] at hSum
  rw [rackPoints]
  omega

theorem tablePoints_le {ruleset : Ruleset} (hBuiltin : ruleset = Ruleset.builtin ruleset.id)
    {racks : List Rack} (hRacks : ∀ rack ∈ racks, rack.tiles.length ≤ 7) {active : List Seat}
    (hActive : Seat.active racks.length = some active) :
    tablePoints ruleset racks active ≤ 280 := by
  have hSum := List.sum_le_card_nsmul
    (active.map fun seat => rackPoints ruleset (rackOf racks seat)) 70 (by
      intro n hn
      obtain ⟨seat, hSeat, rfl⟩ := List.mem_map.mp hn
      have hIndex := (Seat.mem_active hActive).mp hSeat
      have hMem : rackOf racks seat ∈ racks := by
        rw [rackOf, List.getD_eq_getElem?_getD, List.getElem?_eq_getElem hIndex, Option.getD_some]
        exact List.getElem_mem hIndex
      have := rackPoints_le hBuiltin (rackOf racks seat)
      have := hRacks _ hMem
      omega)
  obtain ⟨⟨-, hHigh⟩, -⟩ := Seat.active_eq_some.mp hActive
  rw [List.length_map, Seat.active_length hActive, smul_eq_mul] at hSum
  rw [tablePoints]
  omega

/-! Completion. -/

/-- A state whose scores are in range can be completed for any reason. -/
theorem completeState_succeeds {g : Game} (hBuiltin : g.ruleset = Ruleset.builtin g.ruleset.id)
    (mid : PublicGameState) {racks : List Rack} (hPlayers : 2 ≤ racks.length ∧ racks.length ≤ 4)
    (hScores : mid.scores.length = racks.length)
    (hRacks : ∀ rack ∈ racks, rack.tiles.length ≤ 7)
    (hBounds : ∀ seat : Seat, seat.index < racks.length →
      0 ≤ scoreOf mid.scores seat ∧ scoreOf mid.scores seat ≤ scoreLimit)
    (reason : TerminalReason)
    (hReason : ∀ seat, reason = .rackEmptied seat → seat.index < racks.length) :
    ∃ final result, g.completeState mid racks reason = .ok (final, result) := by
  obtain ⟨active, hActive⟩ : ∃ active, Seat.active racks.length = some active :=
    ⟨_, Seat.active_eq_some.mpr ⟨hPlayers, rfl⟩⟩
  have hPoints := tablePoints_le hBuiltin hRacks hActive
  have hLimit : scoreLimit = 810944750 := rfl
  obtain ⟨scores, hFinal⟩ := @finalScores_succeeds g.ruleset racks active mid.scores reason
    (hScores ▸ hActive) (fun seat hSeat => hScores ▸ hReason seat hSeat)
    (fun seat hSeat => by
      have := hBounds seat ((Seat.mem_active hActive).mp hSeat)
      omega)
    (fun seat hSeat => by
      have := hBounds seat ((Seat.mem_active hActive).mp hSeat)
      omega) (by omega)
  exact ⟨_, _, completeState_eq_ok.mpr ⟨active, scores, hActive, hFinal, rfl, rfl⟩⟩

theorem completeWhen_succeeds {g : Game} (hBuiltin : g.ruleset = Ruleset.builtin g.ruleset.id)
    (mid : PublicGameState) {racks : List Rack} (hPlayers : 2 ≤ racks.length ∧ racks.length ≤ 4)
    (hScores : mid.scores.length = racks.length)
    (hRacks : ∀ rack ∈ racks, rack.tiles.length ≤ 7)
    (hBounds : ∀ seat : Seat, seat.index < racks.length →
      0 ≤ scoreOf mid.scores seat ∧ scoreOf mid.scores seat ≤ scoreLimit)
    (reason : Option TerminalReason)
    (hReason : ∀ seat, reason = some (.rackEmptied seat) → seat.index < racks.length) :
    ∃ final result, g.completeWhen mid racks reason = .ok (final, result) := by
  cases reason with
  | none => exact ⟨mid, none, rfl⟩
  | some why =>
      obtain ⟨final, result, hState⟩ := completeState_succeeds hBuiltin mid hPlayers hScores hRacks
        hBounds why (fun seat hSeat => hReason seat (congrArg some hSeat))
      exact ⟨final, some result, completeWhen_eq_ok.mpr (.inr ⟨why, result, rfl, hState, rfl⟩)⟩

/-! What every action needs, whatever its kind. -/

theorem rackCounts_succeeds {racks : List Rack} (h : ∀ rack ∈ racks, rack.tiles.length ≤ 7) :
    ∃ counts, rackCounts racks = .ok counts := by
  refine mapM_succeeds fun rack hRack => ?_
  obtain ⟨count, hCount⟩ := Checked.exists_u8 ((h rack hRack).trans_lt (by decide))
  exact ⟨count, countU8_eq_ok.mpr hCount⟩

namespace Reachable

variable {platform : Platform} {g : Game}

theorem exists_version (h : Reachable platform g) :
    ∃ version : UInt64, version.toNat = g.state.version.toNat + 1 := by
  have hVersion := h.paced.version
  have hTiles := h.tilesOnBoard_le
  rw [h.shape.scorelessTurnLimit] at hVersion
  exact Checked.exists_u64 (by omega)

theorem exists_turns (h : Reachable platform g) (hPhase : g.state.phase = .active) :
    ∃ turns : UInt8, turns.toNat = g.state.scorelessTurns.toNat + 1 := by
  have hTurns := h.paced.turns hPhase
  rw [h.shape.scorelessTurnLimit] at hTurns
  exact Checked.exists_u8 (by omega)

theorem exists_nextScoreless (h : Reachable platform g) (hPhase : g.state.phase = .active)
    (score : UInt32) : ∃ turns, nextScoreless g.state.scorelessTurns score = .ok turns := by
  by_cases hZero : score = 0
  · obtain ⟨turns, hTurns⟩ := h.exists_turns hPhase
    exact ⟨turns, nextScoreless_eq_ok.mpr (.inl ⟨hZero, hTurns⟩)⟩
  · exact ⟨0, nextScoreless_eq_ok.mpr (.inr ⟨hZero, rfl⟩)⟩

theorem racks_le (h : Reachable platform g) : ∀ rack ∈ g.racks, rack.tiles.length ≤ 7 := by
  intro rack hRack
  have hCapacity := h.filled.capacity rack hRack
  rwa [h.shape.rackCapacity] at hCapacity

/-- Whatever is dropped from the acting rack, it can be refilled. -/
theorem exists_refill (h : Reachable platform g) (ids : List TileId) :
    ∃ refill, refill ≤ 7 ∧ ((g.rack g.state.currentPlayer).without ids).tiles.length + refill =
        g.ruleset.game.rackCapacity.toNat ∧
      ∀ rack ∈ (g.redraw g.state.currentPlayer ids refill).racks, rack.tiles.length ≤ 7 := by
  have hCapacity := h.shape.rackCapacity
  have hSeven := h.racks_le _ (rack_mem h.shape.turn)
  have hKept : ((g.rack g.state.currentPlayer).without ids).tiles.length ≤
      (g.rack g.state.currentPlayer).tiles.length := List.length_filter_le ..
  refine ⟨7 - ((g.rack g.state.currentPlayer).without ids).tiles.length, Nat.sub_le .., by omega,
    forall_mem_redraw ?_ h.racks_le⟩
  rw [Rack.extend, List.length_append, Bag.drawUpTo_length]
  omega

theorem bag_length_le (h : Reachable platform g) : g.bag.tiles.length ≤ 102 := by
  have hLength := h.conserved.tiles.length_eq
  have hTotal := h.shape.totalTiles
  rw [physicalTiles_length, locations, List.length_append, List.length_append] at hLength
  omega

/-- A state with the scores of the game can be completed over racks of legal
size. -/
theorem completes (h : Reachable platform g) (hPhase : g.state.phase = .active)
    (mid : PublicGameState) (hScores : mid.scores = g.state.scores) {racks : List Rack}
    (hLength : racks.length = g.racks.length) (hRacks : ∀ rack ∈ racks, rack.tiles.length ≤ 7)
    (reason : Option TerminalReason) (hReason : ∀ seat, reason ≠ some (.rackEmptied seat)) :
    ∃ final result, g.completeWhen mid racks reason = .ok (final, result) := by
  have hShape := h.shape
  refine completeWhen_succeeds hShape.builtin mid (hLength ▸ hShape.players)
    (by rw [hScores, hShape.scores, hLength]) hRacks ?_ reason
    (fun seat hSeat => absurd hSeat (hReason seat))
  intro seat hSeat
  have hBounds := h.score_bounds hPhase (hLength ▸ hSeat)
  rw [hScores, scoreLimit]
  omega

/-! The four actions. -/

theorem pass_valid (h : Reachable platform g) (hPhase : g.state.phase = .active) :
    ∃ d : PassStep, d.Valid g g.state.currentPlayer := by
  obtain ⟨version, hVersion⟩ := h.exists_version
  obtain ⟨turns, hTurns⟩ := h.exists_turns hPhase
  obtain ⟨next, hNext, -⟩ := Seat.next_eq_some g.state.currentPlayer h.shape.players
  obtain ⟨final, result, hCompleted⟩ := h.completes hPhase
    { g.state with version := version, currentPlayer := next, scorelessTurns := turns } rfl rfl
    h.racks_le (g.scorelessReason turns) fun seat => scorelessReason_actor.1
  exact ⟨⟨version, next, turns, final, result⟩, hPhase, rfl, hVersion, hNext, hTurns, hCompleted⟩

theorem resign_valid (h : Reachable platform g) (hPhase : g.state.phase = .active) :
    ∃ d : ResignStep, d.Valid g g.state.currentPlayer := by
  obtain ⟨version, hVersion⟩ := h.exists_version
  have hShape := h.shape
  obtain ⟨final, result, hCompleted⟩ := completeState_succeeds hShape.builtin
    { g.state with version := version } hShape.players hShape.scores h.racks_le
    (fun seat hSeat => by
      have hBounds := h.score_bounds hPhase hSeat
      rw [scoreLimit]
      exact ⟨hBounds.1, hBounds.2.trans (by omega)⟩)
    (.resignation g.state.currentPlayer) (fun seat hSeat => by cases hSeat)
  exact ⟨⟨version, final, result⟩, hPhase, rfl, hVersion, hCompleted⟩

/-- Distinct owned tiles can be exchanged while the bag is large enough. -/
theorem exchange_valid (h : Reachable platform g) (hPhase : g.state.phase = .active)
    {tileIds : List TileId} (hNonempty : tileIds ≠ []) (hDistinct : tileIds.Nodup)
    (hOwned : ∀ id ∈ tileIds, ∃ tile ∈ (g.rack g.state.currentPlayer).tiles, tile.id = id)
    (hMinimum : g.ruleset.game.exchangeMinimum.toNat ≤ g.bag.tiles.length) :
    ∃ d : ExchangeStep, d.Valid platform g g.state.currentPlayer tileIds := by
  have hShape := h.shape
  have hBag := h.bag_length_le
  obtain ⟨version, hVersion⟩ := h.exists_version
  obtain ⟨turns, hTurns⟩ := h.exists_turns hPhase
  obtain ⟨next, hNext, -⟩ := Seat.next_eq_some g.state.currentPlayer hShape.players
  obtain ⟨returned, hReturned⟩ :
      ∃ returned, (sortIds tileIds).mapM (g.ownedTile g.state.currentPlayer) = .ok returned := by
    refine mapM_succeeds fun id hId => ?_
    obtain ⟨tile, hTile, hTileId⟩ := hOwned id ((sortIds_perm tileIds).mem_iff.mp hId)
    obtain ⟨found, hFound⟩ := Option.isSome_iff_exists.mp
      ((@List.find?_isSome _ _ fun tile => tile.id = id).mpr ⟨tile, hTile, decide_eq_true hTileId⟩)
    exact ⟨found, okOr_eq_ok.mpr hFound⟩
  have hNoDuplicate := (findDuplicate_sortIds tileIds).mpr hDistinct
  have hTaken := (mapM_eq_ok.mp hReturned).imp fun _ _ => ownedTile_eq_ok
  have hRack := h.conserved.rack_length hShape
    ((findDuplicate_eq_none (sortIds_pairwise tileIds)).mp hNoDuplicate) hTaken
  have hSeven := h.racks_le _ (rack_mem hShape.turn)
  have hRacks : ∀ rack ∈ (g.redraw g.state.currentPlayer (sortIds tileIds) returned.length).racks,
      rack.tiles.length ≤ 7 := by
    refine forall_mem_redraw ?_ h.racks_le
    have hDrawn := g.bag.drawUpTo_length returned.length
    rw [Rack.extend, List.length_append]
    omega
  obtain ⟨counts, hCounts⟩ := rackCounts_succeeds hRacks
  have hTiles := @Conserved.exchange platform _ _ _ _ h.conserved hShape hShape.turn hNoDuplicate
    hReturned version returned.length
  obtain ⟨bagCount, hBagCount⟩ : ∃ bagCount : UInt16, bagCount.toNat =
      (returnTilesToBag platform (g.redraw g.state.currentPlayer (sortIds tileIds)
        returned.length).bag returned g.seed version).tiles.length := by
    have hLength := hTiles.length_eq
    have hTotal := hShape.totalTiles
    rw [physicalTiles_length, locations, List.length_append, List.length_append] at hLength
    exact Checked.exists_u16 (by omega)
  obtain ⟨final, result, hCompleted⟩ := h.completes hPhase
    { g.state with
      version := version, currentPlayer := next, scorelessTurns := turns,
      rackCounts := counts, bagCount := bagCount }
    rfl (Redraw.length_racks ..) hRacks (g.scorelessReason turns) fun seat => scorelessReason_actor.1
  refine ⟨⟨returned, version, next, turns, counts, bagCount, final, result⟩, hPhase, rfl, hNonempty,
    hNoDuplicate, by omega, hMinimum, hReturned, hVersion, hNext, hTurns, hCounts, hBagCount, ?_,
    hCompleted⟩
  exact (checkConservation_eq_ok hShape.builtin h.conserved.canonical).mpr hTiles

/-- A placement that passed its validation is never refused afterwards. -/
theorem place_valid (h : Reachable platform g) (hPhase : g.state.phase = .active)
    {placements : List Placement} {m : PreparedMove}
    (hPrepare : g.preparePlacement platform g.state.currentPlayer placements = .ok m) :
    ∃ d : PlacementStep, d.Valid platform g g.state.currentPlayer placements := by
  have hShape := h.shape
  obtain ⟨o, hLegal⟩ := legal_of_preparePlacement hPrepare
  have hPoints := hLegal.score_le hShape h.filled
  have hLimit : moveLimit = 7873250 := rfl
  have hFits : m.score.toNat < 2 ^ 31 := by omega
  obtain ⟨hLow, hHigh⟩ := h.score_bounds hPhase hShape.turn
  obtain ⟨score, hScore⟩ : ∃ score : Int32, score.toInt =
      scoreOf g.state.scores g.state.currentPlayer + m.score.toNat :=
    Checked.exists_i32 (by omega) (by omega)
  obtain ⟨version, hVersion⟩ := h.exists_version
  obtain ⟨turns, hTurns⟩ := h.exists_nextScoreless hPhase m.score
  obtain ⟨next, hNext, -⟩ := Seat.next_eq_some g.state.currentPlayer hShape.players
  obtain ⟨refill, hSmall, hRefill, hRacks⟩ := h.exists_refill (m.placements.map (·.tileId))
  have hDrawn := g.bag.drawUpTo_length refill
  have hRest := g.bag.drawUpTo_rest_length refill
  have hBag := h.bag_length_le
  obtain ⟨counts, hCounts⟩ := rackCounts_succeeds hRacks
  obtain ⟨bagCount, hBagCount⟩ : ∃ bagCount : UInt16, bagCount.toNat =
      (g.bag.drawUpTo refill).2.tiles.length :=
    Checked.exists_u16 (by omega)
  obtain ⟨drawCount, hDrawCount⟩ : ∃ drawCount : UInt8, drawCount.toNat =
      (g.bag.drawUpTo refill).1.length :=
    Checked.exists_u8 (by omega)
  have hTurn : g.state.currentPlayer.index < g.state.scores.length := hShape.scores ▸ hShape.turn
  obtain ⟨final, result, hCompleted⟩ := completeWhen_succeeds hShape.builtin
    { g.state with
      board := placeOnBoard g.state.board m.placements
      scores := g.state.scores.set g.state.currentPlayer.index ⟨score⟩
      currentPlayer := next
      version := version
      scorelessTurns := turns
      rackCounts := counts
      bagCount := bagCount }
    ((Redraw.length_racks g _ _ _).symm ▸ hShape.players)
    (List.length_set.trans (hShape.scores.trans (Redraw.length_racks g _ _ _).symm)) hRacks
    (fun seat hSeat => by
      change 0 ≤ scoreOf (g.state.scores.set g.state.currentPlayer.index ⟨score⟩) seat ∧
        scoreOf (g.state.scores.set g.state.currentPlayer.index ⟨score⟩) seat ≤ scoreLimit
      rw [scoreOf_set hTurn, scoreLimit]
      split
      · change 0 ≤ score.toInt ∧ score.toInt ≤ _
        omega
      · have := h.score_bounds hPhase ((Redraw.length_racks g _ _ _) ▸ hSeat)
        omega)
    (g.placementReason g.state.currentPlayer
      (g.redraw g.state.currentPlayer (m.placements.map (·.tileId)) refill).bag
      ((g.redraw g.state.currentPlayer (m.placements.map (·.tileId)) refill).racks.getD
        g.state.currentPlayer.index ⟨[]⟩) turns)
    (fun seat hSeat => by
      rw [placementReason_actor (.inl hSeat), Redraw.length_racks]
      exact hShape.turn)
  refine ⟨⟨m, ⟨score⟩, version, turns, refill, next, counts, bagCount, final, result, drawCount⟩,
    hPhase, rfl, hPrepare, hFits, hScore, hVersion, hTurns, hRefill, hNext, hCounts, hBagCount,
    ?_, hCompleted, hDrawCount⟩
  exact (checkConservation_eq_ok hShape.builtin
    (hLegal.canonicalBoard hShape h.conserved.canonical)).mpr
      (h.conserved.place hShape hShape.turn hLegal refill)

end Reachable

/-! Refusals. -/

section

variable {platform : Platform} {g : Game} {player : Player} {version : UInt64}

theorem validateAction_avoids : Avoids GameError.Internal (g.validateAction player version) := by
  refine Avoids.bind (avoids_reject fun h => h) fun _ _ => ?_
  refine Avoids.bind (avoids_reject fun h => h) fun _ _ => ?_
  exact avoids_reject fun h => h

/-- A call that does not come from the current player at the current version
of an active game is refused before anything else. -/
theorem unauthorized_avoids {α : Type} {rest : Unit → Except GameError α}
    (h : ¬ (g.state.phase = .active ∧ player = g.state.currentPlayer ∧
      version = g.state.version)) :
    Avoids GameError.Internal (g.validateAction player version >>= rest) :=
  validateAction_avoids.bind fun _ hAction => absurd (validateAction_eq_ok.mp hAction) h

theorem rejectDuplicate_avoids (tileIds : List TileId) :
    Avoids GameError.Internal (rejectDuplicate tileIds) := by
  intro e he
  unfold rejectDuplicate at he
  split at he
  · cases he
    exact fun h => h
  · cases he

theorem exchangeTiles_iff (h : Reachable platform g) (hPhase : g.state.phase = .active)
    {tileIds : List TileId} :
    (∃ g' event, g.exchangeTiles platform g.state.currentPlayer g.state.version tileIds =
        .ok (g', event)) ↔
      tileIds ≠ [] ∧ tileIds.Nodup ∧
        (∀ id ∈ tileIds, ∃ tile ∈ (g.rack g.state.currentPlayer).tiles, tile.id = id) ∧
        g.ruleset.game.exchangeMinimum.toNat ≤ g.bag.tiles.length := by
  constructor
  · rintro ⟨g', event, hExchange⟩
    obtain ⟨-, d, valid, -, -⟩ := exchangeTiles_eq_ok.mp hExchange
    refine ⟨valid.nonempty, (findDuplicate_sortIds tileIds).mp valid.distinct, ?_, valid.minimum⟩
    intro id hId
    obtain ⟨tile, -, hTile⟩ := Slots.exists_of_forall₂_left valid.taken
      ((sortIds_perm tileIds).mem_iff.mpr hId)
    exact ⟨tile, hTile⟩
  · rintro ⟨hNonempty, hDistinct, hOwned, hMinimum⟩
    obtain ⟨d, valid⟩ := h.exchange_valid hPhase hNonempty hDistinct hOwned hMinimum
    exact ⟨_, _, exchangeTiles_eq_ok.mpr ⟨rfl, d, valid, rfl, rfl⟩⟩

theorem exchangeTiles_avoids (h : Reachable platform g) (tileIds : List TileId) :
    Avoids GameError.Internal (g.exchangeTiles platform player version tileIds) := by
  by_cases hAction : g.state.phase = .active ∧ player = g.state.currentPlayer ∧
      version = g.state.version
  · obtain ⟨hPhase, rfl, rfl⟩ := hAction
    by_cases hAccepted : ∃ g' event, g.exchangeTiles platform g.state.currentPlayer g.state.version
        tileIds = .ok (g', event)
    · obtain ⟨g', event, hAccepted⟩ := hAccepted
      exact .of_ok hAccepted
    · -- All conditions of an accepted exchange are checked before anything else can fail.
      rw [exchangeTiles_iff h hPhase] at hAccepted
      have hBag := h.bag_length_le
      obtain ⟨count, hCount⟩ := @Checked.exists_u16 g.bag.tiles.length (by omega)
      refine validateAction_avoids.bind fun _ _ => ?_
      refine Avoids.bind (avoids_reject fun h => h) fun _ hNonempty => ?_
      refine (rejectDuplicate_avoids _).bind fun _ hDistinct => ?_
      refine Avoids.bind (.of_ok (countU16_eq_ok.mpr hCount)) fun count' hCount' => ?_
      refine Avoids.bind (avoids_reject fun h => h) fun _ hMinimum => ?_
      refine Avoids.bind (avoids_mapM fun id _ => avoids_okOr fun h => h) fun returned hOwned => ?_
      refine absurd ⟨reject_eq_ok.mp hNonempty,
        (findDuplicate_sortIds tileIds).mp (rejectDuplicate_eq_ok.mp hDistinct), ?_, ?_⟩ hAccepted
      · intro id hId
        have hTaken := (mapM_eq_ok.mp hOwned).imp fun _ _ => ownedTile_eq_ok
        obtain ⟨tile, -, hTile⟩ := Slots.exists_of_forall₂_left hTaken
          ((sortIds_perm tileIds).mem_iff.mpr hId)
        exact ⟨tile, hTile⟩
      · rw [← countU16_eq_ok.mp hCount']
        exact UInt16.le_iff_toNat_le.mp (UInt16.not_lt.mp (reject_eq_ok.mp hMinimum))
  · exact unauthorized_avoids hAction

theorem playTiles_avoids (h : Reachable platform g) (placements : List Placement) :
    Avoids GameError.Internal (g.playTiles platform player version placements) := by
  by_cases hAction : g.state.phase = .active ∧ player = g.state.currentPlayer ∧
      version = g.state.version
  · obtain ⟨hPhase, rfl, rfl⟩ := hAction
    by_cases hPrepared : ∃ m, g.preparePlacement platform g.state.currentPlayer placements = .ok m
    · obtain ⟨m, hPrepared⟩ := hPrepared
      obtain ⟨d, valid⟩ := h.place_valid hPhase hPrepared
      exact .of_ok (playTiles_eq_ok.mpr ⟨rfl, d, valid, rfl, rfl⟩)
    · refine validateAction_avoids.bind fun _ _ => ?_
      exact (preparePlacement_avoids h.shape h.filled placements).bind
        fun m hm => absurd ⟨m, hm⟩ hPrepared
  · exact unauthorized_avoids hAction

theorem pass_avoids (h : Reachable platform g) :
    Avoids GameError.Internal (g.pass player version) := by
  by_cases hAction : g.state.phase = .active ∧ player = g.state.currentPlayer ∧
      version = g.state.version
  · obtain ⟨hPhase, rfl, rfl⟩ := hAction
    obtain ⟨d, valid⟩ := h.pass_valid hPhase
    exact .of_ok (pass_eq_ok.mpr ⟨rfl, d, valid, rfl, rfl⟩)
  · exact unauthorized_avoids hAction

theorem resign_avoids (h : Reachable platform g) :
    Avoids GameError.Internal (g.resign player version) := by
  by_cases hAction : g.state.phase = .active ∧ player = g.state.currentPlayer ∧
      version = g.state.version
  · obtain ⟨hPhase, rfl, rfl⟩ := hAction
    obtain ⟨d, valid⟩ := h.resign_valid hPhase
    exact .of_ok (resign_eq_ok.mpr ⟨rfl, d, valid, rfl, rfl⟩)
  · exact unauthorized_avoids hAction

/-- No request, whoever sends it, ends in an internal failure. -/
theorem applyMove_avoids (h : Reachable platform g) (action : Move) :
    Avoids GameError.Internal (g.applyMove platform player version action) := by
  cases action with
  | place placements => exact playTiles_avoids h placements
  | exchange tileIds => exact exchangeTiles_avoids h tileIds
  | pass => exact pass_avoids h
  | resign => exact resign_avoids h

end

/-- The reshuffle of an accepted exchange ends. -/
theorem ExchangeStep.Valid.shuffled {platform : Platform} {g : Game} {player : Player}
    {d : ExchangeStep} {tileIds : List TileId} (valid : d.Valid platform g player tileIds)
    (h : Reachable platform g) :
    ∃ pool rng, (DeterministicRng.forExchange platform g.seed d.version).Shuffled pool
      ((d.bag platform g player tileIds).tiles, rng) := by
  refine ⟨(d.redraw g player tileIds).bag.tiles ++ sortById d.returned, _,
    DeterministicRng.shuffle_shuffled (DeterministicRng.ofDigest_not_silent _) ?_⟩
  have hLength := valid.bag_length h.shape h.conserved h.filled
  have hPerm := (DeterministicRng.shuffle_perm
    (DeterministicRng.forExchange platform g.seed d.version)
    ((d.redraw g player tileIds).bag.tiles ++ sortById d.returned)).length_eq
  have hBag := h.bag_length_le
  change (d.bag platform g player tileIds).tiles.length = _ at hPerm
  omega

/-- In every reachable active game the current player can pass and resign, and
can exchange exactly distinct owned tiles while the bag is large enough; the
reshuffle ends. No request fails internally, and every score has room for the
end adjustment. -/
theorem reachable_actions_total {platform : Platform} {g : Game} (h : Reachable platform g) :
    (g.state.phase = .active →
      (∃ g' event, g.pass g.state.currentPlayer g.state.version = .ok (g', event)) ∧
      (∃ g' event, g.resign g.state.currentPlayer g.state.version = .ok (g', event)) ∧
      (∀ tileIds, (∃ g' event, g.exchangeTiles platform g.state.currentPlayer g.state.version
          tileIds = .ok (g', event)) ↔
        tileIds ≠ [] ∧ tileIds.Nodup ∧
          (∀ id ∈ tileIds, ∃ tile ∈ (g.rack g.state.currentPlayer).tiles, tile.id = id) ∧
          g.ruleset.game.exchangeMinimum.toNat ≤ g.bag.tiles.length) ∧
      (∀ active, Seat.active g.racks.length = some active → ∀ seat ∈ active,
        -2 ^ 31 + (tablePoints g.ruleset g.racks active : Int) ≤ scoreOf g.state.scores seat ∧
        scoreOf g.state.scores seat + tablePoints g.ruleset g.racks active < 2 ^ 31)) ∧
    (∀ player version tileIds g' event,
      g.exchangeTiles platform player version tileIds = .ok (g', event) →
      ∃ pool rng, (DeterministicRng.forExchange platform g.seed g'.state.version).Shuffled pool
        (g'.bag.tiles, rng)) ∧
    (∀ player version action e, g.applyMove platform player version action = .error e →
      e ≠ .scoreOverflow ∧ e ≠ .versionOverflow ∧ e ≠ .scorelessTurnOverflow ∧
        ∀ reason, e ≠ .invalidTileState reason) := by
  refine ⟨fun hPhase => ⟨?_, ?_, fun tileIds => exchangeTiles_iff h hPhase, ?_⟩, ?_, ?_⟩
  · obtain ⟨d, valid⟩ := h.pass_valid hPhase
    exact ⟨_, _, pass_eq_ok.mpr ⟨rfl, d, valid, rfl, rfl⟩⟩
  · obtain ⟨d, valid⟩ := h.resign_valid hPhase
    exact ⟨_, _, resign_eq_ok.mpr ⟨rfl, d, valid, rfl, rfl⟩⟩
  · intro active hActive seat hSeat
    have hPoints := tablePoints_le h.shape.builtin h.racks_le hActive
    have hBounds := h.score_bounds hPhase ((Seat.mem_active hActive).mp hSeat)
    have hLimit : moveLimit = 7873250 := rfl
    omega
  · intro player version tileIds g' event hExchange
    obtain ⟨-, d, valid, rfl, -⟩ := exchangeTiles_eq_ok.mp hExchange
    obtain ⟨pool, rng, hShuffled⟩ := valid.shuffled h
    have hVersion : d.final.version = d.version :=
      congrArg PublicGameState.version valid.commit.final_frame
    refine ⟨pool, rng, ?_⟩
    change (DeterministicRng.forExchange platform g.seed d.final.version).Shuffled pool _
    rw [hVersion]
    exact hShuffled
  · intro player version action e hFailed
    have hExternal := applyMove_avoids h action e hFailed
    refine ⟨?_, ?_, ?_, fun reason => ?_⟩ <;> rintro rfl <;> exact hExternal trivial

theorem hookTable_actions_total :
    ∃ g, Reachable basicPlatform g ∧ g.state.phase = .active ∧
      ∃ g' event, g.resign g.state.currentPlayer g.state.version = .ok (g', event) := by
  obtain ⟨g, hReachable, -, hPhase, -⟩ := exists_played
  exact ⟨g, hReachable, hPhase, ((reachable_actions_total hReachable).1 hPhase).2.1⟩

end WordArena.Engine
