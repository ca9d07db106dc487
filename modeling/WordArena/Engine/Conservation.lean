import WordArena.Engine.Fresh
import WordArena.Engine.Legal

/-! Tiles move between the bag, the racks and the board, and nowhere else. The
board keeps assigned letters, so its tiles are first read back as physical
ones; a blank is a blank whatever letter it shows. -/
namespace WordArena.Engine

open Fallible WordArena.Lexicon

/-- The physical tile behind a board tile. -/
def BoardTile.physical (tile : BoardTile) : PhysicalTile where
  id := tile.tileId
  face :=
    if tile.isBlank then .blank
    else if h : isPhysicalToken tile.letter = true then .letter ⟨tile.letter, h⟩ else .blank

/-- Every letter on the board is canonical. -/
def CanonicalBoard (board : List (Option BoardTile)) : Prop :=
  ∀ tile ∈ board.reduceOption, isPhysicalToken tile.letter = true

/-- All tiles of a position, location by location. -/
def locations (bag : Bag) (racks : List Rack) (board : List (Option BoardTile)) :
    List PhysicalTile :=
  bag.tiles ++ racks.flatMap Rack.tiles ++ board.reduceOption.map BoardTile.physical

theorem physicalTile_of_canonical {platform : Platform} {ruleset : Ruleset} {tile : BoardTile}
    (hProfile : Supported ruleset.lexicon.normalization.profile)
    (h : isPhysicalToken tile.letter = true) :
    physicalTile platform ruleset tile = .ok tile.physical := by
  have hFace : boardFace tile = .ok tile.physical.face := by
    by_cases hBlank : tile.isBlank = true
    · simp [boardFace, BoardTile.physical, hBlank]
    · simp [boardFace, BoardTile.physical, hBlank, h, TileToken.new, mapErr, bind, Except.bind,
        pure, Except.pure]
  simp only [physicalTile, bind_eq_ok, canonicalTileToken_self platform hProfile h,
    Except.ok.injEq, reject_eq_ok, pure_eq_ok]
  exact ⟨_, rfl, (), by simp, _, hFace, rfl⟩

theorem physicalBoard_of_canonical (platform : Platform) {ruleset : Ruleset}
    {state : PublicGameState} (hProfile : Supported ruleset.lexicon.normalization.profile)
    (h : CanonicalBoard state.board) :
    physicalBoard platform state ruleset = .ok (state.board.reduceOption.map BoardTile.physical) := by
  rw [physicalBoard, mapM_eq_ok, List.forall₂_map_right_iff, List.forall₂_same]
  intro tile hTile
  exact physicalTile_of_canonical hProfile (h tile hTile)

theorem builtin_size {ruleset : Ruleset} (h : ruleset = Ruleset.builtin ruleset.id) :
    ruleset.game.totalTiles ≤ 2 ^ 16 := by
  have := builtin_totalTiles_bounds ruleset.id
  rw [h]
  omega

theorem builtin_supported {ruleset : Ruleset} (h : ruleset = Ruleset.builtin ruleset.id) :
    Supported ruleset.lexicon.normalization.profile := by
  rw [h]
  exact builtin_profile ruleset.id

/-- On a canonical board the check accepts exactly the rearrangements of the
distribution. -/
theorem checkConservation_eq_ok {platform : Platform} {ruleset : Ruleset} {state : PublicGameState}
    {bag : Bag} {racks : List Rack} (hBuiltin : ruleset = Ruleset.builtin ruleset.id)
    (hBoard : CanonicalBoard state.board) :
    checkConservation platform ruleset state bag racks = .ok () ↔
      (locations bag racks state.board).Perm (physicalTiles ruleset.game) := by
  have hPhysical := physicalBoard_of_canonical platform (builtin_supported hBuiltin) hBoard
  simp only [checkConservation, bind_eq_ok, hPhysical, Except.ok.injEq, mapErr_eq_ok,
    verifyTileConservation_eq_ok (builtin_size hBuiltin), locations]
  constructor
  · rintro ⟨_, rfl, hPerm⟩
    exact hPerm
  · intro hPerm
    exact ⟨_, rfl, hPerm⟩

/-! Redraws. -/

/-- Tiles taken from the acting rack, replacements and what is left are the
tiles there were. -/
theorem redraw_perm {g : Game} {player : Player} {ids : List TileId} {taken : List PhysicalTile}
    (count : Nat) (hSeat : player.index < g.racks.length)
    (hRack : ((g.rack player).tiles.map (·.id)).Nodup) (hIds : ids.Nodup)
    (hTaken : List.Forall₂ (fun id tile => tile ∈ (g.rack player).tiles ∧ tile.id = id) ids taken) :
    ((g.redraw player ids count).bag.tiles ++ (g.redraw player ids count).racks.flatMap Rack.tiles ++
      taken).Perm (g.bag.tiles ++ g.racks.flatMap Rack.tiles) := by
  have hKept := Slots.take_keys_perm hRack hIds hTaken
  have hDraw := g.bag.drawUpTo_perm count
  have hRackEq : g.racks[player.index] = g.rack player := by
    rw [Game.rack, List.getD_eq_getElem?_getD, List.getElem?_eq_getElem hSeat, Option.getD_some]
  have hSet := Slots.flatMap_set_perm Rack.tiles hSeat
    (((g.rack player).without ids).extend (g.bag.drawUpTo count).1)
  rw [hRackEq] at hSet
  simp only [List.perm_iff_count, List.count_append, Game.redraw, Rack.extend,
    Rack.without] at hKept hDraw hSet ⊢
  intro tile
  have := hKept tile
  have := hDraw tile
  have := hSet tile
  omega

/-! Placements on the board. -/

def Placement.boardTile (p : Placement) : BoardTile := ⟨p.tileId, p.tile.letter, p.tile.isBlank⟩

/-- A free square of a full-size board is an empty slot. -/
theorem slot_of_tileAt {state : PublicGameState} {c : Coordinate}
    (hBoard : state.board.length = boardSquares) (hBounds : c.inBounds boardSize boardSize = true) :
    state.board[c.index boardSize]? = some (state.tileAt c) := by
  have hIndex : c.index boardSize < state.board.length := by
    have h15 : boardSize.toNat = 15 := rfl
    rw [Coordinate.inBounds_iff, h15] at hBounds
    rw [hBoard, Coordinate.index, h15, boardSquares]
    omega
  rw [PublicGameState.tileAt, if_pos hBounds, List.getElem?_eq_getElem hIndex]
  rfl

theorem index_injective {a b : Coordinate} (ha : a.inBounds boardSize boardSize = true)
    (hb : b.inBounds boardSize boardSize = true) (h : a.index boardSize = b.index boardSize) :
    a = b := by
  have h15 : boardSize.toNat = 15 := rfl
  rw [Coordinate.inBounds_iff, h15] at ha hb
  rw [Coordinate.index, Coordinate.index, h15] at h
  exact Coordinate.ext_toNat (by omega) (by omega)

/-- Writing to distinct empty slots adds exactly the written tiles. -/
theorem placeOnBoard_perm {board : List (Option BoardTile)} {placements : List Placement}
    (hDistinct : (placements.map fun p => p.coordinate.index boardSize).Nodup)
    (hFree : ∀ p ∈ placements, board[p.coordinate.index boardSize]? = some none) :
    (placeOnBoard board placements).reduceOption.Perm
      (placements.map Placement.boardTile ++ board.reduceOption) := by
  induction placements generalizing board with
  | nil => exact List.Perm.refl _
  | cons p placements ih =>
      rw [List.map_cons, List.nodup_cons] at hDistinct
      rw [List.forall_mem_cons] at hFree
      have hTail := @ih (board.set (p.coordinate.index boardSize) (some p.boardTile)) hDistinct.2
        (fun q hq => by
          have hNe : p.coordinate.index boardSize ≠ q.coordinate.index boardSize :=
            fun h => hDistinct.1 (List.mem_map.mpr ⟨q, hq, h.symm⟩)
          rw [List.getElem?_set_ne hNe]
          exact hFree.2 q hq)
      have hHead := Slots.reduceOption_set_perm hFree.1 p.boardTile
      exact hTail.trans ((hHead.append_left _).trans List.perm_middle)

/-- An owned placement puts its physical tile on the board. -/
theorem Owned.physical {g : Game} {player : Player} {p : Placement} {t : PhysicalTile}
    (h : Owned g player p t) : p.boardTile.physical = t := by
  have hFace := h.face
  have hId := h.id
  obtain ⟨id, face⟩ := t
  cases face with
  | blank =>
      simp only [assignmentMatches] at hFace
      simp only [BoardTile.physical, Placement.boardTile, hFace, if_true, ← hId]
  | letter token =>
      simp only [assignmentMatches, Bool.and_eq_true, Bool.not_eq_true', beq_iff_eq] at hFace
      simp only [BoardTile.physical, Placement.boardTile, hFace.1, Bool.false_eq_true, if_false,
        hFace.2, token.physical, dif_pos, ← hId]

section

variable {platform : Platform} {g : Game} {player : Player} {m : PreparedMove} {o : Orientation}

theorem Legal.physical (h : Legal platform g player m o) :
    (m.placements.map Placement.boardTile).map BoardTile.physical = m.played := by
  have hOwned := h.owned
  generalize m.placements = placements at hOwned ⊢
  generalize m.played = played at hOwned ⊢
  induction hOwned with
  | nil => rfl
  | cons hHead _ ih => rw [List.map_cons, List.map_cons, hHead.physical, ih]

theorem Legal.each (h : Legal platform g player m o) {p : Placement} (hp : p ∈ m.placements) :
    ∃ t, Owned g player p t := by
  obtain ⟨t, -, hOwned⟩ := Slots.exists_of_forall₂_left h.owned hp
  exact ⟨t, hOwned⟩

/-- Distinct squares are distinct slots. -/
theorem Legal.indices (h : Legal platform g player m o) :
    (m.placements.map fun p => p.coordinate.index boardSize).Nodup := by
  have hMap : (m.placements.map fun p => p.coordinate.index boardSize) =
      (m.placements.map (·.coordinate)).map fun c => c.index boardSize := by
    rw [List.map_map]
    rfl
  rw [hMap]
  refine h.coordinates.map_on fun a ha b hb hIndex => ?_
  obtain ⟨p, hp, rfl⟩ := List.mem_map.mp ha
  obtain ⟨q, hq, rfl⟩ := List.mem_map.mp hb
  obtain ⟨_, hOwnedP⟩ := h.each hp
  obtain ⟨_, hOwnedQ⟩ := h.each hq
  exact index_injective hOwnedP.inBounds hOwnedQ.inBounds hIndex

theorem Legal.placeOnBoard_perm (h : Legal platform g player m o) (hShape : Shape g) :
    (placeOnBoard g.state.board m.placements).reduceOption.Perm
      (m.placements.map Placement.boardTile ++ g.state.board.reduceOption) := by
  refine Engine.placeOnBoard_perm h.indices fun p hp => ?_
  obtain ⟨_, hOwned⟩ := h.each hp
  rw [slot_of_tileAt hShape.board hOwned.inBounds, hOwned.free]

theorem Legal.canonicalBoard (h : Legal platform g player m o) (hShape : Shape g)
    (hBoard : CanonicalBoard g.state.board) :
    CanonicalBoard (placeOnBoard g.state.board m.placements) := by
  intro tile hTile
  rcases List.mem_append.mp ((h.placeOnBoard_perm hShape).mem_iff.mp hTile) with hNew | hOld
  · obtain ⟨p, hp, rfl⟩ := List.mem_map.mp hNew
    obtain ⟨_, hOwned⟩ := h.each hp
    exact hOwned.letter
  · exact hBoard tile hOld

end

/-! Exchanges. -/

/-- In an ordered list, neighbours differ exactly when all elements do. -/
theorem findDuplicate_eq_none {ids : List TileId}
    (h : ids.Pairwise fun a b => a.raw ≤ b.raw) : findDuplicate ids = none ↔ ids.Nodup := by
  induction ids with
  | nil => simp [findDuplicate]
  | cons a ids ih =>
      cases ids with
      | nil => simp [findDuplicate]
      | cons b ids =>
          obtain ⟨hHead, hTail⟩ := List.pairwise_cons.mp h
          have hRest := List.pairwise_cons.mp hTail
          simp only [findDuplicate, ite_eq_iff, reduceCtorEq, and_false, false_or, ih hTail]
          rw [@List.nodup_cons _ a]
          refine and_congr_left fun _ => ?_
          refine ⟨fun hNe hMem => ?_, fun hNew hEq => hNew (hEq ▸ List.mem_cons_self)⟩
          · rcases List.mem_cons.mp hMem with hEq | hMem
            · exact hNe hEq
            · have hLe := hHead b List.mem_cons_self
              have hGe := hRest.1 a hMem
              exact hNe (congrArg TileId.mk (UInt16.le_antisymm hLe hGe))

theorem sortIds_pairwise (ids : List TileId) :
    (sortIds ids).Pairwise fun a b => a.raw ≤ b.raw := by
  have hTotal : Std.Total fun a b : TileId => a.raw ≤ b.raw := ⟨fun a b => UInt16.le_total ..⟩
  have hTrans : IsTrans TileId fun a b => a.raw ≤ b.raw := ⟨fun _ _ _ => UInt16.le_trans⟩
  exact List.pairwise_insertionSort _ _

theorem sortIds_perm (ids : List TileId) : (sortIds ids).Perm ids := List.perm_insertionSort ..

theorem findDuplicate_sortIds (ids : List TileId) :
    findDuplicate (sortIds ids) = none ↔ ids.Nodup := by
  rw [findDuplicate_eq_none (sortIds_pairwise ids), (sortIds_perm ids).nodup_iff]

theorem ownedTile_eq_ok {g : Game} {player : Player} {id : TileId} {t : PhysicalTile}
    (h : g.ownedTile player id = .ok t) : t ∈ (g.rack player).tiles ∧ t.id = id := by
  rw [Game.ownedTile, okOr_eq_ok] at h
  exact ⟨List.mem_of_find?_eq_some h, by simpa using List.find?_some h⟩

/-! The invariant. -/

/-- The position is a rearrangement of the distribution with canonical
letters, and the public counts are those of the private tiles. -/
structure Conserved (g : Game) : Prop where
  canonical : CanonicalBoard g.state.board
  tiles : (locations g.bag g.racks g.state.board).Perm (physicalTiles g.ruleset.game)
  rackCounts : g.state.rackCounts.map UInt8.toNat = g.racks.map fun rack => rack.tiles.length
  bagCount : g.state.bagCount.toNat = g.bag.tiles.length

namespace Conserved

variable {platform : Platform} {g : Game} {player : Player}

theorem ids_nodup (h : Conserved g) (hShape : Shape g) :
    ((locations g.bag g.racks g.state.board).map (·.id)).Nodup :=
  (h.tiles.map _).nodup_iff.mpr (physicalTiles_ids_nodup (builtin_size hShape.builtin))

theorem rack_ids_nodup (h : Conserved g) (hShape : Shape g) (player : Player) :
    ((g.rack player).tiles.map (·.id)).Nodup := by
  have hAll := h.ids_nodup hShape
  rw [locations, List.map_append, List.map_append, List.map_flatMap] at hAll
  have hRacks := (List.nodup_append.mp (List.nodup_append.mp hAll).1).2.1
  rw [Game.rack, List.getD_eq_getElem?_getD]
  cases hRack : g.racks[player.index]? with
  | none => simp
  | some rack => exact (List.nodup_flatMap.mp hRacks).1 rack (List.mem_of_getElem? hRack)

/-- A legal placement with any refill rearranges the tiles. -/
theorem place {m : PreparedMove} {o : Orientation} (h : Conserved g) (hShape : Shape g)
    (hSeat : player.index < g.racks.length) (hLegal : Legal platform g player m o) (count : Nat) :
    (locations (g.redraw player (m.placements.map (·.tileId)) count).bag
      (g.redraw player (m.placements.map (·.tileId)) count).racks
      (placeOnBoard g.state.board m.placements)).Perm (physicalTiles g.ruleset.game) := by
  have hTaken : List.Forall₂ (fun id tile => tile ∈ (g.rack player).tiles ∧ tile.id = id)
      (m.placements.map (·.tileId)) m.played := by
    rw [List.forall₂_map_left_iff]
    exact hLegal.owned.imp fun _ _ hOwned => ⟨hOwned.mem, hOwned.id⟩
  have hRedraw := redraw_perm count hSeat (h.rack_ids_nodup hShape player) hLegal.ids hTaken
  have hBoard := (hLegal.placeOnBoard_perm hShape).map BoardTile.physical
  have hTiles := h.tiles
  rw [List.map_append, hLegal.physical] at hBoard
  simp only [locations, List.perm_iff_count, List.count_append] at hRedraw hBoard hTiles ⊢
  intro tile
  have := hRedraw tile
  have := hBoard tile
  have := hTiles tile
  omega

/-- A redraw of owned tiles that are then returned rearranges the tiles. -/
theorem exchange {tileIds : List TileId} {returned : List PhysicalTile} (h : Conserved g)
    (hShape : Shape g) (hSeat : player.index < g.racks.length)
    (hDistinct : findDuplicate (sortIds tileIds) = none)
    (hOwned : (sortIds tileIds).mapM (g.ownedTile player) = .ok returned) (version : UInt64)
    (count : Nat) :
    (locations (returnTilesToBag platform (g.redraw player (sortIds tileIds) count).bag returned
      g.seed version) (g.redraw player (sortIds tileIds) count).racks g.state.board).Perm
      (physicalTiles g.ruleset.game) := by
  have hIds := (findDuplicate_eq_none (sortIds_pairwise tileIds)).mp hDistinct
  have hTaken := (mapM_eq_ok.mp hOwned).imp fun _ _ => ownedTile_eq_ok
  have hRedraw := redraw_perm count hSeat (h.rack_ids_nodup hShape player) hIds hTaken
  have hReturn := returnTilesToBag_perm platform (g.redraw player (sortIds tileIds) count).bag
    returned g.seed version
  have hTiles := h.tiles
  simp only [locations, List.perm_iff_count, List.count_append] at hRedraw hReturn hTiles ⊢
  intro tile
  have := hRedraw tile
  have := hReturn tile
  have := hTiles tile
  omega

end Conserved

theorem Conserved.create {d : Creation} {platform : Platform} {gameId : String} {ruleset : Ruleset}
    {seed : GameSeed} {mode : GameMode} {playerCount : Nat}
    (h : d.Valid platform ruleset seed playerCount) :
    Conserved (d.game platform gameId ruleset seed mode playerCount) := by
  obtain ⟨-, seats, hSeats, hDeal⟩ := prepareInitialDealForPlayers_eq_ok.mp h.deal
  have hEmpty : (List.replicate boardSquares (none : Option BoardTile)).reduceOption = [] :=
    List.reduceOption_replicate_none
  refine ⟨?_, ?_, rackCounts_eq_ok.mp h.counts, h.bagCount⟩
  · change ∀ tile ∈ (List.replicate boardSquares (none : Option BoardTile)).reduceOption, _
    rw [hEmpty]
    simp
  · change (d.deal.bag.tiles ++ d.deal.racks.flatMap Rack.tiles ++
      (List.replicate boardSquares (none : Option BoardTile)).reduceOption.map
        BoardTile.physical).Perm _
    rw [hEmpty, List.map_nil, List.append_nil, hDeal]
    exact initialDeal_perm hSeats

/-- Completion moves no tile and changes no count. -/
theorem Conserved.of_commit {g : Game} {player : Player} {c : Commit} (hValid : c.Valid g player)
    (hBoard : CanonicalBoard c.mid.board)
    (hTiles : (locations c.bag c.racks c.mid.board).Perm (physicalTiles g.ruleset.game))
    (hRacks : c.mid.rackCounts.map UInt8.toNat = c.racks.map fun rack => rack.tiles.length)
    (hBag : c.mid.bagCount.toNat = c.bag.tiles.length) : Conserved (c.game g) where
  canonical := by
    change CanonicalBoard c.final.board
    rwa [hValid.final_board]
  tiles := by
    change (locations c.bag c.racks c.final.board).Perm _
    rwa [hValid.final_board]
  rackCounts := by
    change c.final.rackCounts.map UInt8.toNat = _
    rwa [hValid.final_counts.1]
  bagCount := by
    change c.final.bagCount.toNat = _
    rwa [hValid.final_counts.2]

theorem Conserved.accepted {platform : Platform} {g g' : Game} {player : Player} {action : Move}
    {event : GameEvent} (h : Conserved g) (hShape : Shape g)
    (hAccepted : Accepted platform g player action g' event) : Conserved g' := by
  have hSeat : player.index < g.racks.length := by
    obtain ⟨c, hValid, -⟩ := hAccepted.commit
    rw [hValid.turn]
    exact hShape.turn
  cases hAccepted with
  | place d valid =>
      obtain ⟨o, hLegal⟩ := legal_of_preparePlacement valid.prepare
      exact .of_commit valid.commit (hLegal.canonicalBoard hShape h.canonical)
        (h.place hShape hSeat hLegal d.refill) (rackCounts_eq_ok.mp valid.counts) valid.bagCount
  | exchange d valid =>
      exact .of_commit valid.commit h.canonical
        (h.exchange hShape hSeat valid.distinct valid.owned d.version d.returned.length)
        (rackCounts_eq_ok.mp valid.counts) valid.bagCount
  | pass d valid =>
      rw [d.game_eq]
      exact .of_commit valid.commit h.canonical h.tiles h.rackCounts h.bagCount
  | resign d valid =>
      rw [d.game_eq]
      exact .of_commit valid.commit h.canonical h.tiles h.rackCounts h.bagCount

theorem Reachable.conserved {platform : Platform} {g : Game} (h : Reachable platform g) :
    Conserved g := by
  refine Reachable.invariant Conserved ?_ ?_ h
  · intro d gameId ruleset seed mode playerCount hValid
    exact Conserved.create hValid
  · intro g player action g' event hReachable hConserved hAccepted
    exact hConserved.accepted hReachable.shape hAccepted

/-- In every reachable game the bag, the racks and the board hold every
physical tile once and with its own face, and the public counts are exact. The
check before a commit cannot fail once a placement or an exchange is valid. -/
theorem reachable_tiles_conserved {platform : Platform} {g : Game} (h : Reachable platform g) :
    (∃ board tiles, physicalBoard platform g.state g.ruleset = .ok board ∧
      buildTiles g.ruleset.game = .ok tiles ∧ (tiles.map (·.id)).Nodup ∧
      (g.bag.tiles ++ g.racks.flatMap Rack.tiles ++ board).Perm tiles) ∧
    g.state.rackCounts.map UInt8.toNat = g.racks.map (fun rack => rack.tiles.length) ∧
    g.state.bagCount.toNat = g.bag.tiles.length ∧
    (∀ placements m state count,
      g.preparePlacement platform g.state.currentPlayer placements = .ok m →
      state.board = placeOnBoard g.state.board m.placements →
      checkConservation platform g.ruleset state
        (g.redraw g.state.currentPlayer (m.placements.map (·.tileId)) count).bag
        (g.redraw g.state.currentPlayer (m.placements.map (·.tileId)) count).racks = .ok ()) ∧
    (∀ tileIds returned state version count,
      findDuplicate (sortIds tileIds) = none →
      (sortIds tileIds).mapM (g.ownedTile g.state.currentPlayer) = .ok returned →
      state.board = g.state.board →
      checkConservation platform g.ruleset state
        (returnTilesToBag platform
          (g.redraw g.state.currentPlayer (sortIds tileIds) count).bag returned g.seed version)
        (g.redraw g.state.currentPlayer (sortIds tileIds) count).racks = .ok ()) := by
  have hShape := h.shape
  have hConserved := h.conserved
  have hSize := builtin_size hShape.builtin
  refine ⟨⟨_, _, physicalBoard_of_canonical platform (builtin_supported hShape.builtin)
    hConserved.canonical, buildTiles_eq_ok.mpr ⟨hSize, rfl⟩, physicalTiles_ids_nodup hSize,
    hConserved.tiles⟩, hConserved.rackCounts, hConserved.bagCount, ?_, ?_⟩
  · intro placements m state count hPrepare hBoard
    obtain ⟨o, hLegal⟩ := legal_of_preparePlacement hPrepare
    have hCanonical := hLegal.canonicalBoard hShape hConserved.canonical
    rw [checkConservation_eq_ok hShape.builtin (hBoard ▸ hCanonical), hBoard]
    exact hConserved.place hShape hShape.turn hLegal count
  · intro tileIds returned state version count hDistinct hOwned hBoard
    rw [checkConservation_eq_ok hShape.builtin (hBoard ▸ hConserved.canonical), hBoard]
    exact hConserved.exchange hShape hShape.turn hDistinct hOwned version count

theorem hookTable_tiles_conserved :
    ∃ g, Reachable basicPlatform g ∧ (g.state.tileAt center).isSome = true ∧
      ∃ board tiles, physicalBoard basicPlatform g.state g.ruleset = .ok board ∧
        buildTiles g.ruleset.game = .ok tiles ∧ (tiles.map (·.id)).Nodup ∧
        (g.bag.tiles ++ g.racks.flatMap Rack.tiles ++ board).Perm tiles := by
  obtain ⟨g, hReachable, -, -, hTile⟩ := exists_played
  exact ⟨g, hReachable, hTile, (reachable_tiles_conserved hReachable).1⟩

end WordArena.Engine
