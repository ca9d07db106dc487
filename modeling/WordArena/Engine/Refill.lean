import WordArena.Engine.Conservation

/-! Racks are refilled after every action. A rack is below its capacity only
once the bag is empty, and an empty rack ends the game. -/
namespace WordArena.Engine

open Fallible

/-- Full racks while there are tiles to draw; nonempty racks while the game
goes on. -/
structure Filled (g : Game) : Prop where
  capacity : ∀ rack ∈ g.racks, rack.tiles.length ≤ g.ruleset.game.rackCapacity.toNat
  full : g.bag.tiles ≠ [] →
    ∀ rack ∈ g.racks, rack.tiles.length = g.ruleset.game.rackCapacity.toNat
  playable : g.state.phase = .active → ∀ rack ∈ g.racks, rack.tiles ≠ []

/-- The acting rack after a redraw. -/
theorem redraw_rack {g : Game} {player : Player} {ids : List TileId} {count : Nat}
    (hSeat : player.index < g.racks.length) :
    (g.redraw player ids count).racks.getD player.index ⟨[]⟩ =
      ((g.rack player).without ids).extend (g.bag.drawUpTo count).1 := by
  rw [Game.redraw, List.getD_eq_getElem?_getD, List.getElem?_set_self hSeat, Option.getD_some]

/-- A redraw touches one rack; a property of the new rack and of the old ones
holds of all racks. -/
theorem forall_mem_redraw {g : Game} {player : Player} {ids : List TileId} {count : Nat}
    {p : Rack → Prop} (hNew : p (((g.rack player).without ids).extend (g.bag.drawUpTo count).1))
    (hOld : ∀ rack ∈ g.racks, p rack) : ∀ rack ∈ (g.redraw player ids count).racks, p rack := by
  intro rack hRack
  rcases List.mem_or_eq_of_mem_set hRack with hRack | rfl
  · exact hOld rack hRack
  · exact hNew

theorem rack_mem {g : Game} {player : Player} (hSeat : player.index < g.racks.length) :
    g.rack player ∈ g.racks := by
  rw [Game.rack, List.getD_eq_getElem?_getD, List.getElem?_eq_getElem hSeat, Option.getD_some]
  exact List.getElem_mem hSeat

theorem drawUpTo_rest_ne_nil {bag : Bag} {count : Nat} (h : (bag.drawUpTo count).2.tiles ≠ []) :
    count < bag.tiles.length := by
  have hRest := bag.drawUpTo_rest_length count
  have hPos := List.length_pos_iff.mpr h
  omega

/-- The scoreless-turn rule leaves an active state active only below the limit. -/
theorem Commit.Valid.active_iff {c : Commit} {g : Game} {player : Player} (h : c.Valid g player) :
    c.final.phase = .active ↔ c.reason = none := by
  rcases completeWhen_eq_ok.mp h.completed with ⟨hNone, hFinal, -⟩ | ⟨why, outcome, hWhy, hState, -⟩
  · rw [hFinal, h.frame]
    exact iff_of_true h.phase hNone
  · obtain ⟨_, _, -, -, -, hFinal⟩ := completeState_eq_ok.mp hState
    rw [hFinal, hWhy]
    simp

theorem Filled.create {d : Creation} {platform : Platform} {gameId : String} {ruleset : Ruleset}
    {seed : GameSeed} {mode : GameMode} {playerCount : Nat}
    (h : d.Valid platform ruleset seed playerCount) :
    Filled (d.game platform gameId ruleset seed mode playerCount) := by
  obtain ⟨-, seats, hSeats, hDeal⟩ := prepareInitialDealForPlayers_eq_ok.mp h.deal
  have hRack : ∀ rack ∈ d.deal.racks, rack.tiles.length = ruleset.game.rackCapacity.toNat := by
    rw [hDeal]
    exact fun rack => initialDeal_rack h.builtin hSeats
  refine ⟨fun rack hMem => (hRack rack hMem).le, fun _ => hRack, fun _ rack hMem hEmpty => ?_⟩
  have hLength := hRack rack hMem
  rw [hEmpty, (builtin_deal_fits h.builtin hSeats).1] at hLength
  cases hLength

theorem Filled.place {platform : Platform} {g : Game} {player : Player} {d : PlacementStep}
    {placements : List Placement} (h : Filled g) (hShape : Shape g)
    (valid : d.Valid platform g player placements) : Filled (d.game g player) := by
  have hSeat : player.index < g.racks.length := valid.turn ▸ hShape.turn
  have hDrawn := g.bag.drawUpTo_length d.refill
  have hRefill := valid.refill
  refine ⟨forall_mem_redraw ?_ h.capacity, fun hBag => ?_, fun hPhase => ?_⟩
  · change _ ≤ g.ruleset.game.rackCapacity.toNat
    rw [Rack.extend, List.length_append, hDrawn]
    omega
  · have hEnough := drawUpTo_rest_ne_nil hBag
    have hBefore : g.bag.tiles ≠ [] := List.length_pos_iff.mp (by omega)
    refine forall_mem_redraw ?_ (h.full hBefore)
    change _ = g.ruleset.game.rackCapacity.toNat
    rw [Rack.extend, List.length_append, hDrawn]
    omega
  · -- An empty rack after the refill means an empty bag, which ends the game.
    have hGoesOn : d.reason g player = none := valid.commit.active_iff.mp hPhase
    refine forall_mem_redraw (fun hEmpty => ?_) (h.playable valid.phase)
    have hBag : (d.redraw g player).bag.tiles = [] := by
      by_contra hBag
      have hEnough := drawUpTo_rest_ne_nil hBag
      have hLength := congrArg List.length hEmpty
      have hCapacity := hShape.rackCapacity
      rw [Rack.extend, List.length_append, hDrawn, List.length_nil] at hLength
      omega
    have hRack : ((d.redraw g player).racks.getD player.index ⟨[]⟩).tiles = [] := by
      rw [PlacementStep.redraw, redraw_rack hSeat]
      exact hEmpty
    rw [PlacementStep.reason, Game.placementReason, if_pos ⟨hBag, hRack⟩] at hGoesOn
    cases hGoesOn

/-! Exchanges draw as many tiles as they return. -/

/-- Taking distinct tiles from a rack leaves the others. -/
theorem Conserved.rack_length {g : Game} {player : Player} {ids : List TileId}
    {taken : List PhysicalTile} (h : Conserved g) (hShape : Shape g) (hIds : ids.Nodup)
    (hTaken : List.Forall₂ (fun id tile => tile ∈ (g.rack player).tiles ∧ tile.id = id) ids taken) :
    taken.length + ((g.rack player).without ids).tiles.length = (g.rack player).tiles.length := by
  have hPerm := Slots.take_keys_perm (h.rack_ids_nodup hShape player) hIds hTaken
  rw [← hPerm.length_eq, List.length_append]
  rfl

namespace ExchangeStep.Valid

variable {platform : Platform} {g : Game} {player : Player} {d : ExchangeStep}
  {tileIds : List TileId}

theorem taken (valid : d.Valid platform g player tileIds) :
    List.Forall₂ (fun id tile => tile ∈ (g.rack player).tiles ∧ tile.id = id) (sortIds tileIds)
      d.returned :=
  (mapM_eq_ok.mp valid.owned).imp fun _ _ => ownedTile_eq_ok

theorem returned_length (valid : d.Valid platform g player tileIds) :
    d.returned.length = tileIds.length := by
  rw [← valid.taken.length_eq]
  exact (sortIds_perm tileIds).length_eq

theorem returned_ids (valid : d.Valid platform g player tileIds) :
    d.returned.map (·.id) = sortIds tileIds := by
  have hTaken := valid.taken
  generalize sortIds tileIds = ids at hTaken
  generalize d.returned = returned at hTaken
  induction hTaken with
  | nil => rfl
  | cons hHead _ ih => rw [List.map_cons, hHead.2, ih]

theorem rack_length (valid : d.Valid platform g player tileIds) (hShape : Shape g)
    (hConserved : Conserved g) :
    d.returned.length + ((g.rack player).without (sortIds tileIds)).tiles.length =
      (g.rack player).tiles.length :=
  hConserved.rack_length hShape
    ((findDuplicate_eq_none (sortIds_pairwise tileIds)).mp valid.distinct) valid.taken

/-- The exchange minimum is a full rack, so the bag never runs short. -/
theorem drawn_length (valid : d.Valid platform g player tileIds) (hShape : Shape g)
    (hConserved : Conserved g) (hFilled : Filled g) :
    (g.bag.drawUpTo d.returned.length).1.length = d.returned.length := by
  have hSeat : player.index < g.racks.length := valid.turn ▸ hShape.turn
  have hCapacity := hFilled.capacity _ (rack_mem hSeat)
  have hRack := valid.rack_length hShape hConserved
  have hMinimum := valid.minimum
  rw [hShape.rackCapacity] at hCapacity
  rw [hShape.exchangeMinimum] at hMinimum
  rw [Bag.drawUpTo_length]
  omega

theorem bag_length (valid : d.Valid platform g player tileIds) (hShape : Shape g)
    (hConserved : Conserved g) (hFilled : Filled g) :
    (d.bag platform g player tileIds).tiles.length = g.bag.tiles.length := by
  have hDrawn := valid.drawn_length hShape hConserved hFilled
  have hReturn := (returnTilesToBag_perm platform (d.redraw g player tileIds).bag d.returned g.seed
    d.version).length_eq
  have hRest := g.bag.drawUpTo_rest_length d.returned.length
  rw [Bag.drawUpTo_length] at hDrawn
  rw [ExchangeStep.bag, hReturn, List.length_append]
  change (g.bag.drawUpTo d.returned.length).2.tiles.length + _ = _
  omega

/-- Drawn tiles come from the bag and returned ones from the rack. -/
theorem drawn_fresh (valid : d.Valid platform g player tileIds) (hShape : Shape g)
    (hConserved : Conserved g) {tile : PhysicalTile}
    (hTile : tile ∈ (g.bag.drawUpTo d.returned.length).1) : tile.id ∉ tileIds := by
  intro hMem
  have hBag : tile ∈ g.bag.tiles :=
    (g.bag.drawUpTo_perm _).mem_iff.mp (List.mem_append_left _ hTile)
  obtain ⟨other, -, hOther, hId⟩ := Slots.exists_of_forall₂_left valid.taken
    ((sortIds_perm tileIds).mem_iff.mpr hMem)
  have hSeat : player.index < g.racks.length := valid.turn ▸ hShape.turn
  have hRacks : other ∈ g.racks.flatMap Rack.tiles :=
    List.mem_flatMap.mpr ⟨_, rack_mem hSeat, hOther⟩
  have hNodup := hConserved.ids_nodup hShape
  rw [locations, List.map_append, List.map_append, List.nodup_append, List.nodup_append] at hNodup
  exact hNodup.1.2.2 _ (List.mem_map_of_mem hBag) _ (List.mem_map_of_mem hRacks) hId.symm

end ExchangeStep.Valid

theorem Filled.exchange {platform : Platform} {g : Game} {player : Player} {d : ExchangeStep}
    {tileIds : List TileId} (h : Filled g) (hShape : Shape g) (hConserved : Conserved g)
    (valid : d.Valid platform g player tileIds) : Filled (d.game platform g player tileIds) := by
  have hSeat : player.index < g.racks.length := valid.turn ▸ hShape.turn
  have hRack := valid.rack_length hShape hConserved
  have hDrawn := valid.drawn_length hShape hConserved h
  have hBagLength := valid.bag_length hShape hConserved h
  have hSame : (((g.rack player).without (sortIds tileIds)).extend
      (g.bag.drawUpTo d.returned.length).1).tiles.length = (g.rack player).tiles.length := by
    rw [Rack.extend, List.length_append, hDrawn]
    omega
  refine ⟨forall_mem_redraw ?_ h.capacity, fun hBag => ?_, fun _ => ?_⟩
  · rw [hSame]
    exact h.capacity _ (rack_mem hSeat)
  · have hBefore : g.bag.tiles ≠ [] := by
      have hPos := List.length_pos_iff.mpr hBag
      change 0 < (d.bag platform g player tileIds).tiles.length at hPos
      exact List.length_pos_iff.mp (by omega)
    refine forall_mem_redraw ?_ (h.full hBefore)
    rw [hSame]
    exact h.full hBefore _ (rack_mem hSeat)
  · refine forall_mem_redraw (fun hEmpty => ?_) (h.playable valid.phase)
    rw [hEmpty, List.length_nil] at hSame
    exact h.playable valid.phase _ (rack_mem hSeat) (List.length_eq_zero_iff.mp hSame.symm)

theorem Reachable.filled {platform : Platform} {g : Game} (h : Reachable platform g) :
    Filled g := by
  refine Reachable.invariant Filled ?_ ?_ h
  · intro d gameId ruleset seed mode playerCount hValid
    exact Filled.create hValid
  · intro g player action g' event hReachable hFilled hAccepted
    cases hAccepted with
    | place d valid => exact hFilled.place hReachable.shape valid
    | exchange d valid => exact hFilled.exchange hReachable.shape hReachable.conserved valid
    | pass d valid => exact ⟨hFilled.capacity, hFilled.full, fun _ => hFilled.playable valid.phase⟩
    | resign d valid =>
        exact ⟨hFilled.capacity, hFilled.full, fun _ => hFilled.playable valid.phase⟩

/-- Racks never exceed their capacity, are full while the bag is not empty and
are not empty while the game goes on. An accepted exchange draws as many tiles
as it returns, none of them returned ones, and keeps the size of the bag. -/
theorem reachable_racks_filled {platform : Platform} {g : Game} (h : Reachable platform g) :
    (∀ rack ∈ g.racks, rack.tiles.length ≤ g.ruleset.game.rackCapacity.toNat) ∧
    (g.bag.tiles ≠ [] →
      ∀ rack ∈ g.racks, rack.tiles.length = g.ruleset.game.rackCapacity.toNat) ∧
    (g.state.phase = .active → ∀ rack ∈ g.racks, rack.tiles ≠ []) ∧
    (∀ player version tileIds g' event,
      g.exchangeTiles platform player version tileIds = .ok (g', event) →
      g'.bag.tiles.length = g.bag.tiles.length ∧
      ∃ transition, g'.privateEvents = g.privateEvents ++ [transition] ∧
        (transition.removed.map (·.id)).Perm tileIds ∧
        transition.drawn.length = tileIds.length ∧
        ∀ tile ∈ transition.drawn, tile.id ∉ tileIds) := by
  have hShape := h.shape
  have hConserved := h.conserved
  have hFilled := h.filled
  refine ⟨hFilled.capacity, hFilled.full, hFilled.playable, ?_⟩
  intro player version tileIds g' event hExchange
  obtain ⟨-, d, valid, rfl, -⟩ := exchangeTiles_eq_ok.mp hExchange
  refine ⟨valid.bag_length hShape hConserved hFilled, d.privateEvent g player tileIds, rfl, ?_, ?_,
    fun tile => valid.drawn_fresh hShape hConserved⟩
  · change (d.returned.map (·.id)).Perm tileIds
    rw [valid.returned_ids]
    exact sortIds_perm tileIds
  · exact (valid.drawn_length hShape hConserved hFilled).trans valid.returned_length

theorem hookTable_racks_filled :
    ∃ g, Reachable basicPlatform g ∧ g.state.phase = .active ∧
      (∀ rack ∈ g.racks, rack.tiles.length ≤ g.ruleset.game.rackCapacity.toNat) ∧
      ∀ rack ∈ g.racks, rack.tiles ≠ [] := by
  obtain ⟨g, hReachable, -, hPhase, -⟩ := exists_played
  have hFilled := reachable_racks_filled hReachable
  exact ⟨g, hReachable, hPhase, hFilled.1, hFilled.2.2.1 hPhase⟩

end WordArena.Engine
