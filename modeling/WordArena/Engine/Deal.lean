import WordArena.Library.Slots
import WordArena.Engine.Random

/-! What the tile operations compute: the numbered distribution, the meaning of
the conservation check, the initial deal and the return of exchanged tiles. -/
namespace WordArena.Engine

open Fallible

/-- The physical tiles of a distribution, numbered in ruleset order. -/
def physicalTiles (game : GameRules) : List PhysicalTile :=
  (expectedFaces game).zipIdx.map fun entry => ⟨⟨UInt16.ofNat entry.2⟩, entry.1⟩

theorem expectedFaces_length (game : GameRules) : (expectedFaces game).length = game.totalTiles := by
  simp [expectedFaces, GameRules.totalTiles, List.length_flatMap]

theorem physicalTiles_length (game : GameRules) : (physicalTiles game).length = game.totalTiles := by
  simp [physicalTiles, expectedFaces_length]

/-- Numbering succeeds exactly when every number fits the identity. -/
theorem buildTiles_eq_ok {game : GameRules} {tiles : List PhysicalTile} :
    buildTiles game = .ok tiles ↔ game.totalTiles ≤ 2 ^ 16 ∧ tiles = physicalTiles game := by
  have hMap : ∀ (faces : List TileFace) (start : Nat) (tiles : List PhysicalTile),
      (faces.zipIdx start).mapM (fun entry => do
        let id ← okOr (Checked.toU16 entry.2) RandomError.tooManyTiles
        return (⟨⟨id⟩, entry.1⟩ : PhysicalTile)) = .ok tiles ↔
      (faces = [] ∨ start + faces.length ≤ 2 ^ 16) ∧
        tiles = (faces.zipIdx start).map fun entry => ⟨⟨UInt16.ofNat entry.2⟩, entry.1⟩ := by
    intro faces
    induction faces with
    | nil => simp [@eq_comm _ [], pure, Except.pure]
    | cons face faces ih =>
        intro start tiles
        simp only [List.zipIdx_cons, List.mapM_cons, bind_eq_ok, okOr_eq_ok, pure_eq_ok, ih,
          List.map_cons, List.length_cons, reduceCtorEq, false_or]
        constructor
        · rintro ⟨_, ⟨id, hId, rfl⟩, rest, ⟨hRest, rfl⟩, rfl⟩
          rw [Checked.toU16_eq_some] at hId
          have hLt := id.toNat_lt
          refine ⟨?_, ?_⟩
          · rcases hRest with rfl | hRest
            · simp only [List.length_nil]
              omega
            · omega
          · rw [← hId, UInt16.ofNat_toNat]
        · rintro ⟨hFits, rfl⟩
          have hId : (UInt16.ofNat start).toNat = start := UInt16.toNat_ofNat_of_lt' (by
            rw [UInt16.size]
            omega)
          exact ⟨_, ⟨_, Checked.toU16_eq_some.mpr hId, rfl⟩, _,
            ⟨.inr (by omega), rfl⟩, rfl⟩
  rw [buildTiles, hMap, ← expectedFaces_length, physicalTiles]
  refine and_congr_left fun _ => ?_
  constructor
  · rintro (h | h)
    · simp [h]
    · omega
  · intro h
    exact .inr (by omega)

section

variable {game : GameRules} (hSize : game.totalTiles ≤ 2 ^ 16)

include hSize

/-- A tile belongs to the distribution when its number carries its face. -/
theorem mem_physicalTiles {tile : PhysicalTile} :
    tile ∈ physicalTiles game ↔ (expectedFaces game)[tile.id.raw.toNat]? = some tile.face := by
  rw [← expectedFaces_length] at hSize
  simp only [physicalTiles, List.mem_map, Prod.exists, List.mem_zipIdx_iff_getElem?]
  constructor
  · rintro ⟨face, i, hFace, rfl⟩
    have hIndex : i < 2 ^ 16 := by
      have := (List.getElem?_eq_some_iff.mp hFace).1
      omega
    rw [show (UInt16.ofNat i).toNat = i from UInt16.toNat_ofNat_of_lt' hIndex]
    exact hFace
  · intro h
    exact ⟨tile.face, tile.id.raw.toNat, h, by rw [UInt16.ofNat_toNat]⟩

/-- Every physical tile has its own identity. -/
theorem physicalTiles_ids_nodup : ((physicalTiles game).map (·.id)).Nodup := by
  have hIds : (physicalTiles game).map (·.id) =
      (List.range game.totalTiles).map fun i => (⟨UInt16.ofNat i⟩ : TileId) := by
    rw [physicalTiles, List.map_map, ← expectedFaces_length, List.range_eq_range',
      ← List.zipIdx_map_snd 0, List.map_map]
    rfl
  rw [hIds]
  refine List.Nodup.map_on ?_ List.nodup_range
  intro a ha b hb h
  rw [List.mem_range] at ha hb
  have hRaw := congrArg (fun id : TileId => id.raw.toNat) h
  simp only at hRaw
  rwa [UInt16.toNat_ofNat_of_lt' (by rw [UInt16.size]; omega),
    UInt16.toNat_ofNat_of_lt' (by rw [UInt16.size]; omega)] at hRaw

theorem checkTile_eq_ok {ids next : List TileId} {tile : PhysicalTile} :
    checkTile game ids tile = .ok next ↔
      tile ∈ physicalTiles game ∧ tile.id ∉ ids ∧ next = tile.id :: ids := by
  simp only [checkTile, bind_eq_ok, reject_eq_ok, pure_eq_ok, mem_physicalTiles hSize, not_not,
    not_le, @eq_comm _ next]
  constructor
  · rintro ⟨-, -, -, hFresh, -, hFace, hNext⟩
    exact ⟨hFace, hFresh, hNext⟩
  · rintro ⟨hFace, hFresh, hNext⟩
    have hIndex := (List.getElem?_eq_some_iff.mp hFace).1
    rw [expectedFaces_length] at hIndex
    exact ⟨(), hIndex, (), hFresh, (), hFace, hNext⟩

theorem foldlM_checkTile_eq_ok {tiles : List PhysicalTile} {ids next : List TileId} :
    tiles.foldlM (checkTile game) ids = .ok next ↔
      (∀ tile ∈ tiles, tile ∈ physicalTiles game) ∧ (tiles.map (·.id)).Nodup ∧
        (∀ tile ∈ tiles, tile.id ∉ ids) ∧ next = (tiles.map (·.id)).reverse ++ ids := by
  induction tiles generalizing ids with
  | nil => simp [@eq_comm _ ids]
  | cons tile tiles ih =>
      simp only [List.foldlM_cons, bind_eq_ok, checkTile_eq_ok hSize, ih, List.forall_mem_cons,
        List.map_cons, List.nodup_cons, List.reverse_cons, List.append_assoc, List.singleton_append]
      constructor
      · rintro ⟨_, ⟨hTile, hFresh, rfl⟩, hTiles, hNodup, hOthers, rfl⟩
        simp only [List.mem_cons, not_or] at hOthers
        refine ⟨⟨hTile, hTiles⟩, ⟨?_, hNodup⟩, ⟨hFresh, fun t ht => (hOthers t ht).2⟩, rfl⟩
        intro hMem
        obtain ⟨other, hOther, hEq⟩ := List.mem_map.mp hMem
        exact (hOthers other hOther).1 hEq
      · rintro ⟨⟨hTile, hTiles⟩, ⟨hNew, hNodup⟩, ⟨hFresh, hOthers⟩, rfl⟩
        refine ⟨_, ⟨hTile, hFresh, rfl⟩, hTiles, hNodup, fun t ht => ?_, rfl⟩
        rw [List.mem_cons, not_or]
        exact ⟨fun hEq => hNew (hEq ▸ List.mem_map_of_mem ht), hOthers t ht⟩

/-- The conservation check accepts exactly the rearrangements of the
distribution. -/
theorem verifyTileConservation_eq_ok {bag : Bag} {racks : List Rack} {board : List PhysicalTile}
    {u : Unit} :
    verifyTileConservation game bag racks board = .ok u ↔
      (bag.tiles ++ racks.flatMap Rack.tiles ++ board).Perm (physicalTiles game) := by
  simp only [verifyTileConservation, bind_eq_ok, foldlM_checkTile_eq_ok hSize, reject_eq_ok,
    not_not]
  generalize bag.tiles ++ racks.flatMap Rack.tiles ++ board = tiles
  have hNumbers := physicalTiles_ids_nodup hSize
  constructor
  · rintro ⟨_, ⟨hTiles, hNodup, -, rfl⟩, hCount⟩
    simp only [List.append_nil, List.length_reverse, List.length_map] at hCount
    have hSub := List.subperm_of_subset (List.Nodup.of_map _ hNodup) hTiles
    exact hSub.perm_of_length_le (by rw [physicalTiles_length, hCount])
  · intro hPerm
    refine ⟨_, ⟨fun t ht => hPerm.mem_iff.mp ht, (hPerm.map _).nodup_iff.mpr hNumbers, by simp,
      rfl⟩, ?_⟩
    simp [hPerm.length_eq, physicalTiles_length]

end

/-! The initial deal. -/

theorem flatMap_dealSeat_perm {capacity : Nat} {table : Bag × List Rack} {seat : Seat}
    (h : seat.index < table.2.length) :
    ((dealSeat capacity table seat).1.tiles ++
      (dealSeat capacity table seat).2.flatMap Rack.tiles).Perm
      (table.1.tiles ++ table.2.flatMap Rack.tiles) := by
  obtain ⟨bag, racks⟩ := table
  have hDraw := bag.drawUpTo_perm capacity
  simp only [dealSeat]
  generalize (bag.drawUpTo capacity).1 = drawn at hDraw ⊢
  generalize (bag.drawUpTo capacity).2 = rest at hDraw ⊢
  have hRacks : ((racks.modify seat.index (·.extend drawn)).flatMap Rack.tiles).Perm
      (drawn ++ racks.flatMap Rack.tiles) := by
    have hSet := Slots.flatMap_set_perm Rack.tiles h (racks[seat.index].extend drawn)
    rw [List.modify_eq_set_get _ h, List.get_eq_getElem]
    simp only [Rack.extend, List.append_assoc] at hSet
    exact (List.perm_append_left_iff _).mp hSet
  refine (hRacks.append_left _).trans ?_
  rw [← List.append_assoc]
  exact (List.perm_append_comm.trans hDraw).append_right _

theorem length_dealSeat (capacity : Nat) (table : Bag × List Rack) (seat : Seat) :
    (dealSeat capacity table seat).2.length = table.2.length := by
  simp [dealSeat]

/-- Dealing moves tiles from the bag to the racks and nowhere else. -/
theorem foldl_dealSeat_perm {capacity : Nat} {seats : List Seat} {table : Bag × List Rack}
    (h : ∀ seat ∈ seats, seat.index < table.2.length) :
    ((seats.foldl (dealSeat capacity) table).1.tiles ++
      (seats.foldl (dealSeat capacity) table).2.flatMap Rack.tiles).Perm
      (table.1.tiles ++ table.2.flatMap Rack.tiles) := by
  induction seats generalizing table with
  | nil => exact List.Perm.refl _
  | cons seat seats ih =>
      rw [List.forall_mem_cons] at h
      rw [List.foldl_cons]
      refine (ih ?_).trans (flatMap_dealSeat_perm h.1)
      rw [length_dealSeat]
      exact h.2

theorem length_foldl_dealSeat (capacity : Nat) (seats : List Seat) (table : Bag × List Rack) :
    (seats.foldl (dealSeat capacity) table).2.length = table.2.length := by
  induction seats generalizing table with
  | nil => rfl
  | cons seat seats ih => rw [List.foldl_cons, ih, length_dealSeat]

theorem bag_foldl_dealSeat (capacity : Nat) (seats : List Seat) (table : Bag × List Rack) :
    (seats.foldl (dealSeat capacity) table).1.tiles.length =
      table.1.tiles.length - capacity * seats.length := by
  induction seats generalizing table with
  | nil => rfl
  | cons seat seats ih =>
      have hRest := table.1.drawUpTo_rest_length capacity
      rw [List.foldl_cons, ih]
      simp only [dealSeat, hRest, List.length_cons, Nat.mul_add, Nat.mul_one]
      omega

/-- With enough tiles in the bag, every seat is dealt a full rack. -/
theorem rack_foldl_dealSeat (capacity : Nat) {seats : List Seat} (table : Bag × List Rack)
    (seat : Seat) (hNodup : seats.Nodup) (hSeats : ∀ seat ∈ seats, seat.index < table.2.length)
    (hBag : capacity * seats.length ≤ table.1.tiles.length) :
    ((seats.foldl (dealSeat capacity) table).2.getD seat.index ⟨[]⟩).tiles.length =
      (table.2.getD seat.index ⟨[]⟩).tiles.length + if seat ∈ seats then capacity else 0 := by
  induction seats generalizing table with
  | nil => simp
  | cons dealt seats ih =>
      obtain ⟨hFresh, hNodup⟩ := List.nodup_cons.mp hNodup
      rw [List.forall_mem_cons] at hSeats
      rw [List.length_cons, Nat.mul_succ] at hBag
      have hDrawn := table.1.drawUpTo_length capacity
      have hRest := table.1.drawUpTo_rest_length capacity
      rw [List.foldl_cons, ih _ hNodup (by rw [length_dealSeat]; exact hSeats.2)
        (by simp only [dealSeat, hRest]; omega)]
      simp only [dealSeat, List.getD_eq_getElem?_getD, List.getElem?_modify, List.mem_cons]
      by_cases hSeat : seat = dealt
      · subst hSeat
        simp only [hFresh, List.getElem?_eq_getElem hSeats.1, Rack.extend]
        simp [hDrawn]
        omega
      · have hIndex : ¬ dealt.index = seat.index := fun h => hSeat (Seat.index_injective h.symm)
        simp [hSeat, hIndex]

/-- The bag order is a rearrangement, whatever words the generator gives. -/
theorem DeterministicRng.shuffle_perm {α : Type} (rng : DeterministicRng) (values : List α) :
    (rng.shuffle values).1.Perm values :=
  Shuffle.shuffle_perm ..

/-- The deal of a shuffled distribution. -/
def initialDeal (platform : Platform) (ruleset : Ruleset) (seed : GameSeed) (seats : List Seat)
    (playerCount : Nat) : InitialDeal :=
  let shuffled := ((DeterministicRng.new platform seed).shuffle (physicalTiles ruleset.game)).1
  let table := seats.foldl (dealSeat ruleset.game.rackCapacity.toNat)
    (⟨shuffled⟩, List.replicate playerCount ⟨[]⟩)
  { algorithm := .xoshiro256StarStarV1
    commitment := seed.commitment platform .xoshiro256StarStarV1
    bag := table.1
    racks := table.2 }

theorem initialDeal_perm {platform : Platform} {ruleset : Ruleset} {seed : GameSeed}
    {seats : List Seat} {playerCount : Nat} (hSeats : Seat.active playerCount = some seats) :
    ((initialDeal platform ruleset seed seats playerCount).bag.tiles ++
      (initialDeal platform ruleset seed seats playerCount).racks.flatMap Rack.tiles).Perm
      (physicalTiles ruleset.game) := by
  refine (foldl_dealSeat_perm fun seat hSeat => ?_).trans ?_
  · rw [List.length_replicate]
    exact (Seat.mem_active hSeats).mp hSeat
  · have hEmpty : (List.replicate playerCount (⟨[]⟩ : Rack)).flatMap Rack.tiles = [] := by
      simp [List.flatMap_replicate]
    rw [hEmpty, List.append_nil]
    exact DeterministicRng.shuffle_perm ..

/-- Preparation succeeds for every built-in ruleset and supported table, so
its conservation check never fails. -/
theorem prepareInitialDealForPlayers_eq_ok {platform : Platform} {ruleset : Ruleset}
    {seed : GameSeed} {playerCount : Nat} {deal : InitialDeal} :
    prepareInitialDealForPlayers platform ruleset seed playerCount = .ok deal ↔
      ruleset = Ruleset.builtin ruleset.id ∧ ∃ seats, Seat.active playerCount = some seats ∧
        deal = initialDeal platform ruleset seed seats playerCount := by
  simp only [prepareInitialDealForPlayers, bind_eq_ok, mapErr_eq_ok, validate_eq_ok, okOr_eq_ok,
    buildTiles_eq_ok, pure_eq_ok]
  constructor
  · rintro ⟨-, hRuleset, seats, hSeats, _, ⟨-, rfl⟩, -, -, rfl⟩
    exact ⟨hRuleset, seats, hSeats, rfl⟩
  · rintro ⟨hRuleset, seats, hSeats, rfl⟩
    have hSize : ruleset.game.totalTiles ≤ 2 ^ 16 := by
      have := builtin_totalTiles_bounds ruleset.id
      rw [hRuleset]
      omega
    refine ⟨(), hRuleset, seats, hSeats, _, ⟨hSize, rfl⟩, (), ?_, rfl⟩
    rw [verifyTileConservation_eq_ok hSize, List.append_nil]
    exact initialDeal_perm hSeats

/-- An exchange puts the returned tiles back among the others. -/
theorem returnTilesToBag_perm (platform : Platform) (bag : Bag) (returned : List PhysicalTile)
    (seed : GameSeed) (transition : UInt64) :
    (returnTilesToBag platform bag returned seed transition).tiles.Perm (bag.tiles ++ returned) :=
  (DeterministicRng.shuffle_perm ..).trans ((List.perm_insertionSort ..).append_left _)

end WordArena.Engine
