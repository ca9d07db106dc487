import WordArena.Engine.Line

/-! The order of submission. Placements are checked in the order they were sent
and sorted only afterwards; neither the result of a placement nor that of an
exchange depends on that order. -/
namespace WordArena.Engine

open Fallible

/-- Squares of different placements have different sort keys. -/
theorem Orientation.key_injective {o : Orientation} {a b : Coordinate} (h : o.key a = o.key b) :
    a = b := by
  have := a.row.toNat_lt
  have := a.column.toNat_lt
  have := b.row.toNat_lt
  have := b.column.toNat_lt
  cases o <;> simp only [Orientation.key] at h <;> exact Coordinate.ext_toNat (by omega) (by omega)

/-- On distinct squares sorting forgets the order. -/
theorem sortPlacements_congr {o : Orientation} {xs ys : List Placement} (h : xs.Perm ys)
    (hDistinct : (xs.map (·.coordinate)).Nodup) : sortPlacements o xs = sortPlacements o ys := by
  have hPerm := (sortPlacements_perm o xs).trans (h.trans (sortPlacements_perm o ys).symm)
  refine List.Perm.eq_of_pairwise (fun p q hp hq hLow hHigh => ?_) (sortPlacements_pairwise o xs)
    (sortPlacements_pairwise o ys) hPerm
  have hpMem := (sortPlacements_perm o xs).mem_iff.mp hp
  have hqMem := (h.trans (sortPlacements_perm o ys).symm).mem_iff.mpr hq
  exact List.inj_on_of_nodup_map hDistinct hpMem hqMem
    (Orientation.key_injective (Nat.le_antisymm hLow hHigh))

section

variable {platform : Platform} {g : Game} {player : Player}

/-- A reordered submission prepares the same move. -/
theorem preparePlacement_perm {xs ys : List Placement} (h : xs.Perm ys) {m : PreparedMove}
    (hPrepare : g.preparePlacement platform player xs = .ok m) :
    g.preparePlacement platform player ys = .ok m := by
  simp only [Game.preparePlacement, bind_eq_ok, reject_eq_ok, validateOwnedPlacements_eq_ok,
    validateUniqueCoordinates_eq_ok, Prod.exists, okOr_eq_ok, Checked.addU32_eq_some,
    pure_eq_ok] at hPrepare ⊢
  obtain ⟨-, hNonempty, owned, ⟨hCanon, hOwned, hIds⟩, -, hUnique, o, hOriented, _, hContiguous, _,
    hConnected, -, hFormed, words, wordScore, hWords, score, hScore, rfl⟩ := hPrepare
  -- The canonical placements and their tiles are reordered with the submission.
  obtain ⟨qs, hCanonQs, hQs⟩ := List.perm_comp_forall₂ h.symm hCanon
  obtain ⟨ts, hOwnedTs, -⟩ := List.perm_comp_forall₂ hQs hOwned
  have hSorted : sortPlacements o qs = sortPlacements o owned.placements :=
    (sortPlacements_congr hQs.symm hUnique).symm
  have hPlayed : ((sortPlacements o owned.placements).filterMap fun p =>
      ts.find? fun tile => tile.id = p.tileId) = (sortPlacements o owned.placements).filterMap fun p =>
        owned.played.find? fun tile => tile.id = p.tileId := by
    refine Slots.forall₂_unique (r := Owned g player) (fun _ _ _ => Owned.unique)
      (Slots.forall₂_filterMap fun p hp => ?_) (Slots.forall₂_filterMap fun p hp => ?_)
    · exact find_played hOwnedTs (hQs.mem_iff.mpr ((sortPlacements_perm o _).mem_iff.mp hp))
    · exact find_played hOwned ((sortPlacements_perm o _).mem_iff.mp hp)
  refine ⟨(), fun hNil => hNonempty (List.perm_nil.mp (hNil ▸ h)), ⟨qs, ts⟩,
    ⟨hCanonQs, hOwnedTs, (hQs.map _).nodup_iff.mpr hIds⟩, (), (hQs.map _).nodup_iff.mpr hUnique, o,
    (orientation_perm hQs).trans hOriented, ?_⟩
  simp only [hSorted]
  exact ⟨(), hContiguous, (), hConnected, (), hFormed, words, wordScore, hWords, score, hScore,
    by rw [hPlayed]⟩

theorem playTiles_of_perm {xs ys : List Placement} (h : xs.Perm ys) {version : UInt64}
    {result : Game × GameEvent} (hPlay : g.playTiles platform player version xs = .ok result) :
    g.playTiles platform player version ys = .ok result := by
  obtain ⟨hVersion, d, valid, hGame, hEvent⟩ := playTiles_eq_ok.mp hPlay
  exact playTiles_eq_ok.mpr ⟨hVersion, d,
    { valid with prepare := preparePlacement_perm h valid.prepare }, hGame, hEvent⟩

end

theorem sortIds_congr {xs ys : List TileId} (h : xs.Perm ys) : sortIds xs = sortIds ys := by
  refine List.Perm.eq_of_pairwise (fun a b _ _ hLow hHigh => ?_) (sortIds_pairwise xs)
    (sortIds_pairwise ys) ((sortIds_perm xs).trans (h.trans (sortIds_perm ys).symm))
  cases a
  cases b
  exact congrArg TileId.mk (UInt16.le_antisymm hLow hHigh)

/-- A placement has the same outcome in every order of its tiles, or is refused in every
order; an exchange has the same answer in every order. -/
theorem submissions_order_independent (platform : Platform) (g : Game) (player : Player)
    (version : UInt64) {xs ys : List Placement} (h : xs.Perm ys) {ids others : List TileId}
    (hIds : ids.Perm others) :
    (∀ result, g.playTiles platform player version xs = .ok result ↔
      g.playTiles platform player version ys = .ok result) ∧
    g.exchangeTiles platform player version ids = g.exchangeTiles platform player version others := by
  refine ⟨fun result => ⟨playTiles_of_perm h, playTiles_of_perm h.symm⟩, ?_⟩
  have hEmpty : (ids = []) = (others = []) :=
    propext ⟨fun hNil => List.perm_nil.mp (hNil ▸ hIds.symm), fun hNil => List.perm_nil.mp (hNil ▸ hIds)⟩
  simp only [Game.exchangeTiles, hEmpty, sortIds_congr hIds]

theorem hookTable_order_independent : ∃ fresh, hookTable = .ok fresh ∧
    (∀ result, fresh.playTiles basicPlatform .one 0 [⟨⟨10⟩, ⟨7, 7⟩, ⟨"B", false⟩⟩,
        ⟨⟨1⟩, ⟨7, 8⟩, ⟨"A", false⟩⟩] = .ok result ↔
      fresh.playTiles basicPlatform .one 0 [⟨⟨1⟩, ⟨7, 8⟩, ⟨"A", false⟩⟩,
        ⟨⟨10⟩, ⟨7, 7⟩, ⟨"B", false⟩⟩] = .ok result) ∧
    fresh.exchangeTiles basicPlatform .one 0 [⟨10⟩, ⟨1⟩] =
      fresh.exchangeTiles basicPlatform .one 0 [⟨1⟩, ⟨10⟩] := by
  obtain ⟨fresh, hFresh, -⟩ := hookTable_played
  exact ⟨fresh, hFresh,
    submissions_order_independent basicPlatform fresh .one 0 (List.Perm.swap ..) (List.Perm.swap ..)⟩

end WordArena.Engine
