import WordArena.Engine.Connected
import WordArena.Engine.Totality

/-! Which placements the rules allow, said without the checks of the source:
tiles of the rack, free squares on one gapless line that touches the board, and
accepted words wherever a new tile makes one. The checks accept exactly these. -/
namespace WordArena.Engine

open Fallible WordArena.Lexicon

/-! The rules. -/

def squaresOf (placements : List Placement) : Set Coordinate :=
  { c | ∃ p ∈ placements, p.coordinate = c }

/-- A text that normalises to one basic letter. -/
def Game.Reads (platform : Platform) (g : Game) (text token : String) : Prop :=
  ∃ key, normalizeKey platform.tables g.profile text = .ok key ∧ key.value = token ∧
    isPhysicalToken token = true

/-- A letter tile stands for its own letter, a blank is submitted as a blank. -/
def StandsFor (tile : PhysicalTile) (assigned : Tile) (token : String) : Prop :=
  match tile.face with
  | .letter printed => assigned.isBlank = false ∧ token = printed.asStr
  | .blank => assigned.isBlank = true

/-- The letter a square would show. -/
def Game.letterAfter (platform : Platform) (g : Game) (placements : List Placement)
    (c : Coordinate) : String :=
  match placements.find? fun p => p.coordinate = c with
  | some p =>
      match normalizeKey platform.tables g.profile p.tile.letter with
      | .ok key => key.value
      | .error _ => ""
  | none => ((g.state.tileAt c).map (·.letter)).getD ""

def Game.spelling (platform : Platform) (g : Game) (placements : List Placement)
    (run : List Coordinate) : String :=
  run.foldl (fun text c => text ++ g.letterAfter platform placements c) ""

/-- A word the placement would make: a maximal run of two or more squares, one of them new. -/
def Game.Makes (g : Game) (placements : List Placement) (run : List Coordinate) : Prop :=
  ∃ axis : Axis, Runs.Maximal axis.Next (g.state.occupied ∪ squaresOf placements) run ∧
    2 ≤ run.length ∧ ∃ p ∈ placements, p.coordinate ∈ run

structure Playable (platform : Platform) (g : Game) (player : Player)
    (placements : List Placement) : Prop where
  nonempty : placements ≠ []
  ids : (placements.map (·.tileId)).Nodup
  coordinates : (placements.map (·.coordinate)).Nodup
  free : ∀ p ∈ placements, p.coordinate.row < 15 ∧ p.coordinate.column < 15 ∧
    g.state.tileAt p.coordinate = none
  owned : ∀ p ∈ placements, ∃ tile ∈ (g.rack player).tiles, tile.id = p.tileId ∧
    ∃ token, g.Reads platform p.tile.letter token ∧ StandsFor tile p.tile token
  line : ∃ axis : Axis, (∀ p ∈ placements, ∀ q ∈ placements,
      axis.across p.coordinate = axis.across q.coordinate) ∧
    ∀ p ∈ placements, ∀ q ∈ placements, ∀ c ∈ axis.segment p.coordinate q.coordinate,
      c ∈ g.state.occupied ∪ squaresOf placements
  opening : g.state.occupied = ∅ → center ∈ squaresOf placements
  touching : g.state.occupied ≠ ∅ →
    ∃ p ∈ placements, ∃ c ∈ g.state.occupied, grid.Adj p.coordinate c
  forms : ∃ run, g.Makes placements run
  accepted : ∀ run, g.Makes placements run → g.Accepts platform (g.spelling platform placements run)

/-! Letters and tiles. -/

section

variable {platform : Platform} {g : Game} {player : Player}

theorem canonicalTileToken_eq_ok {text token : String} :
    canonicalTileToken platform g.profile text = .ok token ↔ g.Reads platform text token := by
  constructor
  · intro h
    have hToken := isPhysicalToken_of_canonical h
    simp only [canonicalTileToken, bind_eq_ok, mapErr_eq_ok, pure_eq_ok] at h
    obtain ⟨key, hKey, -, -, hValue⟩ := h
    exact ⟨key, hKey, hValue, hToken⟩
  · rintro ⟨key, hKey, rfl, hToken⟩
    obtain ⟨c, hc, hList⟩ := isPhysicalToken_iff.mp hToken
    have hSize : key.value.utf8ByteSize = 1 := by
      rw [length_of_isUpper (isUpper_of_normalizeKey hKey), hList]
      rfl
    simp only [canonicalTileToken, bind_eq_ok, mapErr_eq_ok, reject_eq_ok, pure_eq_ok, not_not]
    exact ⟨key, hKey, (), hSize, rfl⟩

theorem standsFor_iff {tile : PhysicalTile} {p : Placement} {token : String} :
    assignmentMatches tile (p.withLetter token).tile = true ↔ StandsFor tile p.tile token := by
  unfold assignmentMatches StandsFor Placement.withLetter
  cases tile.face <;> simp

/-- Canonical spelling keeps tiles and squares. -/
theorem canonical_maps {xs qs : List Placement} (h : List.Forall₂ (Canonical platform g) xs qs) :
    qs.map (·.tileId) = xs.map (·.tileId) ∧ qs.map (·.coordinate) = xs.map (·.coordinate) := by
  induction h with
  | nil => exact ⟨rfl, rfl⟩
  | cons hHead _ ih =>
      obtain ⟨hId, hSquare⟩ := hHead.kept
      exact ⟨by rw [List.map_cons, List.map_cons, hId, ih.1],
        by rw [List.map_cons, List.map_cons, hSquare, ih.2]⟩

theorem squaresOf_congr {xs ys : List Placement}
    (h : (xs.map (·.coordinate)).Perm (ys.map (·.coordinate))) : squaresOf xs = squaresOf ys := by
  ext c
  have hMem := @h.mem_iff _ c
  simp only [List.mem_map] at hMem
  exact hMem

theorem covered_eq {placements : List Placement}
    (hBounds : ∀ p ∈ placements, p.coordinate.inBounds boardSize boardSize = true) :
    g.covered placements = g.state.occupied ∪ squaresOf placements := by
  ext c
  simp only [Game.covered, Set.mem_union, Set.mem_ofPred_eq]
  constructor
  · rintro ⟨-, hSome⟩
    unfold Game.tileWithProposed at hSome
    cases hFind : placements.find? fun p => p.coordinate = c with
    | some p => exact .inr ⟨p, List.mem_of_find?_eq_some hFind, by simpa using List.find?_some hFind⟩
    | none =>
        rw [hFind, Option.isSome_map] at hSome
        exact .inl hSome
  · rintro (hOld | ⟨p, hp, rfl⟩)
    · refine ⟨inBounds_of_tileAt hOld, ?_⟩
      unfold Game.tileWithProposed
      cases placements.find? fun p => p.coordinate = c with
      | some p => rfl
      | none =>
          rw [Option.isSome_map]
          exact hOld
    · exact ⟨hBounds p hp, tileWithProposed_isSome hp⟩

/-! The checks, one by one. -/

theorem mem_segment_of_spanSquares {o : Orientation} {axis : Axis} (hAxis : o.axis = some axis)
    {first last c : Coordinate} (h : c ∈ spanSquares o first last) : c ∈ axis.segment first last := by
  have hLast := axis.along_lt last
  cases o with
  | horizontal =>
      cases hAxis
      obtain ⟨column, hColumn, rfl⟩ := List.mem_map.mp h
      rw [List.mem_range'_1] at hColumn
      simp only [Axis.along] at hLast
      have hNat : (UInt8.ofNat column).toNat = column :=
        UInt8.toNat_ofNat_of_lt' (by rw [UInt8.size]; omega)
      refine Axis.mem_segment.mpr ⟨rfl, ?_⟩
      simp only [Axis.along, hNat]
      omega
  | vertical =>
      cases hAxis
      obtain ⟨row, hRow, rfl⟩ := List.mem_map.mp h
      rw [List.mem_range'_1] at hRow
      simp only [Axis.along] at hLast
      have hNat : (UInt8.ofNat row).toNat = row :=
        UInt8.toNat_ofNat_of_lt' (by rw [UInt8.size]; omega)
      refine Axis.mem_segment.mpr ⟨rfl, ?_⟩
      simp only [Axis.along, hNat]
      omega
  | single => cases hAxis

/-- Distinct squares on one line have an orientation, that of the line. -/
theorem exists_orientation {placements : List Placement} (hNonempty : placements ≠ [])
    (hDistinct : (placements.map (·.coordinate)).Nodup) (axis : Axis)
    (hLine : ∀ p ∈ placements, ∀ q ∈ placements,
      axis.across p.coordinate = axis.across q.coordinate) :
    ∃ o, orientation placements = .ok o ∧ ∀ other, o.axis = some other → other = axis := by
  by_cases hLength : placements.length = 1
  · obtain ⟨p, rfl⟩ := List.length_eq_one_iff.mp hLength
    exact ⟨.single, rfl, fun _ hAxis => by cases hAxis⟩
  · -- Two placements of the line differ along it.
    obtain ⟨p, hp, q, hq, hNe⟩ : ∃ p ∈ placements, ∃ q ∈ placements,
        axis.along p.coordinate ≠ axis.along q.coordinate := by
      match placements, hNonempty, hLength with
      | p :: q :: rest, _, _ =>
          refine ⟨p, List.mem_cons_self, q, List.mem_cons_of_mem _ List.mem_cons_self, fun hSame => ?_⟩
          rw [List.map_cons, List.map_cons, List.nodup_cons] at hDistinct
          refine hDistinct.1 (List.mem_cons.mpr (.inl (axis.ext ?_ hSame)))
          exact hLine p List.mem_cons_self q (List.mem_cons_of_mem _ List.mem_cons_self)
    rw [orientation_eq_of_length hLength]
    have hRow := @all_eq_head_iff _ _ placements (·.row)
    have hColumn := @all_eq_head_iff _ _ placements (·.column)
    cases axis with
    | horizontal =>
        rw [hRow.mpr fun a ha b hb => UInt8.toNat_inj.mp (hLine a ha b hb),
          Bool.eq_false_iff.mpr fun hAll => hNe (congrArg UInt8.toNat (hColumn.mp hAll p hp q hq))]
        exact ⟨.horizontal, rfl, fun _ hAxis => (Option.some.inj hAxis).symm⟩
    | vertical =>
        rw [hColumn.mpr fun a ha b hb => UInt8.toNat_inj.mp (hLine a ha b hb),
          Bool.eq_false_iff.mpr fun hAll => hNe (congrArg UInt8.toNat (hRow.mp hAll p hp q hq))]
        exact ⟨.vertical, rfl, fun _ hAxis => (Option.some.inj hAxis).symm⟩

theorem validateContiguous_of_covered {placements : List Placement} {o : Orientation}
    (h : ∀ p ∈ placements, ∀ q ∈ placements, ∀ c ∈ spanSquares o p.coordinate q.coordinate,
      c ∈ g.covered placements) : g.validateContiguous placements o = .ok () := by
  unfold Game.validateContiguous
  split
  · rename_i first last hFirst hLast
    refine forM_eq_ok.mpr fun c hc => reject_eq_ok.mpr ?_
    have hCovered := h first (List.mem_of_mem_head? hFirst) last (List.mem_of_getLast? hLast) c hc
    rw [Bool.not_eq_true, Option.isNone_eq_false_iff]
    exact hCovered.2
  · rfl

theorem occupied_eq_empty_iff (hLength : g.state.board.length = boardSquares) :
    g.state.occupied = ∅ ↔ g.state.board.all Option.isNone = true := by
  rw [List.all_eq_true]
  constructor
  · intro hEmpty slot hSlot
    obtain ⟨i, hi, rfl⟩ := List.mem_iff_getElem.mp hSlot
    -- Every slot of the board belongs to a square.
    have hSquares : i < boardSquares := hLength ▸ hi
    have h225 : boardSquares = 225 := rfl
    have h15 : boardSize.toNat = 15 := rfl
    have hRow : (UInt8.ofNat (i / 15)).toNat = i / 15 :=
      UInt8.toNat_ofNat_of_lt' (by rw [UInt8.size]; omega)
    have hColumn : (UInt8.ofNat (i % 15)).toNat = i % 15 :=
      UInt8.toNat_ofNat_of_lt' (by rw [UInt8.size]; omega)
    have hBounds : (⟨UInt8.ofNat (i / 15), UInt8.ofNat (i % 15)⟩ : Coordinate).inBounds boardSize
        boardSize = true := by
      rw [Coordinate.inBounds_iff, h15, hRow, hColumn]
      omega
    have hIndex : (⟨UInt8.ofNat (i / 15), UInt8.ofNat (i % 15)⟩ : Coordinate).index boardSize = i := by
      rw [Coordinate.index, h15, hRow, hColumn]
      omega
    have hOut : (⟨UInt8.ofNat (i / 15), UInt8.ofNat (i % 15)⟩ : Coordinate) ∉ g.state.occupied := by
      rw [hEmpty]
      exact Set.notMem_empty _
    have hAt := slot_of_tileAt hLength hBounds
    rw [hIndex, List.getElem?_eq_getElem hi, Option.some.injEq] at hAt
    rw [hAt, Option.isNone_iff_eq_none, ← Option.not_isSome_iff_eq_none]
    exact hOut
  · exact fun hAll => occupied_of_all_none (List.all_eq_true.mpr hAll)

/-- Adjacent squares of the board are among the neighbours the source looks at. -/
theorem mem_neighbors_of_adj {c n : Coordinate} (h : grid.Adj c n)
    (hBounds : n.inBounds boardSize boardSize = true) : n ∈ (neighbors c).reduceOption := by
  rw [List.reduceOption_mem_iff]
  simp only [neighbors, List.mem_cons, List.not_mem_nil, or_false, @eq_comm _ (some n)]
  simp only [coordinateAt_eq_some]
  obtain ⟨axis, ⟨hRow, hColumn⟩ | ⟨hRow, hColumn⟩⟩ := h <;> cases axis <;>
    simp only [Axis.rowStep, Axis.columnStep] at hRow hColumn
  · exact .inr (.inr (.inr ⟨hBounds, by omega, by omega⟩))
  · exact .inr (.inl ⟨hBounds, by omega, by omega⟩)
  · exact .inr (.inr (.inl ⟨hBounds, by omega, by omega⟩))
  · exact .inl ⟨hBounds, by omega, by omega⟩

theorem validateConnection_of {placements : List Placement}
    (hLength : g.state.board.length = boardSquares)
    (hOpening : g.state.occupied = ∅ → center ∈ squaresOf placements)
    (hTouching : g.state.occupied ≠ ∅ →
      ∃ p ∈ placements, ∃ c ∈ g.state.occupied, grid.Adj p.coordinate c) :
    g.validateConnection placements = .ok () := by
  unfold Game.validateConnection
  split
  · rename_i hEmpty
    obtain ⟨p, hp, hCenter⟩ := hOpening ((occupied_eq_empty_iff hLength).mpr hEmpty)
    rw [reject_eq_ok, not_not, List.any_eq_true]
    exact ⟨p, hp, decide_eq_true hCenter⟩
  · rename_i hSome
    obtain ⟨p, hp, c, hc, hAdj⟩ := hTouching fun hEmpty => hSome ((occupied_eq_empty_iff hLength).mp hEmpty)
    rw [reject_eq_ok, not_not, List.any_eq_true]
    exact ⟨p, hp, List.any_eq_true.mpr ⟨c, mem_neighbors_of_adj hAdj (inBounds_of_tileAt hc), hc⟩⟩

/-! Words. -/

/-- The words looked up are the runs with a new tile. -/
theorem Laid.mem_formed_iff {placements : List Placement} {o : Orientation}
    (h : Laid g placements o) {run : List Coordinate} :
    run ∈ g.formedWordCoordinates placements o ↔ g.Makes placements run := by
  rw [Game.Makes, ← covered_eq h.bounds]
  constructor
  · intro hRun
    obtain ⟨hSegment, hTwo⟩ := mem_formedWordCoordinates.mp hRun
    obtain ⟨p, hp, axis, rfl⟩ := exists_of_mem_wordSegments hSegment
    obtain ⟨hMax, hSelf⟩ := covered_maximal axis (h.placed_mem hp)
    exact ⟨axis, hMax, hTwo, p, hp, hSelf⟩
  · rintro ⟨axis, hMax, hTwo, p, hp, hMem⟩
    exact h.run_formed hMax hTwo hp hMem

/-- The proposed tiles spell what the rules say. -/
theorem spelling_eq {xs qs sorted : List Placement}
    (hCanon : List.Forall₂ (Canonical platform g) xs qs) (hPerm : sorted.Perm qs)
    (hDistinct : (xs.map (·.coordinate)).Nodup) (run : List Coordinate) :
    run.foldl (fun text c =>
      text ++ ((g.tileWithProposed sorted c).map TileRef.letter).getD "") "" =
        g.spelling platform xs run := by
  have hMaps := (canonical_maps hCanon).2
  have hSorted : (sorted.map (·.coordinate)).Nodup :=
    (hPerm.map _).nodup_iff.mpr (hMaps ▸ hDistinct)
  unfold Game.spelling
  congr 1
  funext text c
  congr 1
  unfold Game.letterAfter Game.tileWithProposed
  cases hFind : xs.find? fun p => p.coordinate = c with
  | some p =>
      have hp := List.mem_of_find?_eq_some hFind
      have hAt : p.coordinate = c := by simpa using List.find?_some hFind
      obtain ⟨q, hq, letter, hLetter, rfl⟩ := Slots.exists_of_forall₂_left hCanon hp
      obtain ⟨key, hKey, hValue, -⟩ := canonicalTileToken_eq_ok.mp hLetter
      have hFound := Slots.find?_key hSorted (hPerm.mem_iff.mpr hq)
      rw [show (p.withLetter letter).coordinate = c from hAt] at hFound
      simp only [hFound, hKey, hValue]
      rfl
  | none =>
      have hNone : sorted.find? (fun p => p.coordinate = c) = none := by
        rw [List.find?_eq_none] at hFind ⊢
        intro q hq hSame
        obtain ⟨p, hp, hCanonical⟩ := Slots.exists_of_forall₂_right hCanon (hPerm.mem_iff.mp hq)
        refine hFind p hp ?_
        rw [← hCanonical.kept.2]
        exact hSame
      rw [hNone]
      cases g.state.tileAt c <;> rfl

theorem makes_congr {xs ys : List Placement}
    (h : (xs.map (·.coordinate)).Perm (ys.map (·.coordinate))) {run : List Coordinate} :
    g.Makes xs run ↔ g.Makes ys run := by
  have hSquares := squaresOf_congr h
  have hMem : ∀ run : List Coordinate, (∃ p ∈ xs, p.coordinate ∈ run) ↔ ∃ p ∈ ys, p.coordinate ∈ run := by
    intro run
    constructor
    · rintro ⟨p, hp, hRun⟩
      obtain ⟨q, hq, hSame⟩ : p.coordinate ∈ squaresOf ys := hSquares ▸ ⟨p, hp, rfl⟩
      exact ⟨q, hq, hSame ▸ hRun⟩
    · rintro ⟨q, hq, hRun⟩
      obtain ⟨p, hp, hSame⟩ : q.coordinate ∈ squaresOf xs := hSquares ▸ ⟨q, hq, rfl⟩
      exact ⟨p, hp, hSame ▸ hRun⟩
  simp only [Game.Makes, hSquares, hMem]

/-! Soundness. -/

/-- A prepared move is a legal placement of the canonical submission. -/
theorem canonical_of_prepare {xs : List Placement} {m : PreparedMove}
    (h : g.preparePlacement platform player xs = .ok m) :
    ∃ qs, List.Forall₂ (Canonical platform g) xs qs ∧ m.placements.Perm qs := by
  simp only [Game.preparePlacement, bind_eq_ok, reject_eq_ok, validateOwnedPlacements_eq_ok,
    validateUniqueCoordinates_eq_ok, Prod.exists, okOr_eq_ok, pure_eq_ok] at h
  obtain ⟨-, -, owned, ⟨hCanon, -, -⟩, -, -, o, -, -, -, -, -, -, -, -, -, -, -, -, rfl⟩ := h
  exact ⟨owned.placements, hCanon, sortPlacements_perm o owned.placements⟩

theorem playable_of_prepare {xs : List Placement} {m : PreparedMove}
    (h : g.preparePlacement platform player xs = .ok m) : Playable platform g player xs := by
  obtain ⟨qs, hCanon, hPerm⟩ := canonical_of_prepare h
  obtain ⟨o, hLegal⟩ := legal_of_preparePlacement h
  obtain ⟨hIdMap, hSquareMap⟩ := canonical_maps hCanon
  have hSquares : (m.placements.map (·.coordinate)).Perm (xs.map (·.coordinate)) :=
    hSquareMap ▸ hPerm.map _
  have hCovered : g.covered m.placements = g.state.occupied ∪ squaresOf xs := by
    rw [covered_eq hLegal.laid.bounds, squaresOf_congr hSquares]
  have hDistinct := hSquares.nodup_iff.mp hLegal.coordinates
  -- Every submitted tile has its canonical placement among the committed ones.
  have hEach : ∀ p ∈ xs, ∃ q ∈ m.placements, Canonical platform g p q ∧ ∃ t, Owned g player q t := by
    intro p hp
    obtain ⟨q, hq, hCanonical⟩ := Slots.exists_of_forall₂_left hCanon hp
    obtain ⟨t, -, hTile⟩ := Slots.exists_of_forall₂_left hLegal.owned (hPerm.mem_iff.mpr hq)
    exact ⟨q, hPerm.mem_iff.mpr hq, hCanonical, t, hTile⟩
  refine ⟨?_, ?_, hDistinct, fun p hp => ?_, fun p hp => ?_, ?_, fun hEmpty => ?_, fun hSome => ?_, ?_,
    fun run hRun => ?_⟩
  · rintro rfl
    cases hCanon
    exact hLegal.nonempty (List.perm_nil.mp hPerm)
  · rw [← hIdMap]
    exact (hPerm.map _).nodup_iff.mp hLegal.ids
  · obtain ⟨q, -, hCanonical, t, hTile⟩ := hEach p hp
    have h15 : boardSize.toNat = 15 := rfl
    have hBounds := Coordinate.inBounds_iff.mp hTile.inBounds
    rw [h15, hCanonical.kept.2] at hBounds
    have hFree := hTile.free
    rw [hCanonical.kept.2] at hFree
    exact ⟨UInt8.lt_iff_toNat_lt.mpr hBounds.1, UInt8.lt_iff_toNat_lt.mpr hBounds.2, hFree⟩
  · obtain ⟨q, -, ⟨letter, hLetter, rfl⟩, t, hTile⟩ := hEach p hp
    exact ⟨t, hTile.mem, hTile.id, letter, canonicalTileToken_eq_ok.mp hLetter,
      standsFor_iff.mp hTile.face⟩
  · -- The line of the committed placements is the line of the submission.
    have hLine : ∃ axis : Axis, (∀ p ∈ m.placements, ∀ q ∈ m.placements,
        axis.across p.coordinate = axis.across q.coordinate) ∧ ∀ p ∈ m.placements,
          ∀ q ∈ m.placements, ∀ c ∈ axis.segment p.coordinate q.coordinate,
            c ∈ g.covered m.placements := by
      cases hAxis : o.axis with
      | some axis =>
          obtain ⟨first, last, -, hFirst, hLast, -, hSegment, hOccupied⟩ := hLegal.laid.line hAxis
          refine ⟨axis, fun p hp q hq => ?_, fun p hp q hq c hc => ?_⟩
          · exact (hSegment p hp).1.trans (hSegment q hq).1.symm
          · have hp' := Axis.mem_segment.mp (hSegment p hp)
            have hq' := Axis.mem_segment.mp (hSegment q hq)
            obtain ⟨hAcross, hLow, hHigh⟩ := Axis.mem_segment.mp hc
            refine ⟨?_, hOccupied c (Axis.mem_segment.mpr ⟨by omega, by omega, by omega⟩)⟩
            have hpBounds := Coordinate.inBounds_iff.mp (hLegal.laid.bounds p hp)
            have hqBounds := Coordinate.inBounds_iff.mp (hLegal.laid.bounds q hq)
            rw [Coordinate.inBounds_iff]
            cases axis <;> simp only [Axis.across, Axis.along] at hAcross hHigh <;> omega
      | none =>
          obtain ⟨-, only, hOnly⟩ := orientation_no_axis hLegal.oriented hAxis
          have hSame : ∀ p ∈ m.placements, p = only := fun p hp => by
            rw [hOnly] at hp
            exact List.mem_singleton.mp hp
          refine ⟨.horizontal, fun p hp q hq => by rw [hSame p hp, hSame q hq],
            fun p hp q hq c hc => ?_⟩
          rw [hSame p hp, hSame q hq] at hc
          obtain ⟨hAcross, hLow, hHigh⟩ := Axis.mem_segment.mp hc
          rw [Axis.ext .horizontal hAcross (by omega)]
          exact hLegal.laid.placed_mem (hSame p hp ▸ hp)
    obtain ⟨axis, hAcross, hSegment⟩ := hLine
    refine ⟨axis, fun p hp q hq => ?_, fun p hp q hq c hc => ?_⟩
    · obtain ⟨p', hp', hKeepP, -⟩ := hEach p hp
      obtain ⟨q', hq', hKeepQ, -⟩ := hEach q hq
      rw [← hKeepP.kept.2, ← hKeepQ.kept.2]
      exact hAcross p' hp' q' hq'
    · obtain ⟨p', hp', hKeepP, -⟩ := hEach p hp
      obtain ⟨q', hq', hKeepQ, -⟩ := hEach q hq
      rw [← hKeepP.kept.2, ← hKeepQ.kept.2] at hc
      exact hCovered ▸ hSegment p' hp' q' hq' c hc
  · obtain ⟨p, hp, hCenter⟩ := hLegal.touches.1 hEmpty
    rw [← squaresOf_congr hSquares]
    exact ⟨p, hp, hCenter⟩
  · obtain ⟨p, hp, c, hc, hAdj⟩ := hLegal.touches.2 hSome
    obtain ⟨p', hp', hSame⟩ : p.coordinate ∈ squaresOf xs :=
      squaresOf_congr hSquares ▸ ⟨p, hp, rfl⟩
    exact ⟨p', hp', c, hc, hSame ▸ hAdj⟩
  · obtain ⟨run, hRun⟩ := List.exists_mem_of_ne_nil _ hLegal.formed
    exact ⟨run, (makes_congr hSquares).mp (hLegal.laid.mem_formed_iff.mp hRun)⟩
  · have hFormed := hLegal.laid.mem_formed_iff.mpr ((makes_congr hSquares).mpr hRun)
    obtain ⟨_, hWords, -⟩ := hLegal.scored
    obtain ⟨word, hWord⟩ := foldlM_addWord_valid hWords hFormed
    rw [← spelling_eq hCanon hPerm hDistinct]
    exact accepts_of_validateWord hWord

/-! Completeness. -/

theorem validateWord_succeeds (hBuiltin : g.ruleset = Ruleset.builtin g.ruleset.id)
    {proposed : List Placement} {run : List Coordinate} (hLength : run.length ≤ 15)
    (hNews : newCount proposed run ≤ 7)
    (hAccepts : g.Accepts platform (run.foldl (fun text c =>
      text ++ ((g.tileWithProposed proposed c).map TileRef.letter).getD "") "")) :
    ∃ word, g.validateWord platform proposed run = .ok word := by
  rcases ok_or_error (g.validateWord platform proposed run) with hOk | ⟨e, he⟩
  · exact hOk
  · exfalso
    have hExternal := (@validateWord_bound platform g proposed hBuiltin run hLength hNews).1 e he
    have hPow : 3 ^ (0 + newCount proposed run) ≤ 2187 := by
      rw [Nat.zero_add]
      exact Nat.pow_le_pow_right (by decide) hNews
    obtain ⟨found, hFound, -⟩ := @foldlM_tallySquare_bound g proposed hBuiltin run
      ⟨"", 0, 1⟩ 0 0 (le_refl 0) (le_refl 1) (by omega) (by omega)
    obtain ⟨key, hKey, hContains⟩ := hAccepts
    rw [← foldlM_tallySquare_text hFound] at hKey
    simp only [Game.validateWord, hFound, ok_bind, bind_eq_error, mapErr_eq_error, mapErr_eq_ok,
      hKey, Except.ok.injEq, reject_eq_error, okOr_eq_error, pure_ne_error] at he
    obtain ⟨_, ⟨⟩, -⟩ | ⟨_, rfl, ⟨hOut, -⟩ | ⟨_, -, ⟨-, rfl⟩ | ⟨_, -, ⟨⟩⟩⟩⟩ := he
    · rw [hContains] at hOut
      cases hOut
    · exact hExternal trivial

/-- A loop over words stops at one of them, or overflows. -/
theorem foldlM_addWord_error {proposed : List Placement} {runs : List (List Coordinate)}
    {sofar : List FormedWord × UInt32} {e : GameError}
    (h : runs.foldlM (g.addWord platform proposed) sofar = .error e) :
    e.Internal ∨ ∃ run ∈ runs, g.validateWord platform proposed run = .error e := by
  induction runs generalizing sofar with
  | nil => cases h
  | cons run runs ih =>
      rw [List.foldlM_cons, bind_eq_error] at h
      rcases h with hFirst | ⟨next, -, hRest⟩
      · rw [Game.addWord, bind_eq_error] at hFirst
        rcases hFirst with hWord | ⟨word, -, hSum⟩
        · exact .inr ⟨run, List.mem_cons_self, hWord⟩
        · obtain ⟨-, rfl⟩ | ⟨_, -, ⟨⟩⟩ := bind_eq_error.mp hSum |>.imp_left okOr_eq_error.mp
          exact .inl trivial
      · refine (ih hRest).imp_right ?_
        rintro ⟨other, hOther, hError⟩
        exact ⟨other, List.mem_cons_of_mem _ hOther, hError⟩

/-- The canonical form of a playable submission, with the tiles it uses. -/
theorem Playable.owned_canonical (hShape : Shape g) (hConserved : Conserved g)
    {xs : List Placement} (h : Playable platform g player xs) :
    ∃ qs ts, List.Forall₂ (Canonical platform g) xs qs ∧ List.Forall₂ (Owned g player) qs ts := by
  obtain ⟨qs, hCanon⟩ : ∃ qs, List.Forall₂ (Canonical platform g) xs qs := by
    refine Slots.exists_forall₂ fun p hp => ?_
    obtain ⟨_, -, -, token, hReads, -⟩ := h.owned p hp
    exact ⟨p.withLetter token, token, canonicalTileToken_eq_ok.mpr hReads, rfl⟩
  obtain ⟨ts, hOwned⟩ : ∃ ts, List.Forall₂ (Owned g player) qs ts := by
    refine Slots.exists_forall₂ fun q hq => ?_
    obtain ⟨p, hp, letter, hLetter, rfl⟩ := Slots.exists_of_forall₂_right hCanon hq
    obtain ⟨tile, hTile, hId, token, ⟨key, hKey, hValue, -⟩, hStands⟩ := h.owned p hp
    obtain ⟨hRow, hColumn, hFree⟩ := h.free p hp
    obtain ⟨key', hKey', hValue', hToken⟩ := canonicalTileToken_eq_ok.mp hLetter
    have hSame : token = letter := by
      rw [hKey, Except.ok.injEq] at hKey'
      rw [← hValue, ← hValue', hKey']
    refine ⟨tile, ?_, ?_, hToken, standsFor_iff.mpr (hSame ▸ hStands), hFree⟩
    · have hFound := Slots.find?_key (hConserved.rack_ids_nodup hShape player) hTile
      rwa [hId] at hFound
    · rw [Coordinate.inBounds_iff]
      exact ⟨UInt8.lt_iff_toNat_lt.mp hRow, UInt8.lt_iff_toNat_lt.mp hColumn⟩
  exact ⟨qs, ts, hCanon, hOwned⟩

/-- Sorted along its line, a playable submission lies on the board without a gap and connected. -/
theorem Playable.laid (hShape : Shape g) {xs qs : List Placement} {ts : List PhysicalTile}
    (h : Playable platform g player xs) (hCanon : List.Forall₂ (Canonical platform g) xs qs)
    (hOwned : List.Forall₂ (Owned g player) qs ts) :
    ∃ o, orientation qs = .ok o ∧ Laid g (sortPlacements o qs) o ∧
      g.validateConnection (sortPlacements o qs) = .ok () := by
  have hSquareMap := (canonical_maps hCanon).2
  have hDistinct : (qs.map (·.coordinate)).Nodup := hSquareMap ▸ h.coordinates
  have hSquares : ∀ q ∈ qs, ∃ p ∈ xs, p.coordinate = q.coordinate := by
    intro q hq
    obtain ⟨p, hp, hCanonical⟩ := Slots.exists_of_forall₂_right hCanon hq
    exact ⟨p, hp, hCanonical.kept.2.symm⟩
  have hSome : qs ≠ [] := by
    rintro rfl
    cases hCanon
    exact h.nonempty rfl
  obtain ⟨axis, hAcross, hLine⟩ := h.line
  obtain ⟨o, hOriented, hAxis⟩ := exists_orientation hSome hDistinct axis fun p hp q hq => by
    obtain ⟨p', hp', hpSame⟩ := hSquares p hp
    obtain ⟨q', hq', hqSame⟩ := hSquares q hq
    rw [← hpSame, ← hqSame]
    exact hAcross p' hp' q' hq'
  have hPerm := sortPlacements_perm o qs
  have hMaps : ((sortPlacements o qs).map (·.coordinate)).Perm (xs.map (·.coordinate)) :=
    hSquareMap ▸ hPerm.map _
  have hBounds : ∀ p ∈ sortPlacements o qs, p.coordinate.inBounds boardSize boardSize = true := by
    intro p hp
    obtain ⟨_, -, hTile⟩ := Slots.exists_of_forall₂_left hOwned (hPerm.mem_iff.mp hp)
    exact hTile.inBounds
  have hCovered : g.covered (sortPlacements o qs) = g.state.occupied ∪ squaresOf xs := by
    rw [covered_eq hBounds, squaresOf_congr hMaps]
  have hContiguous : g.validateContiguous (sortPlacements o qs) o = .ok () := by
    refine validateContiguous_of_covered fun p hp q hq c hc => ?_
    obtain ⟨p', hp', hpSame⟩ := hSquares p (hPerm.mem_iff.mp hp)
    obtain ⟨q', hq', hqSame⟩ := hSquares q (hPerm.mem_iff.mp hq)
    cases hOwn : o.axis with
    | none =>
        cases o with
        | single => exact absurd hc List.not_mem_nil
        | horizontal => cases hOwn
        | vertical => cases hOwn
    | some other =>
        have hSegment := mem_segment_of_spanSquares hOwn hc
        rw [hAxis other hOwn, ← hpSame, ← hqSame] at hSegment
        exact hCovered ▸ hLine p' hp' q' hq' c hSegment
  have hConnected : g.validateConnection (sortPlacements o qs) = .ok () := by
    refine validateConnection_of hShape.board (fun hEmpty => ?_) fun hOther => ?_
    · rw [squaresOf_congr hMaps]
      exact h.opening hEmpty
    · obtain ⟨p, hp, c, hc, hAdj⟩ := h.touching hOther
      obtain ⟨q, hq, hSame⟩ : p.coordinate ∈ squaresOf (sortPlacements o qs) :=
        squaresOf_congr hMaps ▸ ⟨p, hp, rfl⟩
      exact ⟨q, hq, c, hc, hSame ▸ hAdj⟩
  exact ⟨o, hOriented, ⟨fun hNil => hSome (List.nil_perm.mp (hNil ▸ hPerm)), hBounds,
    (orientation_perm hPerm).trans hOriented, sortPlacements_sort o qs, hContiguous⟩, hConnected⟩

/-- Words that the dictionary accepts are scored without a failure. -/
theorem words_succeed (hBuiltin : g.ruleset = Ruleset.builtin g.ruleset.id)
    {placements : List Placement} {o : Orientation} (hLaid : Laid g placements o)
    (hLength : placements.length ≤ 7)
    (hAccepts : ∀ run ∈ g.formedWordCoordinates placements o,
      g.Accepts platform (run.foldl (fun text c =>
        text ++ ((g.tileWithProposed placements c).map TileRef.letter).getD "") "")) :
    ∃ words wordScore, (g.formedWordCoordinates placements o).foldlM (g.addWord platform placements)
        ([], 0) = .ok (words, wordScore) ∧ wordScore.toNat ≤ 8 * wordLimit := by
  have hRuns : ∀ run ∈ g.formedWordCoordinates placements o,
      run.length ≤ 15 ∧ newCount placements run ≤ 7 := by
    intro run hRun
    obtain ⟨hShort, hNews⟩ := formedWord_bound hLaid.bounds hRun
    exact ⟨hShort, hNews.trans hLength⟩
  have hCount := @length_formedWordCoordinates g _ o hLaid.nonempty
  have hEight : wordLimit * (g.formedWordCoordinates placements o).length ≤ wordLimit * 8 :=
    Nat.mul_le_mul_left _ (by omega)
  have hLimit : wordLimit = 984150 := rfl
  obtain ⟨hAvoids, hTotal⟩ := @foldlM_addWord_bound platform g placements hBuiltin _ ([], 0) 0 hRuns
    (le_refl 0) (by omega)
  rcases ok_or_error ((g.formedWordCoordinates placements o).foldlM (g.addWord platform placements)
    ([], 0)) with ⟨⟨words, wordScore⟩, hWords⟩ | ⟨e, he⟩
  · have hScored := hTotal _ hWords
    simp only at hScored
    exact ⟨words, wordScore, hWords, by omega⟩
  · obtain ⟨run, hRun, hError⟩ := (foldlM_addWord_error he).resolve_left (hAvoids e he)
    obtain ⟨word, hWord⟩ := validateWord_succeeds hBuiltin (hRuns run hRun).1 (hRuns run hRun).2
      (hAccepts run hRun)
    rw [hWord] at hError
    cases hError

theorem prepare_of_playable (hShape : Shape g) (hConserved : Conserved g) (hFilled : Filled g)
    {xs : List Placement} (h : Playable platform g player xs) :
    ∃ m, g.preparePlacement platform player xs = .ok m := by
  obtain ⟨qs, ts, hCanon, hOwned⟩ := h.owned_canonical hShape hConserved
  obtain ⟨hIdMap, hSquareMap⟩ := canonical_maps hCanon
  have hIds : (qs.map (·.tileId)).Nodup := hIdMap ▸ h.ids
  obtain ⟨o, hOriented, hLaid, hConnected⟩ := h.laid hShape hCanon hOwned
  have hPerm := sortPlacements_perm o qs
  have hMaps : ((sortPlacements o qs).map (·.coordinate)).Perm (xs.map (·.coordinate)) :=
    hSquareMap ▸ hPerm.map _
  have hFormed : g.formedWordCoordinates (sortPlacements o qs) o ≠ [] := by
    obtain ⟨run, hRun⟩ := h.forms
    exact List.ne_nil_of_mem (hLaid.mem_formed_iff.mpr ((makes_congr hMaps).mpr hRun))
  have hLength : (sortPlacements o qs).length ≤ 7 :=
    hPerm.length_eq.trans_le ((owned_length hIds hOwned).trans (hFilled.rack_length hShape player))
  obtain ⟨words, wordScore, hWords, hTotal⟩ := words_succeed hShape.builtin hLaid hLength
    fun run hRun => by
      rw [spelling_eq hCanon hPerm h.coordinates]
      exact h.accepted run ((makes_congr hMaps).mp (hLaid.mem_formed_iff.mp hRun))
  have hBingo := bingoBonus_le hShape (sortPlacements o qs)
  have hLimit : wordLimit = 984150 := rfl
  obtain ⟨score, hScore⟩ : ∃ score : UInt32, score.toNat =
      wordScore.toNat + (g.bingoBonus (sortPlacements o qs)).toNat :=
    Checked.exists_u32 (by omega)
  refine ⟨⟨sortPlacements o qs, (sortPlacements o qs).filterMap fun p =>
    ts.find? fun tile => tile.id = p.tileId, words, g.bingoBonus (sortPlacements o qs), score⟩, ?_⟩
  simp only [Game.preparePlacement, bind_eq_ok, reject_eq_ok, validateOwnedPlacements_eq_ok,
    validateUniqueCoordinates_eq_ok, Prod.exists, okOr_eq_ok, Checked.addU32_eq_some,
    pure_eq_ok]
  exact ⟨(), h.nonempty, ⟨qs, ts⟩, ⟨hCanon, hOwned, hIds⟩, (), hSquareMap ▸ h.coordinates, o,
    hOriented, (), hLaid.contiguous, (), hConnected, (), hFormed, words, wordScore, hWords, score,
    hScore, rfl⟩

/-! Failures. -/

/-- A word is refused, or its score overflows. -/
theorem addWord_error {proposed : List Placement} {sofar : List FormedWord × UInt32}
    {run : List Coordinate} :
    Avoids (fun e : GameError => ¬ (e.Refusal ∨ e.Internal)) (g.addWord platform proposed sofar run) := by
  have hOverflow : ¬ ¬ (GameError.scoreOverflow.Refusal ∨ GameError.scoreOverflow.Internal) :=
    fun hNot => hNot (.inr trivial)
  refine Avoids.bind ?_ fun _ _ => Avoids.bind (avoids_okOr hOverflow) fun _ _ => avoids_pure _
  refine Avoids.bind ?_ fun _ _ => ?_
  · refine avoids_foldlM fun tally c _ => ?_
    unfold Game.tallySquare
    split
    · exact Avoids.of_ok rfl
    · exact Avoids.bind (avoids_okOr hOverflow) fun _ _ => Avoids.bind (avoids_okOr hOverflow)
        fun _ _ => Avoids.bind (avoids_okOr hOverflow) fun _ _ => avoids_pure _
  · refine Avoids.bind (avoids_mapErr fun _ hNot => hNot (.inl trivial)) fun _ _ => ?_
    refine Avoids.bind (avoids_reject fun hNot => hNot (.inl trivial)) fun _ _ => ?_
    exact Avoids.bind (avoids_okOr hOverflow) fun _ _ => avoids_pure _

theorem preparePlacement_error {xs : List Placement} {e : GameError}
    (h : g.preparePlacement platform player xs = .error e) : e.Refusal ∨ e.Internal := by
  by_contra hNot
  revert hNot
  refine (?_ : Avoids (fun e : GameError => ¬ (e.Refusal ∨ e.Internal))
    (g.preparePlacement platform player xs)) e h
  have hBad : ∀ e : GameError, e.Refusal → ¬ ¬ (e.Refusal ∨ e.Internal) :=
    fun _ hRefusal hNot => hNot (.inl hRefusal)
  refine Avoids.bind (avoids_reject (hBad _ trivial)) fun _ _ => ?_
  refine (validateOwnedPlacements_avoids hBad xs).bind fun owned _ => ?_
  refine (validateUniqueCoordinates_avoids hBad _).bind fun _ _ => ?_
  refine (orientation_avoids hBad _).bind fun o _ => ?_
  refine (validateContiguous_avoids hBad _ _).bind fun _ _ => ?_
  refine (validateConnection_avoids hBad _).bind fun _ _ => ?_
  refine Avoids.bind (avoids_reject (hBad _ trivial)) fun _ _ => ?_
  refine (avoids_foldlM fun _ _ _ => addWord_error).bind fun result _ => ?_
  exact Avoids.bind (avoids_okOr fun hNot => hNot (.inr trivial)) fun _ _ => avoids_pure _

end

/-- In every reachable active game the current player can place exactly what the rules
allow, and a placement fails only with an answer that names a broken rule. -/
theorem reachable_placements_exact {platform : Platform} {g : Game} (h : Reachable platform g)
    (hPhase : g.state.phase = .active) (placements : List Placement) :
    ((∃ g' event, g.playTiles platform g.state.currentPlayer g.state.version placements =
        .ok (g', event)) ↔ Playable platform g g.state.currentPlayer placements) ∧
    ∀ e, g.playTiles platform g.state.currentPlayer g.state.version placements = .error e →
      e.Refusal ∧ ¬ e.Internal := by
  refine ⟨⟨?_, fun hPlayable => ?_⟩, fun e he => ?_⟩
  · rintro ⟨g', event, hPlay⟩
    obtain ⟨-, d, valid, -⟩ := playTiles_eq_ok.mp hPlay
    exact playable_of_prepare valid.prepare
  · obtain ⟨m, hPrepare⟩ := prepare_of_playable h.shape h.conserved h.filled hPlayable
    obtain ⟨d, valid⟩ := h.place_valid hPhase hPrepare
    exact ⟨_, _, playTiles_eq_ok.mpr ⟨rfl, d, valid, rfl, rfl⟩⟩
  · rcases ok_or_error (g.preparePlacement platform g.state.currentPlayer placements) with
      ⟨m, hPrepare⟩ | ⟨e', hPrepare⟩
    · obtain ⟨d, valid⟩ := h.place_valid hPhase hPrepare
      rw [playTiles_eq_ok.mpr ⟨rfl, d, valid, rfl, rfl⟩] at he
      cases he
    · have hAction : g.validateAction g.state.currentPlayer g.state.version = .ok () :=
        validateAction_eq_ok.mpr ⟨hPhase, rfl, rfl⟩
      rw [Game.playTiles, hAction, ok_bind, hPrepare, error_bind, Except.error.injEq] at he
      subst he
      have hExternal := preparePlacement_avoids h.shape h.filled placements e' hPrepare
      exact ⟨(preparePlacement_error hPrepare).resolve_right hExternal, hExternal⟩

theorem exists_baked : ∃ fresh, Reachable basicPlatform fresh ∧ fresh.state.phase = .active ∧
    ∃ g event, fresh.playTiles basicPlatform fresh.state.currentPlayer fresh.state.version bake =
      .ok (g, event) := by
  have hShows := hookFresh_shows
  simp only [Prod.mk.injEq] at hShows
  obtain ⟨-, -, -, hPlayed⟩ := hShows
  have hInitial : (engine basicPlatform).initial hookFresh := ⟨_, _, _, _, _, _, hookTable_eq⟩
  refine ⟨hookFresh, System.reachable_settleAll hInitial [], rfl, ?_⟩
  change ∃ g event, hookFresh.playTiles basicPlatform .one 0 bake = .ok (g, event)
  cases hPlay : hookFresh.playTiles basicPlatform .one 0 bake with
  | error e =>
      rw [hPlay] at hPlayed
      cases hPlayed
  | ok result => exact ⟨result.1, result.2, rfl⟩

theorem bake_placements_exact : ∃ g, Reachable basicPlatform g ∧
    Playable basicPlatform g g.state.currentPlayer bake := by
  obtain ⟨fresh, hReachable, hPhase, g, event, hPlay⟩ := exists_baked
  exact ⟨fresh, hReachable,
    (reachable_placements_exact hReachable hPhase bake).1.mp ⟨g, event, hPlay⟩⟩

end WordArena.Engine
