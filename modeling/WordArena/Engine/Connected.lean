import Mathlib.Combinatorics.SimpleGraph.Connectivity.Subgraph
import WordArena.Engine.Line
import WordArena.Engine.Progress

/-! The occupied squares stay connected. The engine only compares neighbours of
new tiles; connectivity follows from the line of each placement by induction
over the run. -/
namespace WordArena.Engine

open Fallible SimpleGraph

/-- Orthogonal adjacency of squares. -/
def grid : SimpleGraph Coordinate where
  Adj a b := ∃ axis : Axis, axis.Next a b ∨ axis.Next b a
  symm := ⟨fun _ _ ⟨axis, h⟩ => ⟨axis, h.symm⟩⟩
  loopless := ⟨fun _ ⟨axis, h⟩ => by
    rw [or_self, axis.next_iff] at h
    omega⟩

/-- Neighbours reported by the source are adjacent squares. -/
theorem adj_of_mem_neighbors {c n : Coordinate} (h : n ∈ (neighbors c).reduceOption) :
    grid.Adj c n := by
  rw [List.reduceOption_mem_iff] at h
  simp only [neighbors, List.mem_cons, List.not_mem_nil, or_false, @eq_comm _ (some n)] at h
  simp only [coordinateAt_eq_some] at h
  rcases h with ⟨-, hr, hc⟩ | ⟨-, hr, hc⟩ | ⟨-, hr, hc⟩ | ⟨-, hr, hc⟩
  · exact ⟨.vertical, .inr ⟨by simp only [Axis.rowStep]; omega, by simp only [Axis.columnStep]; omega⟩⟩
  · exact ⟨.vertical, .inl ⟨by simp only [Axis.rowStep]; omega, by simp only [Axis.columnStep]; omega⟩⟩
  · exact ⟨.horizontal, .inr ⟨by simp only [Axis.rowStep]; omega, by simp only [Axis.columnStep]; omega⟩⟩
  · exact ⟨.horizontal, .inl ⟨by simp only [Axis.rowStep]; omega, by simp only [Axis.columnStep]; omega⟩⟩

theorem preconnected_singleton (c : Coordinate) : (grid.induce {c}).Preconnected := by
  rintro ⟨a, ha⟩ ⟨b, hb⟩
  rw [Set.mem_singleton_iff] at ha hb
  subst ha hb
  exact Reachable.refl _

/-- The squares between two positions of a line are connected. -/
theorem preconnected_segment (axis : Axis) (first last : Coordinate)
    (h : axis.along first ≤ axis.along last) :
    (grid.induce (axis.segment first last)).Preconnected := by
  obtain ⟨n, hn⟩ := Nat.le.dest h
  induction n generalizing last with
  | zero =>
      have hOne : axis.segment first last = {first} := by
        ext c
        rw [Axis.mem_segment, Set.mem_singleton_iff]
        constructor
        · rintro ⟨hAcross, hLow, hHigh⟩
          exact axis.ext hAcross (by omega)
        · rintro rfl
          omega
      rw [hOne]
      exact preconnected_singleton first
  | succ n ih =>
      -- Split off the last square; its predecessor closes the shorter segment.
      have hLast := axis.along_lt last
      have hFirst := axis.across_lt first
      let previous := axis.square (axis.across first) (axis.along first + n)
      let final := axis.square (axis.across first) (axis.along first + n + 1)
      have hPrevious : axis.along previous = axis.along first + n := axis.along_square (by omega)
      have hFinal : axis.along final = axis.along first + n + 1 := axis.along_square (by omega)
      have hPreviousAcross : axis.across previous = axis.across first := axis.across_square hFirst
      have hFinalAcross : axis.across final = axis.across first := axis.across_square hFirst
      have hSplit : axis.segment first last = axis.segment first previous ∪ {final} := by
        ext c
        rw [Set.mem_union, Axis.mem_segment, Axis.mem_segment, Set.mem_singleton_iff]
        constructor
        · rintro ⟨hAcross, hLow, hHigh⟩
          by_cases hEnd : axis.along c = axis.along final
          · exact .inr (axis.ext (by omega) hEnd)
          · exact .inl ⟨hAcross, hLow, by omega⟩
        · rintro (⟨hAcross, hLow, hHigh⟩ | rfl)
          · exact ⟨hAcross, hLow, by omega⟩
          · exact ⟨hFinalAcross, by omega, by omega⟩
      rw [hSplit]
      have hAdj : grid.Adj previous final :=
        ⟨axis, .inl (axis.next_iff.mpr ⟨by omega, by omega⟩)⟩
      exact (connected_induce_union (ih previous (by omega) hPrevious.symm)
        (preconnected_singleton final)
        (Axis.mem_segment.mpr ⟨hPreviousAcross, by omega, le_refl _⟩)
        (Set.mem_singleton final) hAdj).preconnected

section

variable {platform : Platform} {g : Game} {player : Player} {m : PreparedMove} {o : Orientation}
  {state : PublicGameState}

/-- New tiles lie in one connected set of squares that will be occupied. -/
theorem Legal.cover (h : Legal platform g player m o) :
    ∃ cover : Set Coordinate, (grid.induce cover).Preconnected ∧
      (∀ p ∈ m.placements, p.coordinate ∈ cover) ∧
      ∀ c ∈ cover, (g.tileWithProposed m.placements c).isSome = true := by
  cases hAxis : o.axis with
  | some axis =>
      obtain ⟨first, last, -, -, -, hSpread, hSegment, hOccupied⟩ := h.line hAxis
      exact ⟨_, preconnected_segment axis _ _ hSpread.le, hSegment, hOccupied⟩
  | none =>
      obtain ⟨-, p, hp⟩ := orientation_no_axis h.oriented hAxis
      refine ⟨{p.coordinate}, preconnected_singleton _, ?_, ?_⟩
      · simp [hp]
      · rintro c rfl
        simp [Game.tileWithProposed, hp]

theorem occupied_of_all_none {state : PublicGameState} (h : state.board.all Option.isNone = true) :
    state.occupied = ∅ := by
  ext c
  simp only [PublicGameState.occupied, Set.mem_ofPred_eq, Set.mem_empty_iff_false, iff_false,
    Bool.not_eq_true, Option.isSome_eq_false_iff, PublicGameState.tileAt]
  split
  · cases hSlot : state.board[c.index boardSize]? with
    | none => rfl
    | some tile =>
        have hTile := List.all_eq_true.mp h tile (List.mem_of_getElem? hSlot)
        rw [Option.isNone_iff_eq_none] at hTile
        rw [hTile]
        rfl
  · rfl

/-- The source's connection rule: the centre first, then a common border. -/
theorem Legal.touches (h : Legal platform g player m o) :
    (g.state.occupied = ∅ → ∃ p ∈ m.placements, p.coordinate = center) ∧
      (g.state.occupied ≠ ∅ →
        ∃ p ∈ m.placements, ∃ c ∈ g.state.occupied, grid.Adj p.coordinate c) := by
  have hConnected := h.connected
  unfold Game.validateConnection at hConnected
  split at hConnected
  · rename_i hEmpty
    have hNone := occupied_of_all_none hEmpty
    rw [reject_eq_ok, not_not, List.any_eq_true] at hConnected
    refine ⟨fun _ => ?_, fun hOther => absurd hNone hOther⟩
    obtain ⟨p, hp, hCenter⟩ := hConnected
    exact ⟨p, hp, by simpa using hCenter⟩
  · rename_i hBoard
    rw [reject_eq_ok, not_not, List.any_eq_true] at hConnected
    obtain ⟨p, hp, hNeighbor⟩ := hConnected
    obtain ⟨n, hn, hTile⟩ := List.any_eq_true.mp hNeighbor
    refine ⟨fun hEmpty => ?_, fun _ => ⟨p, hp, n, hTile, adj_of_mem_neighbors hn⟩⟩
    have hMem : n ∈ g.state.occupied := hTile
    rw [hEmpty] at hMem
    cases hMem

end

/-- Nothing on the board, or a connected set through the centre. -/
def Linked (state : PublicGameState) : Prop :=
  state.occupied = ∅ ∨ (center ∈ state.occupied ∧ (grid.induce state.occupied).Connected)

theorem Legal.linked {platform : Platform} {g : Game} {player : Player} {m : PreparedMove}
    {o : Orientation} {state : PublicGameState} (h : Legal platform g player m o)
    (hShape : Shape g) (hBoard : state.board = placeOnBoard g.state.board m.placements)
    (hLinked : Linked g.state) : Linked state := by
  obtain ⟨cover, hCover, hNew, hOccupied⟩ := h.cover
  have hUnion : state.occupied = g.state.occupied ∪ cover := by
    rw [h.occupied_placed hShape hBoard]
    ext c
    constructor
    · rintro (hOld | ⟨p, hp, rfl⟩)
      · exact .inl hOld
      · exact .inr (hNew p hp)
    · rintro (hOld | hc)
      · exact .inl hOld
      · rw [← h.occupied_placed hShape hBoard]
        change (state.tileAt c).isSome = true
        rw [h.tileAt_placed hShape hBoard, Option.isSome_map]
        exact hOccupied c hc
  obtain ⟨hOpening, hJoin⟩ := h.touches
  rcases hLinked with hEmpty | ⟨hCenter, hConnected⟩
  · obtain ⟨p, hp, hSame⟩ := hOpening hEmpty
    have hMem : center ∈ cover := hSame ▸ hNew p hp
    rw [hEmpty, Set.empty_union] at hUnion
    refine .inr ⟨hUnion ▸ hMem, ?_⟩
    rw [hUnion]
    have hNonempty : Nonempty cover := ⟨⟨center, hMem⟩⟩
    exact ⟨hCover⟩
  · have hSome : g.state.occupied ≠ ∅ := fun hEmpty => by
      rw [hEmpty] at hCenter
      cases hCenter
    obtain ⟨p, hp, c, hc, hAdj⟩ := hJoin hSome
    refine .inr ⟨hUnion ▸ .inl hCenter, ?_⟩
    rw [hUnion]
    exact connected_induce_union hConnected.preconnected hCover hc (hNew p hp) hAdj.symm

theorem linked_congr {a b : PublicGameState} (h : a.board = b.board) : Linked a ↔ Linked b := by
  rw [Linked, Linked, occupied_congr h]

/-- In every reachable game the occupied squares are none at all or a connected
set through the centre. -/
theorem reachable_board_connected {platform : Platform} {g : Game} (h : Reachable platform g) :
    g.state.occupied = ∅ ∨
      (center ∈ g.state.occupied ∧ (grid.induce g.state.occupied).Connected) := by
  refine Engine.Reachable.invariant (fun g => Linked g.state) ?_ ?_ h
  · intro d gameId ruleset seed mode playerCount _
    exact .inl (occupied_fresh rfl)
  · intro g player action g' event hReachable hLinked hAccepted
    cases hAccepted with
    | place d valid =>
        obtain ⟨o, hLegal⟩ := legal_of_preparePlacement valid.prepare
        exact hLegal.linked hReachable.shape valid.commit.final_board hLinked
    | exchange d valid => exact (linked_congr valid.commit.final_board).mpr hLinked
    | pass d valid => exact (linked_congr valid.commit.final_board).mpr hLinked
    | resign d valid => exact (linked_congr valid.commit.final_board).mpr hLinked

theorem hookTable_board_connected :
    ∃ g, Reachable basicPlatform g ∧ center ∈ g.state.occupied ∧
      (grid.induce g.state.occupied).Connected := by
  obtain ⟨g, hReachable, -, -, hTile⟩ := exists_played
  have hCenter : center ∈ g.state.occupied := hTile
  rcases reachable_board_connected hReachable with hEmpty | ⟨-, hConnected⟩
  · rw [hEmpty] at hCenter
    cases hCenter
  · exact ⟨g, hReachable, hCenter, hConnected⟩

end WordArena.Engine
