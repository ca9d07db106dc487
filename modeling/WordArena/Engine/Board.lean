import WordArena.Library.Runs
import WordArena.Engine.Conservation

/-! Geometry of the board: the two axes, runs of occupied squares, and the walk
of the source as the computation of the one maximal run through a square. -/
namespace WordArena.Engine

open Fallible

inductive Axis where
  | horizontal
  | vertical
deriving DecidableEq, Repr

def Axis.rowStep : Axis → Int
  | .horizontal => 0
  | .vertical => 1

def Axis.columnStep : Axis → Int
  | .horizontal => 1
  | .vertical => 0

/-- The square after another one along an axis. -/
def Axis.Next (axis : Axis) (a b : Coordinate) : Prop :=
  (b.row.toNat : Int) = a.row.toNat + axis.rowStep ∧
    (b.column.toNat : Int) = a.column.toNat + axis.columnStep

/-- The position of a square along an axis. -/
def Axis.offset (axis : Axis) (row column : Int) : Int :=
  match axis with
  | .horizontal => column
  | .vertical => row

theorem Axis.linear (axis : Axis) : Runs.Linear axis.Next where
  right h h' := Coordinate.ext_toNat (by have := h.1; have := h'.1; omega)
    (by have := h.2; have := h'.2; omega)
  left h h' := Coordinate.ext_toNat (by have := h.1; have := h'.1; omega)
    (by have := h.2; have := h'.2; omega)

theorem coordinateAt_eq_some {row column : Int} {c : Coordinate} :
    coordinateAt row column = some c ↔
      c.inBounds boardSize boardSize = true ∧ (c.row.toNat : Int) = row ∧
        (c.column.toNat : Int) = column := by
  have h15 : boardSize.toNat = 15 := rfl
  unfold coordinateAt
  split
  · rename_i hRange
    have hRow : (UInt8.ofNat row.toNat).toNat = row.toNat :=
      UInt8.toNat_ofNat_of_lt' (by rw [UInt8.size]; omega)
    have hColumn : (UInt8.ofNat column.toNat).toNat = column.toNat :=
      UInt8.toNat_ofNat_of_lt' (by rw [UInt8.size]; omega)
    simp only [Option.ite_none_right_eq_some, Option.some.injEq]
    constructor
    · rintro ⟨hBounds, rfl⟩
      exact ⟨hBounds, by rw [hRow]; omega, by rw [hColumn]; omega⟩
    · rintro ⟨hBounds, hr, hc⟩
      have hEq : (⟨UInt8.ofNat row.toNat, UInt8.ofNat column.toNat⟩ : Coordinate) = c :=
        Coordinate.ext_toNat (by simp only [hRow]; omega) (by simp only [hColumn]; omega)
      exact ⟨hEq ▸ hBounds, hEq⟩
  · rename_i hRange
    simp only [reduceCtorEq, false_iff]
    rintro ⟨hBounds, hr, hc⟩
    have := c.row.toNat_lt
    have := c.column.toNat_lt
    omega

theorem coordinateAt_self {c : Coordinate} (h : c.inBounds boardSize boardSize = true) :
    coordinateAt c.row.toNat c.column.toNat = some c :=
  coordinateAt_eq_some.mpr ⟨h, rfl, rfl⟩

/-! Walks. -/

section

variable {occupied : Coordinate → Bool} {S : Set Coordinate}
  (hS : ∀ c, c ∈ S ↔ c.inBounds boardSize boardSize = true ∧ occupied c = true)

include hS

theorem offset_of_mem {c : Coordinate} (h : c ∈ S) (axis : Axis) :
    0 ≤ axis.offset c.row.toNat c.column.toNat ∧ axis.offset c.row.toNat c.column.toNat < 15 := by
  have h15 : boardSize.toNat = 15 := rfl
  have hBounds := ((hS c).mp h).1
  rw [Coordinate.inBounds_iff, h15] at hBounds
  cases axis <;> simp only [Axis.offset] <;> omega

/-- Collecting forward gives a run that starts where the walk does and stops
only at the edge of the set. -/
theorem walkForward_spec (axis : Axis) (fuel : Nat) (row column : Int)
    (hFuel : 15 ≤ axis.offset row column + fuel) :
    let run := walkForward occupied axis.rowStep axis.columnStep fuel row column
    run.IsChain axis.Next ∧ (∀ c ∈ run, c ∈ S) ∧
      (∀ c ∈ run.getLast?, ∀ b ∈ S, ¬ axis.Next c b) ∧
      ∀ c, c ∈ run.head? ↔ c ∈ S ∧ coordinateAt row column = some c := by
  induction fuel generalizing row column with
  | zero =>
      simp only [walkForward]
      refine ⟨.nil, by simp, by simp, fun c => ?_⟩
      simp only [List.head?_nil, Option.mem_def, reduceCtorEq, false_iff, not_and]
      intro hMem hAt
      obtain ⟨-, hr, hc⟩ := coordinateAt_eq_some.mp hAt
      have hOffset := (offset_of_mem hS hMem axis).2
      rw [hr, hc] at hOffset
      omega
  | succ fuel ih =>
      simp only [walkForward]
      cases hAt : coordinateAt row column with
      | none => exact ⟨.nil, by simp, by simp, by simp⟩
      | some c =>
          obtain ⟨hBounds, hr, hc⟩ := coordinateAt_eq_some.mp hAt
          by_cases hOcc : occupied c = true
          · have hMem : c ∈ S := (hS c).mpr ⟨hBounds, hOcc⟩
            have hNextFuel : 15 ≤ axis.offset (row + axis.rowStep) (column + axis.columnStep) +
                fuel := by
              cases axis <;> simp only [Axis.offset, Axis.rowStep, Axis.columnStep] at hFuel ⊢ <;>
                omega
            obtain ⟨hChain, hAll, hLast, hHead⟩ := ih _ _ hNextFuel
            simp only [hOcc, if_true]
            generalize walkForward occupied axis.rowStep axis.columnStep fuel (row + axis.rowStep)
              (column + axis.columnStep) = rest at hChain hAll hLast hHead ⊢
            refine ⟨?_, ?_, ?_, ?_⟩
            · refine List.isChain_cons.mpr ⟨fun b hb => ?_, hChain⟩
              obtain ⟨-, hr', hc'⟩ := coordinateAt_eq_some.mp ((hHead b).mp hb).2
              exact ⟨by rw [hr', hr], by rw [hc', hc]⟩
            · simpa [hMem] using hAll
            · cases rest with
              | nil =>
                  intro b hb d hd hNext
                  obtain rfl : c = b := by simpa using hb
                  have hAtNext := coordinateAt_eq_some.mpr
                    ⟨((hS d).mp hd).1, by rw [hNext.1, hr], by rw [hNext.2, hc]⟩
                  have := (hHead d).mpr ⟨hd, hAtNext⟩
                  simp at this
              | cons e rest => exact hLast
            · intro d
              simp only [List.head?_cons, Option.mem_def, Option.some.injEq]
              exact ⟨fun hEq => hEq ▸ ⟨hMem, rfl⟩, fun h => h.2⟩
          · simp only [hOcc, Bool.false_eq_true, if_false]
            refine ⟨.nil, by simp, by simp, fun d => ?_⟩
            simp only [List.head?_nil, Option.mem_def, reduceCtorEq, false_iff, not_and,
              Option.some.injEq]
            rintro hd rfl
            exact hOcc ((hS _).mp hd).2

/-- Walking back ends at a square without a predecessor; every maximal run
through that square also passes through the origin. -/
theorem walkBack_spec (axis : Axis) (fuel : Nat) {c : Coordinate} (h : c ∈ S)
    (hFuel : axis.offset c.row.toNat c.column.toNat ≤ fuel) :
    ∃ start ∈ S, walkBack occupied axis.rowStep axis.columnStep fuel c.row.toNat c.column.toNat =
        ((start.row.toNat : Int), (start.column.toNat : Int)) ∧
      (∀ b ∈ S, ¬ axis.Next b start) ∧
      ∀ run, Runs.Maximal axis.Next S run → start ∈ run → c ∈ run := by
  induction fuel generalizing c with
  | zero =>
      refine ⟨c, h, rfl, fun b hb hNext => ?_, fun _ _ hMem => hMem⟩
      have hOffset := (offset_of_mem hS hb axis).1
      obtain ⟨hr, hc⟩ := hNext
      cases axis <;> simp only [Axis.offset, Axis.rowStep, Axis.columnStep] at * <;> omega
  | succ fuel ih =>
      have hPrevious : ∀ b ∈ S, axis.Next b c → coordinateAt (c.row.toNat - axis.rowStep)
          (c.column.toNat - axis.columnStep) = some b := by
        intro b hb hNext
        refine coordinateAt_eq_some.mpr ⟨((hS b).mp hb).1, ?_, ?_⟩
        · rw [hNext.1, Int.add_sub_cancel]
        · rw [hNext.2, Int.add_sub_cancel]
      simp only [walkBack]
      cases hAt : coordinateAt (c.row.toNat - axis.rowStep) (c.column.toNat - axis.columnStep) with
      | none =>
          refine ⟨c, h, rfl, fun b hb hNext => ?_, fun _ _ hMem => hMem⟩
          rw [hPrevious b hb hNext] at hAt
          cases hAt
      | some p =>
          obtain ⟨hBounds, hr, hc⟩ := coordinateAt_eq_some.mp hAt
          by_cases hOcc : occupied p = true
          · have hMem : p ∈ S := (hS p).mpr ⟨hBounds, hOcc⟩
            have hNext : axis.Next p c := ⟨by omega, by omega⟩
            have hFuel' : axis.offset p.row.toNat p.column.toNat ≤ fuel := by
              cases axis <;> simp only [Axis.offset, Axis.rowStep, Axis.columnStep] at * <;> omega
            obtain ⟨start, hStart, hWalk, hFirst, hRun⟩ := ih hMem hFuel'
            simp only [hOcc, if_true]
            refine ⟨start, hStart, ?_, hFirst, fun run hMax hMemRun => ?_⟩
            · rw [← hr, ← hc]
              exact hWalk
            · exact hMax.next_mem axis.linear (hRun run hMax hMemRun) hNext h
          · simp only [hOcc, Bool.false_eq_true, if_false]
            refine ⟨c, h, rfl, fun b hb hNext => ?_, fun _ _ hMem => hMem⟩
            have hSame := hPrevious b hb hNext
            rw [hAt, Option.some.injEq] at hSame
            exact hOcc (hSame ▸ ((hS b).mp hb).2)

/-- The walk of the source computes the maximal run through its origin. -/
theorem segment_maximal (axis : Axis) {c : Coordinate} (h : c ∈ S) :
    let start := walkBack occupied axis.rowStep axis.columnStep boardSize.toNat c.row.toNat
      c.column.toNat
    let run := walkForward occupied axis.rowStep axis.columnStep boardSize.toNat start.1 start.2
    Runs.Maximal axis.Next S run ∧ c ∈ run := by
  have h15 : boardSize.toNat = 15 := rfl
  have hOffset := offset_of_mem hS h axis
  obtain ⟨start, hStart, hWalk, hFirst, hRun⟩ := walkBack_spec hS axis boardSize.toNat h
    (by rw [h15]; omega)
  have hStartOffset := offset_of_mem hS hStart axis
  have hForward := walkForward_spec hS axis boardSize.toNat start.row.toNat start.column.toNat
    (by rw [h15]; omega)
  simp only [hWalk]
  simp only at hForward
  generalize walkForward occupied axis.rowStep axis.columnStep boardSize.toNat start.row.toNat
    start.column.toNat = run at hForward ⊢
  obtain ⟨hChain, hAll, hLast, hHead⟩ := hForward
  have hAt := coordinateAt_self ((hS start).mp hStart).1
  have hMax : Runs.Maximal axis.Next S run := by
    refine ⟨hChain, hAll, fun a ha => ?_, hLast⟩
    have hSame := ((hHead a).mp ha).2
    rw [hAt, Option.some.injEq] at hSame
    exact hSame ▸ hFirst
  have hMem : start ∈ run := List.mem_of_mem_head? ((hHead start).mpr ⟨hStart, hAt⟩)
  exact ⟨hMax, hRun run hMax hMem⟩

end

/-! The board after a placement. -/

def PublicGameState.occupied (state : PublicGameState) : Set Coordinate :=
  { c | (state.tileAt c).isSome = true }

/-- What squares show depends on the board only. -/
theorem tileAt_congr {a b : PublicGameState} (h : a.board = b.board) : a.tileAt = b.tileAt := by
  funext c
  rw [PublicGameState.tileAt, PublicGameState.tileAt, h]

theorem occupied_congr {a b : PublicGameState} (h : a.board = b.board) :
    a.occupied = b.occupied := by
  rw [PublicGameState.occupied, PublicGameState.occupied, tileAt_congr h]

theorem occupied_fresh {state : PublicGameState}
    (h : state.board = List.replicate boardSquares none) : state.occupied = ∅ := by
  ext c
  simp only [PublicGameState.occupied, Set.mem_ofPred_eq, Set.mem_empty_iff_false, iff_false,
    PublicGameState.tileAt, h]
  split
  · rw [List.getElem?_replicate]
    split <;> simp
  · simp

/-- The tile that a proposed or committed square will show. -/
def TileRef.boardTile : TileRef → BoardTile
  | .proposed placement => placement.boardTile
  | .board tile => tile

theorem TileRef.boardTile_letter (tile : TileRef) : tile.boardTile.letter = tile.letter := by
  cases tile <;> rfl

theorem inBounds_of_tileAt {state : PublicGameState} {c : Coordinate}
    (h : (state.tileAt c).isSome = true) : c.inBounds boardSize boardSize = true := by
  by_contra hBounds
  rw [PublicGameState.tileAt, if_neg hBounds] at h
  cases h

theorem placeOnBoard_of_forall_ne {board : List (Option BoardTile)} {placements : List Placement}
    {i : Nat} (h : ∀ p ∈ placements, p.coordinate.index boardSize ≠ i) :
    (placeOnBoard board placements)[i]? = board[i]? := by
  induction placements generalizing board with
  | nil => rfl
  | cons p placements ih =>
      rw [List.forall_mem_cons] at h
      exact (ih h.2).trans (List.getElem?_set_ne h.1)

theorem placeOnBoard_of_mem {board : List (Option BoardTile)} {placements : List Placement}
    {p : Placement} (hp : p ∈ placements) (hIndex : p.coordinate.index boardSize < board.length)
    (hDistinct : (placements.map fun q => q.coordinate.index boardSize).Nodup) :
    (placeOnBoard board placements)[p.coordinate.index boardSize]? = some (some p.boardTile) := by
  induction placements generalizing board with
  | nil => cases hp
  | cons q placements ih =>
      rw [List.map_cons, List.nodup_cons] at hDistinct
      rcases List.mem_cons.mp hp with rfl | hp
      · have hOthers : ∀ r ∈ placements,
            r.coordinate.index boardSize ≠ p.coordinate.index boardSize :=
          fun r hr hEq => hDistinct.1 (List.mem_map.mpr ⟨r, hr, hEq⟩)
        exact (placeOnBoard_of_forall_ne hOthers).trans (List.getElem?_set_self hIndex)
      · exact ih hp (by rwa [List.length_set]) hDistinct.2

section

variable {platform : Platform} {g : Game} {player : Player} {m : PreparedMove} {o : Orientation}
  {state : PublicGameState}

/-- The committed board shows every square as the proposal saw it. -/
theorem Legal.tileAt_placed (h : Legal platform g player m o) (hShape : Shape g)
    (hBoard : state.board = placeOnBoard g.state.board m.placements) (c : Coordinate) :
    state.tileAt c = (g.tileWithProposed m.placements c).map TileRef.boardTile := by
  have hLength : state.board.length = boardSquares := by
    rw [hBoard, placeOnBoard_length, hShape.board]
  have hEach : ∀ p ∈ m.placements, p.coordinate.inBounds boardSize boardSize = true := by
    intro p hp
    obtain ⟨_, hOwned⟩ := h.each hp
    exact hOwned.inBounds
  by_cases hBounds : c.inBounds boardSize boardSize = true
  · have hSlot := slot_of_tileAt hLength hBounds
    have hOld := slot_of_tileAt hShape.board hBounds
    rw [hBoard] at hSlot
    unfold Game.tileWithProposed
    cases hFind : m.placements.find? fun p => p.coordinate = c with
    | some p =>
        have hp := List.mem_of_find?_eq_some hFind
        obtain rfl : p.coordinate = c := by simpa using List.find?_some hFind
        have hIndex := (List.getElem?_eq_some_iff.mp hOld).1
        rw [placeOnBoard_of_mem hp hIndex h.indices] at hSlot
        exact (Option.some.inj hSlot).symm
    | none =>
        have hNone : ∀ p ∈ m.placements, p.coordinate.index boardSize ≠ c.index boardSize := by
          intro p hp hEq
          have hSame := index_injective (hEach p hp) hBounds hEq
          exact List.find?_eq_none.mp hFind p hp (by simpa using hSame)
        rw [placeOnBoard_of_forall_ne hNone, hOld, Option.some.injEq] at hSlot
        rw [← hSlot]
        cases g.state.tileAt c <;> rfl
  · have hFind : (m.placements.find? fun p => p.coordinate = c) = none := by
      rw [List.find?_eq_none]
      intro p hp hEq
      have hSame : p.coordinate = c := by simpa using hEq
      exact hBounds (hSame ▸ hEach p hp)
    rw [Game.tileWithProposed, hFind, PublicGameState.tileAt, PublicGameState.tileAt,
      if_neg hBounds, if_neg hBounds]
    rfl

/-- The occupied squares are the old ones and the placed ones. -/
theorem Legal.occupied_placed (h : Legal platform g player m o) (hShape : Shape g)
    (hBoard : state.board = placeOnBoard g.state.board m.placements) :
    state.occupied = g.state.occupied ∪ { c | ∃ p ∈ m.placements, p.coordinate = c } := by
  ext c
  simp only [PublicGameState.occupied, Set.mem_union, Set.mem_ofPred_eq,
    h.tileAt_placed hShape hBoard, Option.isSome_map, Game.tileWithProposed]
  cases hFind : m.placements.find? fun p => p.coordinate = c with
  | some p =>
      have hp := List.mem_of_find?_eq_some hFind
      have hSame : p.coordinate = c := by simpa using List.find?_some hFind
      exact iff_of_true rfl (.inr ⟨p, hp, hSame⟩)
  | none =>
      rw [Option.isSome_map]
      refine ⟨.inl, fun hEither => hEither.resolve_right ?_⟩
      rintro ⟨p, hp, hSame⟩
      exact List.find?_eq_none.mp hFind p hp (by simpa using hSame)

/-- The set walked by the source is the set of squares that will be occupied. -/
theorem Legal.mem_occupied (h : Legal platform g player m o) (hShape : Shape g)
    (hBoard : state.board = placeOnBoard g.state.board m.placements) (c : Coordinate) :
    c ∈ state.occupied ↔ c.inBounds boardSize boardSize = true ∧
      (g.tileWithProposed m.placements c).isSome = true := by
  have hIff : (state.tileAt c).isSome = (g.tileWithProposed m.placements c).isSome := by
    rw [h.tileAt_placed hShape hBoard, Option.isSome_map]
  constructor
  · intro hMem
    exact ⟨inBounds_of_tileAt hMem, hIff ▸ hMem⟩
  · rintro ⟨-, hSome⟩
    exact hIff.trans hSome

end

end WordArena.Engine
