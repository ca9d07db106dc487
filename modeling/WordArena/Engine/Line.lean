import WordArena.Engine.Board

/-! The line of a placement. All new tiles of a placement with an axis lie on
one line, and every square between the first and the last will be occupied. -/
namespace WordArena.Engine

open Fallible

/-- Position along an axis. -/
def Axis.along (axis : Axis) (c : Coordinate) : Nat :=
  match axis with
  | .horizontal => c.column.toNat
  | .vertical => c.row.toNat

/-- The line across an axis that a square lies on. -/
def Axis.across (axis : Axis) (c : Coordinate) : Nat :=
  match axis with
  | .horizontal => c.row.toNat
  | .vertical => c.column.toNat

def Axis.square (axis : Axis) (across along : Nat) : Coordinate :=
  match axis with
  | .horizontal => ⟨UInt8.ofNat across, UInt8.ofNat along⟩
  | .vertical => ⟨UInt8.ofNat along, UInt8.ofNat across⟩

def Axis.cross : Axis → Axis
  | .horizontal => .vertical
  | .vertical => .horizontal

def Orientation.axis : Orientation → Option Axis
  | .horizontal => some .horizontal
  | .vertical => some .vertical
  | .single => none

namespace Axis

variable (axis : Axis)

theorem next_iff {a b : Coordinate} :
    axis.Next a b ↔ axis.across b = axis.across a ∧ axis.along b = axis.along a + 1 := by
  cases axis <;> simp only [Next, rowStep, columnStep, across, along] <;> omega

theorem along_square {across along : Nat} (h : along < 256) :
    axis.along (axis.square across along) = along := by
  cases axis <;> exact UInt8.toNat_ofNat_of_lt' h

theorem across_square {across along : Nat} (h : across < 256) :
    axis.across (axis.square across along) = across := by
  cases axis <;> exact UInt8.toNat_ofNat_of_lt' h

theorem along_lt (c : Coordinate) : axis.along c < 256 := by
  cases axis
  · exact c.column.toNat_lt
  · exact c.row.toNat_lt

theorem across_lt (c : Coordinate) : axis.across c < 256 := by
  cases axis
  · exact c.row.toNat_lt
  · exact c.column.toNat_lt

theorem ext {a b : Coordinate} (hAcross : axis.across a = axis.across b)
    (hAlong : axis.along a = axis.along b) : a = b := by
  cases axis
  · exact Coordinate.ext_toNat hAcross hAlong
  · exact Coordinate.ext_toNat hAlong hAcross

end Axis

/-- Squares of a line between two positions. -/
def Axis.segment (axis : Axis) (first last : Coordinate) : Set Coordinate :=
  { c | axis.across c = axis.across first ∧ axis.along first ≤ axis.along c ∧
    axis.along c ≤ axis.along last }

theorem Axis.mem_segment {axis : Axis} {first last c : Coordinate} :
    c ∈ axis.segment first last ↔ axis.across c = axis.across first ∧
      axis.along first ≤ axis.along c ∧ axis.along c ≤ axis.along last :=
  Iff.rfl

theorem mem_spanSquares {o : Orientation} {axis : Axis} (hAxis : o.axis = some axis)
    {first last c : Coordinate} (h : c ∈ axis.segment first last) :
    c ∈ spanSquares o first last := by
  obtain ⟨hAcross, hLow, hHigh⟩ := Axis.mem_segment.mp h
  cases o with
  | horizontal =>
      cases hAxis
      simp only [Axis.across, Axis.along] at hAcross hLow hHigh
      refine List.mem_map.mpr ⟨c.column.toNat, List.mem_range'_1.mpr ⟨hLow, by omega⟩, ?_⟩
      exact Coordinate.ext_toNat hAcross.symm (by simp)
  | vertical =>
      cases hAxis
      simp only [Axis.across, Axis.along] at hAcross hLow hHigh
      refine List.mem_map.mpr ⟨c.row.toNat, List.mem_range'_1.mpr ⟨hLow, by omega⟩, ?_⟩
      exact Coordinate.ext_toNat (by simp) hAcross.symm
  | single => cases hAxis

/-! Orientation and order. -/

theorem orientation_single {placements : List Placement}
    (h : orientation placements = .ok .single) : ∃ p, placements = [p] := by
  by_cases hLength : placements.length = 1
  · exact List.length_eq_one_iff.mp hLength
  · rw [orientation_eq_of_length hLength] at h
    split at h <;> cases h

/-- A placement without an axis is a single tile. -/
theorem orientation_no_axis {placements : List Placement} {o : Orientation}
    (h : orientation placements = .ok o) (hAxis : o.axis = none) :
    o = .single ∧ ∃ p, placements = [p] := by
  cases o with
  | single => exact ⟨rfl, orientation_single h⟩
  | horizontal => cases hAxis
  | vertical => cases hAxis

/-- An axis means one line and more than one position on it. -/
theorem orientation_axis {placements : List Placement} {o : Orientation} {axis : Axis}
    (h : orientation placements = .ok o) (hAxis : o.axis = some axis) :
    (∀ p ∈ placements, ∀ q ∈ placements, axis.across p.coordinate = axis.across q.coordinate) ∧
      ¬ ∀ p ∈ placements, ∀ q ∈ placements, axis.along p.coordinate = axis.along q.coordinate := by
  by_cases hLength : placements.length = 1
  · obtain ⟨p, rfl⟩ := List.length_eq_one_iff.mp hLength
    cases h
    cases hAxis
  · rw [orientation_eq_of_length hLength] at h
    have hRow := @all_eq_head_iff _ _ placements (·.row)
    have hColumn := @all_eq_head_iff _ _ placements (·.column)
    split at h
    · rename_i hSameRow hOtherColumn
      cases h
      cases hAxis
      rw [hSameRow] at hRow
      rw [hOtherColumn] at hColumn
      refine ⟨fun p hp q hq => congrArg UInt8.toNat (hRow.mp rfl p hp q hq), fun hSame => ?_⟩
      exact Bool.false_ne_true (hColumn.mpr fun p hp q hq => UInt8.toNat_inj.mp (hSame p hp q hq))
    · rename_i hOtherRow hSameColumn
      cases h
      cases hAxis
      rw [hOtherRow] at hRow
      rw [hSameColumn] at hColumn
      refine ⟨fun p hp q hq => congrArg UInt8.toNat (hColumn.mp rfl p hp q hq), fun hSame => ?_⟩
      exact Bool.false_ne_true (hRow.mpr fun p hp q hq => UInt8.toNat_inj.mp (hSame p hp q hq))
    · cases h

theorem sortPlacements_pairwise (o : Orientation) (placements : List Placement) :
    (sortPlacements o placements).Pairwise
      fun a b => o.key a.coordinate ≤ o.key b.coordinate := by
  have hTotal : Std.Total fun a b : Placement => o.key a.coordinate ≤ o.key b.coordinate :=
    ⟨fun a b => Nat.le_total _ _⟩
  have hTrans : IsTrans Placement fun a b => o.key a.coordinate ≤ o.key b.coordinate :=
    ⟨fun _ _ _ => Nat.le_trans⟩
  exact List.pairwise_insertionSort _ _

/-- On one line the sort key orders positions. -/
theorem along_le_of_key {o : Orientation} {axis : Axis} (hAxis : o.axis = some axis)
    {a b : Coordinate} (hAcross : axis.across a = axis.across b) (h : o.key a ≤ o.key b) :
    axis.along a ≤ axis.along b := by
  cases o with
  | horizontal =>
      cases hAxis
      simp only [Axis.across, Axis.along, Orientation.key] at *
      omega
  | vertical =>
      cases hAxis
      simp only [Axis.across, Axis.along, Orientation.key] at *
      omega
  | single => cases hAxis

/-- The first and the last element of an ordered list bound all others. -/
theorem bounds_of_pairwise {α : Type} {r : α → α → Prop} (hRefl : ∀ a, r a a) {xs : List α}
    (h : xs.Pairwise r) (hNonempty : xs ≠ []) :
    ∃ first last, xs.head? = some first ∧ xs.getLast? = some last ∧ first ∈ xs ∧ last ∈ xs ∧
      ∀ x ∈ xs, r first x ∧ r x last := by
  have hFirst : ∀ x ∈ xs, r (xs.head hNonempty) x := by
    obtain ⟨y, ys, rfl⟩ := List.exists_cons_of_ne_nil hNonempty
    rw [List.forall_mem_cons]
    exact ⟨hRefl y, (List.pairwise_cons.mp h).1⟩
  have hLast : ∀ x ∈ xs, r x (xs.getLast hNonempty) := by
    have hJoin := List.dropLast_append_getLast hNonempty
    have hSplit : (xs.dropLast ++ [xs.getLast hNonempty]).Pairwise r := by rwa [hJoin]
    intro x hx
    have hMem : x ∈ xs.dropLast ++ [xs.getLast hNonempty] := by rwa [hJoin]
    rcases List.mem_append.mp hMem with hInit | hEnd
    · exact (List.pairwise_append.mp hSplit).2.2 x hInit _ (List.mem_singleton_self _)
    · rw [List.mem_singleton.mp hEnd]
      exact hRefl _
  exact ⟨_, _, List.head?_eq_some_head hNonempty, List.getLast?_eq_some_getLast hNonempty,
    List.head_mem hNonempty, List.getLast_mem hNonempty, fun x hx => ⟨hFirst x hx, hLast x hx⟩⟩

/-- Placements on the board in the order of their line, without a gap. -/
structure Laid (g : Game) (placements : List Placement) (o : Orientation) : Prop where
  nonempty : placements ≠ []
  bounds : ∀ p ∈ placements, p.coordinate.inBounds boardSize boardSize = true
  oriented : orientation placements = .ok o
  sorted : sortPlacements o placements = placements
  contiguous : g.validateContiguous placements o = .ok ()

section

variable {platform : Platform} {g : Game} {player : Player} {m : PreparedMove} {o : Orientation}
  {placements : List Placement} {axis : Axis}

theorem Legal.laid (h : Legal platform g player m o) : Laid g m.placements o where
  nonempty := h.nonempty
  bounds p hp := by
    obtain ⟨_, -, hOwned⟩ := Slots.exists_of_forall₂_left h.owned hp
    exact hOwned.inBounds
  oriented := h.oriented
  sorted := h.sorted
  contiguous := h.contiguous

/-- The placements along an axis, and the squares they span. -/
theorem Laid.line (h : Laid g placements o) (hAxis : o.axis = some axis) :
    ∃ first last : Placement, placements.head? = some first ∧ first ∈ placements ∧
      last ∈ placements ∧ axis.along first.coordinate < axis.along last.coordinate ∧
      (∀ p ∈ placements, p.coordinate ∈ axis.segment first.coordinate last.coordinate) ∧
      ∀ c ∈ axis.segment first.coordinate last.coordinate,
        (g.tileWithProposed placements c).isSome = true := by
  obtain ⟨hAcross, hSpread⟩ := orientation_axis h.oriented hAxis
  have hSorted := sortPlacements_pairwise o placements
  rw [h.sorted] at hSorted
  obtain ⟨first, last, hHead, hLast, hFirstMem, hLastMem, hBounds⟩ :=
    bounds_of_pairwise (fun p : Placement => le_refl (o.key p.coordinate)) hSorted h.nonempty
  have hSegment : ∀ p ∈ placements,
      p.coordinate ∈ axis.segment first.coordinate last.coordinate := by
    intro p hp
    exact ⟨hAcross p hp first hFirstMem,
      along_le_of_key hAxis (hAcross first hFirstMem p hp) (hBounds p hp).1,
      along_le_of_key hAxis (hAcross p hp last hLastMem) (hBounds p hp).2⟩
  refine ⟨first, last, hHead, hFirstMem, hLastMem, ?_, hSegment, fun c hc => ?_⟩
  · by_contra hNot
    refine hSpread fun p hp q hq => ?_
    have := (hSegment p hp).2
    have := (hSegment q hq).2
    omega
  · have hContiguous := h.contiguous
    simp only [Game.validateContiguous, hHead, hLast] at hContiguous
    have hAll := forM_eq_ok.mp hContiguous c (mem_spanSquares hAxis hc)
    rw [reject_eq_ok] at hAll
    simpa [Option.isSome_iff_ne_none] using hAll

/-- The new tiles of a placement with an axis, and the squares they span. -/
theorem Legal.line (h : Legal platform g player m o) (hAxis : o.axis = some axis) :
    ∃ first last : Placement, m.placements.head? = some first ∧ first ∈ m.placements ∧
      last ∈ m.placements ∧ axis.along first.coordinate < axis.along last.coordinate ∧
      (∀ p ∈ m.placements, p.coordinate ∈ axis.segment first.coordinate last.coordinate) ∧
      ∀ c ∈ axis.segment first.coordinate last.coordinate,
        (g.tileWithProposed m.placements c).isSome = true :=
  h.laid.line hAxis

end

end WordArena.Engine
