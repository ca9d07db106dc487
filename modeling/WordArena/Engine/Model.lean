import Mathlib.Data.List.Basic
import Mathlib.Tactic.IntervalCases
import WordArena.Library.Checked
import WordArena.Library.Fallible

/-! Physical vocabulary of one game: squares, seats, tiles, racks, the bag and
the board definition. Fixed-width fields keep the widths of the wire format;
lengths of collections are machine independent. -/
namespace WordArena.Engine

open Fallible

/-- Languages planned for the static rule configuration. -/
inductive Language where
  | english
  | french
  | german
  | spanish
deriving DecidableEq, Repr

def Language.code : Language → String
  | .english => "en"
  | .french => "fr"
  | .german => "de"
  | .spanish => "es"

/-- Stable name of one immutable generation of the rules. -/
inductive RulesetId where
  | englishV1
  | frenchV1
deriving DecidableEq, Repr

def RulesetId.asStr : RulesetId → String
  | .englishV1 => "english-v1"
  | .frenchV1 => "french-v1"

/-- Zero-indexed square from the upper-left corner. Bounds belong to the
selected board, not to the coordinate. -/
structure Coordinate where
  row : UInt8
  column : UInt8
deriving DecidableEq, Repr

def Coordinate.index (c : Coordinate) (width : UInt8) : Nat :=
  c.row.toNat * width.toNat + c.column.toNat

def Coordinate.inBounds (c : Coordinate) (width height : UInt8) : Bool :=
  c.row < height && c.column < width

inductive Seat where
  | one
  | two
  | three
  | four
deriving DecidableEq, Repr

def Seat.all : List Seat := [.one, .two, .three, .four]

def Seat.index : Seat → Nat
  | .one => 0
  | .two => 1
  | .three => 2
  | .four => 3

/-- Stable seats of a supported player count. -/
def Seat.active (playerCount : Nat) : Option (List Seat) :=
  if 2 ≤ playerCount ∧ playerCount ≤ Seat.all.length then some (Seat.all.take playerCount)
  else none

/-- The seat after this one in turn order, wrapping to seat one. -/
def Seat.next (seat : Seat) (playerCount : Nat) : Option Seat :=
  (Seat.active playerCount).bind fun seats => seats[(seat.index + 1) % seats.length]?

abbrev Player := Seat

/-- One canonical letter. A one-byte string is a single ASCII character. -/
def isPhysicalToken (token : String) : Bool :=
  match token.toList with
  | [c] => c.isUpper
  | _ => false

/-- Canonical letter printed on a nonblank tile. -/
structure TileToken where
  asStr : String
  physical : isPhysicalToken asStr = true
deriving DecidableEq

structure TileTokenError where
  token : String
deriving DecidableEq, Repr

def TileToken.new (token : String) : Except TileTokenError TileToken :=
  if h : isPhysicalToken token = true then .ok ⟨token, h⟩ else .error ⟨token⟩

/-- Identity of one physical tile for the lifetime of a game. -/
structure TileId where
  raw : UInt16
deriving DecidableEq, Repr

/-- Face printed on a tile before any blank is assigned a letter. -/
inductive TileFace where
  | letter (token : TileToken)
  | blank
deriving DecidableEq

structure PhysicalTile where
  id : TileId
  face : TileFace
deriving DecidableEq

/-- Ordered tiles owned by one seat. -/
structure Rack where
  tiles : List PhysicalTile
deriving DecidableEq

instance : Inhabited Rack := ⟨⟨[]⟩⟩

def Rack.extend (rack : Rack) (tiles : List PhysicalTile) : Rack := ⟨rack.tiles ++ tiles⟩

/-- Private ordered source of future tiles. The next tile is the last one. -/
structure Bag where
  tiles : List PhysicalTile
deriving DecidableEq

/-- Draw from the end of the bag, the last tile first. A short bag gives what
it has. The drawn tiles are returned with the remaining bag. -/
def Bag.drawUpTo (bag : Bag) (count : Nat) : List PhysicalTile × Bag :=
  let drawCount := min count bag.tiles.length
  let kept := bag.tiles.length - drawCount
  ((bag.tiles.drop kept).reverse, ⟨bag.tiles.take kept⟩)

inductive Premium where
  | normal
  | doubleLetter
  | tripleLetter
  | doubleWord
  | tripleWord
deriving DecidableEq, Repr

structure BoardSquare where
  coordinate : Coordinate
  premium : Premium
deriving DecidableEq, Repr

/-- Row-major board with its premium layout. -/
structure BoardDefinition where
  width : UInt8
  height : UInt8
  squares : List BoardSquare
deriving DecidableEq, Repr

def BoardDefinition.square (board : BoardDefinition) (c : Coordinate) : Option BoardSquare :=
  if c.inBounds board.width board.height then board.squares[c.index board.width]? else none

/-- Signed score. Deductions at the end of a game can make it negative. -/
structure Score where
  value : Int32
deriving DecidableEq, Repr

def Score.zero : Score := ⟨0⟩

def Score.checkedAdd (score : Score) (delta : Int32) : Option Score :=
  (Checked.addI32 score.value delta).map Score.mk

/-! Facts about these operations that every later module relies on. -/

theorem Coordinate.ext_toNat {a b : Coordinate} (hr : a.row.toNat = b.row.toNat)
    (hc : a.column.toNat = b.column.toNat) : a = b := by
  cases a
  cases b
  simp only [Coordinate.mk.injEq]
  exact ⟨UInt8.toNat_inj.mp hr, UInt8.toNat_inj.mp hc⟩

@[simp] theorem Coordinate.inBounds_iff {c : Coordinate} {width height : UInt8} :
    c.inBounds width height = true ↔
      c.row.toNat < height.toNat ∧ c.column.toNat < width.toNat := by
  simp [Coordinate.inBounds, UInt8.lt_iff_toNat_lt]

theorem Seat.active_eq_some {playerCount : Nat} {seats : List Seat} :
    Seat.active playerCount = some seats ↔
      (2 ≤ playerCount ∧ playerCount ≤ 4) ∧ seats = Seat.all.take playerCount := by
  unfold Seat.active
  constructor
  · intro h
    split at h
    · rename_i hRange
      cases h
      exact ⟨hRange, rfl⟩
    · cases h
  · rintro ⟨hRange, rfl⟩
    exact if_pos hRange

theorem Seat.index_injective {a b : Seat} (h : a.index = b.index) : a = b := by
  cases a <;> cases b <;> first | rfl | cases h

theorem Seat.exists_index {i : Nat} (h : i < 4) : ∃ seat : Seat, seat.index = i := by
  interval_cases i
  · exact ⟨.one, rfl⟩
  · exact ⟨.two, rfl⟩
  · exact ⟨.three, rfl⟩
  · exact ⟨.four, rfl⟩

theorem Seat.all_getElem? (seat : Seat) : Seat.all[seat.index]? = some seat := by
  cases seat <;> rfl

theorem Seat.active_nodup {playerCount : Nat} {seats : List Seat}
    (h : Seat.active playerCount = some seats) : seats.Nodup := by
  obtain ⟨-, rfl⟩ := Seat.active_eq_some.mp h
  exact (by decide : Seat.all.Nodup).sublist (List.take_sublist _ _)

theorem Seat.active_length {playerCount : Nat} {seats : List Seat}
    (h : Seat.active playerCount = some seats) : seats.length = playerCount := by
  obtain ⟨⟨-, hHigh⟩, rfl⟩ := Seat.active_eq_some.mp h
  simp [Seat.all, hHigh]

/-- The active seats are exactly the ones whose index is below the count. -/
theorem Seat.mem_active {playerCount : Nat} {seats : List Seat} {seat : Seat}
    (h : Seat.active playerCount = some seats) : seat ∈ seats ↔ seat.index < playerCount := by
  obtain ⟨⟨hLow, hHigh⟩, rfl⟩ := Seat.active_eq_some.mp h
  interval_cases playerCount <;> cases seat <;> decide

/-- A supported table always has a next seat, and it is one of the table. -/
theorem Seat.next_eq_some (seat : Seat) {playerCount : Nat}
    (h : 2 ≤ playerCount ∧ playerCount ≤ 4) :
    ∃ next, seat.next playerCount = some next ∧ next.index < playerCount := by
  obtain ⟨hLow, hHigh⟩ := h
  interval_cases playerCount <;> cases seat <;> exact ⟨_, rfl, by decide⟩

theorem isPhysicalToken_iff {token : String} :
    isPhysicalToken token = true ↔ ∃ c : Char, c.isUpper = true ∧ token.toList = [c] := by
  unfold isPhysicalToken
  split
  · rename_i c heq
    simp [heq]
  · rename_i hne
    constructor
    · intro h
      cases h
    · rintro ⟨c, -, h⟩
      exact absurd h (hne c)

theorem Bag.drawUpTo_perm (bag : Bag) (count : Nat) :
    ((bag.drawUpTo count).1 ++ (bag.drawUpTo count).2.tiles).Perm bag.tiles := by
  simp only [Bag.drawUpTo]
  refine ((List.reverse_perm _).append_right _).trans (List.perm_append_comm.trans ?_)
  rw [List.take_append_drop]

theorem Bag.drawUpTo_length (bag : Bag) (count : Nat) :
    (bag.drawUpTo count).1.length = min count bag.tiles.length := by
  simp only [Bag.drawUpTo, List.length_reverse, List.length_drop]
  omega

theorem Bag.drawUpTo_rest_length (bag : Bag) (count : Nat) :
    (bag.drawUpTo count).2.tiles.length = bag.tiles.length - count := by
  simp only [Bag.drawUpTo, List.length_take]
  omega

@[simp] theorem Score.checkedAdd_eq_some {score total : Score} {delta : Int32} :
    score.checkedAdd delta = some total ↔
      total.value.toInt = score.value.toInt + delta.toInt := by
  rw [Score.checkedAdd, Option.map_eq_some_iff]
  constructor
  · rintro ⟨sum, hSum, rfl⟩
    exact Checked.addI32_eq_some.mp hSum
  · intro h
    exact ⟨total.value, Checked.addI32_eq_some.mpr h, rfl⟩

end WordArena.Engine
