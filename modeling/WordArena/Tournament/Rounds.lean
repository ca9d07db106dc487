import Mathlib.Data.List.ReduceOption
import WordArena.Library.Circle
import WordArena.Tournament.Layout

/-! Static schedules follow the circle. Each round pairs or rests every entrant
once, and each cycle of rounds brings every two entrants together once. -/
namespace WordArena.Tournament

open Fallible WordArena.Engine

section Slots

/-- Two entrants facing each other play. -/
def tablePair : Option String × Option String → Option (String × String)
  | (some first, some second) => some (first, second)
  | _ => none

/-- An entrant facing the empty slot rests. -/
def tableBye : Option String × Option String → Option String
  | (some entrant, none) => some entrant
  | (none, some entrant) => some entrant
  | _ => none

theorem facing_eq_map (slots : List (Option String)) :
    Circle.facing slots = (List.range (slots.length / 2)).map fun table =>
      ((slots[table]?).join, (slots[slots.length - 1 - table]?).join) := by
  refine List.ext_getElem (by simp [Circle.facing]; omega) fun k hk hk' => ?_
  simp only [List.length_map, List.length_range] at hk'
  have hLeft : k < slots.length := by omega
  have hRight : slots.length - 1 - k < slots.length := by omega
  simp [Circle.facing, hLeft, hRight]

theorem foldl_circleTable (slots : List (Option String)) (tables : List Nat)
    (acc : RoundPairings) :
    let faced := tables.map fun table =>
      ((slots[table]?).join, (slots[slots.length - 1 - table]?).join)
    tables.foldl (circleTable slots) acc = ⟨acc.pairs ++ faced.filterMap tablePair,
      (faced.filterMap tableBye).getLast?.or acc.bye⟩ := by
  induction tables generalizing acc with
  | nil => simp
  | cons table tables ih =>
      dsimp only at ih ⊢
      rw [List.foldl_cons, ih, List.map_cons, List.filterMap_cons, List.filterMap_cons]
      unfold circleTable
      rcases (slots[table]?).join with _ | first <;>
        rcases (slots[slots.length - 1 - table]?).join with _ | second <;>
        simp [tablePair, tableBye, List.getLast?_cons]

theorem circleRound_eq (slots : List (Option String)) :
    circleRound slots = ⟨(Circle.facing slots).filterMap tablePair,
      ((Circle.facing slots).filterMap tableBye).getLast?⟩ := by
  rw [circleRound, foldl_circleTable, facing_eq_map]
  simp

theorem sides_filterMap_perm (faced : List (Option String × Option String)) :
    (Circle.sides (faced.filterMap tablePair) ++ faced.filterMap tableBye).Perm
      (Circle.sides faced).reduceOption := by
  induction faced with
  | nil => exact .refl _
  | cons pair faced ih =>
      obtain ⟨_ | first, _ | second⟩ := pair
      · simpa [tablePair, tableBye, List.filterMap_cons] using ih
      · simpa [tablePair, tableBye, List.filterMap_cons] using
          List.perm_middle.trans (ih.cons second)
      · simpa [tablePair, tableBye, List.filterMap_cons] using
          List.perm_middle.trans (ih.cons first)
      · simpa [tablePair, tableBye, List.filterMap_cons] using (ih.cons second).cons first

/-- Opponents on the circle that are entrants are the opponents at the tables. -/
theorem reduceOption_opponents (x : String) (faced : List (Option String × Option String)) :
    (Circle.opponents (some x) faced).reduceOption =
      Circle.opponents x (faced.filterMap tablePair) := by
  induction faced with
  | nil => rfl
  | cons pair faced ih =>
      rw [Circle.opponents_cons, List.reduceOption_append, ih, List.filterMap_cons]
      obtain ⟨_ | first, _ | second⟩ := pair
      · simp [tablePair]
      · by_cases h : second = x <;> simp [tablePair, h, List.reduceOption]
      · by_cases h : first = x <;> simp [tablePair, h, List.reduceOption]
      · rw [tablePair, Circle.opponents_cons]
        by_cases h : first = x <;> by_cases h' : second = x <;>
          simp [h, h', List.reduceOption]

/-- Meeting the empty slot is having the bye. -/
theorem count_none_opponents (x : String) (faced : List (Option String × Option String)) :
    (Circle.opponents (some x) faced).count none = (faced.filterMap tableBye).count x := by
  induction faced with
  | nil => rfl
  | cons pair faced ih =>
      rw [Circle.opponents_cons, List.count_append, ih, List.filterMap_cons]
      obtain ⟨_ | first, _ | second⟩ := pair
      · simp [tableBye]
      · by_cases h : second = x <;> simp [tableBye, h, Nat.add_comm]
      · by_cases h : first = x <;> simp [tableBye, h, Nat.add_comm]
      · by_cases h : first = x <;> by_cases h' : second = x <;> simp [tableBye, h, h']

end Slots

section CircleRounds

variable {entrants : List String}

def roundsPerCycle (entrantCount : Nat) : Nat :=
  if entrantCount % 2 = 0 then entrantCount - 1 else entrantCount

theorem length_circleSlots (entrants : List String) :
    (circleSlots entrants).length =
      if entrants.length % 2 = 0 then entrants.length else entrants.length + 1 := by
  unfold circleSlots
  split <;> simp

theorem circleSlots_even (entrants : List String) : (circleSlots entrants).length % 2 = 0 := by
  rw [length_circleSlots]
  split <;> omega

theorem length_circleSlots_sub (entrants : List String) :
    (circleSlots entrants).length - 1 = roundsPerCycle entrants.length := by
  rw [length_circleSlots, roundsPerCycle]
  split <;> omega

theorem nodup_circleSlots (h : entrants.Nodup) : (circleSlots entrants).Nodup := by
  have hSome := h.map (Option.some_injective String)
  unfold circleSlots
  split
  · exact hSome
  · refine List.nodup_append.mpr ⟨hSome, List.nodup_singleton _, ?_⟩
    rintro a ha b hb rfl
    rw [List.mem_singleton] at hb
    simp [hb] at ha

theorem some_mem_circleSlots {x : String} : some x ∈ circleSlots entrants ↔ x ∈ entrants := by
  unfold circleSlots
  split <;> simp

theorem reduceOption_circleSlots (entrants : List String) :
    (circleSlots entrants).reduceOption = entrants := by
  unfold circleSlots
  split <;> simp [List.reduceOption]

theorem count_none_circleSlots (entrants : List String) :
    (circleSlots entrants).count none = entrants.length % 2 := by
  have hNone : (entrants.map some).count none = 0 := by simp [List.count_eq_zero]
  unfold circleSlots
  split
  · omega
  · rw [List.count_append, hNone, List.count_singleton_self]
    omega

theorem nextSlots_eq_turn {slots : List (Option String)} (h : 2 ≤ slots.length) :
    nextSlots slots = Circle.turn slots := by
  unfold nextSlots
  split
  · rename_i last hLast
    exact Circle.insertIdx_dropLast_eq_turn h hLast
  · rename_i hLast
    rw [List.getLast?_eq_none_iff.mp hLast] at h
    simp at h

/-- The rounds of a cycle are those of one turn of the circle. -/
theorem circleRounds_eq (hTwo : 2 ≤ entrants.length) :
    circleRounds entrants = (List.range (roundsPerCycle entrants.length)).map fun r =>
      circleRound (Circle.turn^[r] (circleSlots entrants)) := by
  have hSlots : 2 ≤ (circleSlots entrants).length := by
    rw [length_circleSlots]
    split <;> omega
  have hLoop : ∀ count, (List.range count).foldl
      (fun (acc : List RoundPairings × List (Option String)) _ =>
        (acc.1 ++ [circleRound acc.2], nextSlots acc.2)) ([], circleSlots entrants) =
      ((List.range count).map fun r => circleRound (Circle.turn^[r] (circleSlots entrants)),
        Circle.turn^[count] (circleSlots entrants)) := by
    intro count
    induction count with
    | zero => rfl
    | succ count ih =>
        rw [List.range_succ, List.foldl_append, ih, List.foldl_cons, List.foldl_nil,
          nextSlots_eq_turn (by rw [Circle.length_iterate_turn]; exact hSlots), List.map_append,
          List.map_singleton, Function.iterate_succ_apply']
  rw [circleRounds, hLoop, length_circleSlots_sub]

/-- No more than one entrant faces the empty slot. -/
theorem byes_turn (hNodup : entrants.Nodup) (r : Nat) :
    let slots := Circle.turn^[r] (circleSlots entrants)
    (circleRound slots).bye.toList = (Circle.facing slots).filterMap tableBye := by
  intro slots
  have hPerm : slots.Perm (circleSlots entrants) := Circle.iterate_turn_perm _ r
  have hSides : (Circle.sides (Circle.facing slots)).Perm slots :=
    Circle.sides_facing (by rw [hPerm.length_eq]; exact circleSlots_even entrants)
  have hNone : ∀ faced : List (Option String × Option String),
      (faced.filterMap tableBye).length ≤ (Circle.sides faced).count none := by
    intro faced
    induction faced with
    | nil => exact Nat.le_refl 0
    | cons pair faced ih =>
        obtain ⟨_ | first, _ | second⟩ := pair <;>
          simp [tableBye, List.filterMap_cons] <;> omega
  have hOne := (hNone (Circle.facing slots)).trans
    ((hSides.trans hPerm).count_eq none ▸ List.nodup_iff_count_le_one.mp
      (nodup_circleSlots hNodup) none)
  rw [circleRound_eq]
  generalize (Circle.facing slots).filterMap tableBye = byes at hOne ⊢
  match byes, hOne with
  | [], _ => rfl
  | [_], _ => rfl

/-- In a round every entrant is at one table or has the bye. -/
theorem circleRound_perm (hNodup : entrants.Nodup) (r : Nat) :
    let round := circleRound (Circle.turn^[r] (circleSlots entrants))
    (Circle.sides round.pairs ++ round.bye.toList).Perm entrants := by
  intro round
  have hPerm := Circle.iterate_turn_perm (circleSlots entrants) r
  have hSides : (Circle.sides (Circle.facing (Circle.turn^[r] (circleSlots entrants)))).Perm
      (Circle.turn^[r] (circleSlots entrants)) := Circle.sides_facing
    (by rw [hPerm.length_eq]; exact circleSlots_even entrants)
  have hPairs : round.pairs = (Circle.facing (Circle.turn^[r] (circleSlots entrants))).filterMap
      tablePair := by rw [show round = _ from circleRound_eq _]
  rw [byes_turn hNodup r, hPairs]
  refine (sides_filterMap_perm _).trans ?_
  have hReduced := (hSides.trans hPerm).filterMap id
  change (List.reduceOption _).Perm (List.reduceOption _) at hReduced
  rwa [reduceOption_circleSlots] at hReduced

/-- The tables of a whole cycle. -/
def cyclePairs (entrants : List String) : List (String × String) :=
  (List.range (roundsPerCycle entrants.length)).flatMap fun r =>
    (circleRound (Circle.turn^[r] (circleSlots entrants))).pairs

def cycleByes (entrants : List String) : List String :=
  (List.range (roundsPerCycle entrants.length)).flatMap fun r =>
    (circleRound (Circle.turn^[r] (circleSlots entrants))).bye.toList

theorem cyclePairs_eq (entrants : List String) : cyclePairs entrants =
    (Circle.rounds (circleSlots entrants)).flatten.filterMap tablePair := by
  rw [cyclePairs, Circle.rounds, length_circleSlots_sub, List.filterMap_flatten, List.map_map,
    List.flatMap_def]
  congr 1
  refine List.map_congr_left fun r _ => ?_
  rw [circleRound_eq]
  rfl

theorem cycleByes_eq (hNodup : entrants.Nodup) : cycleByes entrants =
    (Circle.rounds (circleSlots entrants)).flatten.filterMap tableBye := by
  rw [cycleByes, Circle.rounds, length_circleSlots_sub, List.filterMap_flatten, List.map_map,
    List.flatMap_def]
  congr 1
  exact List.map_congr_left fun r _ => byes_turn hNodup r

/-- Over a cycle an entrant meets every other entrant exactly once. -/
theorem opponents_cyclePairs (hNodup : entrants.Nodup) {x : String} (hx : x ∈ entrants) :
    (x :: Circle.opponents x (cyclePairs entrants)).Perm entrants := by
  have hMet := (Circle.opponents_rounds (nodup_circleSlots hNodup) (circleSlots_even entrants)
    (some_mem_circleSlots.mpr hx)).filterMap id
  change (List.reduceOption _).Perm (List.reduceOption _) at hMet
  rwa [List.reduceOption_cons_of_some, reduceOption_opponents, ← cyclePairs_eq,
    reduceOption_circleSlots] at hMet

/-- Over a cycle an entrant rests once when their number is odd, and never otherwise. -/
theorem count_cycleByes (hNodup : entrants.Nodup) {x : String} (hx : x ∈ entrants) :
    (cycleByes entrants).count x = entrants.length % 2 := by
  have hMet := (Circle.opponents_rounds (nodup_circleSlots hNodup) (circleSlots_even entrants)
    (some_mem_circleSlots.mpr hx)).count_eq none
  rwa [List.count_cons_of_ne (by simp), count_none_opponents, ← cycleByes_eq hNodup,
    count_none_circleSlots] at hMet

end CircleRounds

end WordArena.Tournament
