import Mathlib.Data.List.Rotate
import Mathlib.Data.ZMod.Basic
import Mathlib.Tactic.LinearCombination
import Mathlib.Tactic.Ring

/-! Round-robin pairing on a circle. The first slot stays in place while the
others move round it by one seat after every round; slots that face each other
meet. Over one turn of the circle every slot meets every other slot once. -/
namespace Circle

universe u

variable {α : Type u}

/-- The first slot stays, and the last one moves in beside it. -/
def turn : List α → List α
  | [] => []
  | a :: rest => a :: rest.rotate (rest.length - 1)

/-- Slots that face each other, from the outside in. -/
def facing (slots : List α) : List (α × α) :=
  (slots.zip slots.reverse).take (slots.length / 2)

/-- Both sides of every pair. -/
def sides (pairs : List (α × α)) : List α := pairs.flatMap fun pair => [pair.1, pair.2]

/-- Those that one slot meets, in the order of the pairs. -/
def opponents [DecidableEq α] (x : α) (pairs : List (α × α)) : List α :=
  pairs.flatMap fun pair =>
    (if pair.1 = x then [pair.2] else []) ++ if pair.2 = x then [pair.1] else []

/-- The pairs of the rounds of one full turn. -/
def rounds (slots : List α) : List (List (α × α)) :=
  (List.range (slots.length - 1)).map fun r => facing (turn^[r] slots)

/-- Taking the last slot out and putting it back in second place is one turn. -/
theorem insertIdx_dropLast_eq_turn {slots : List α} {last : α} (hLength : 2 ≤ slots.length)
    (hLast : slots.getLast? = some last) : slots.dropLast.insertIdx 1 last = turn slots := by
  obtain ⟨front, rfl⟩ := List.getLast?_eq_some_iff.mp hLast
  cases front with
  | nil => simp at hLength
  | cons a front =>
      have hRotate := List.rotate_append_length_eq front [last]
      rw [List.dropLast_concat, List.insertIdx_succ_cons, List.insertIdx_zero, List.cons_append,
        turn, List.length_append, List.length_singleton, Nat.add_sub_cancel, hRotate,
        List.singleton_append]

theorem iterate_turn_cons (a : α) (rest : List α) (r : Nat) :
    turn^[r] (a :: rest) = a :: rest.rotate (r * (rest.length - 1)) := by
  induction r with
  | zero => simp
  | succ r ih =>
      rw [Function.iterate_succ_apply', ih, turn, List.length_rotate, List.rotate_rotate,
        Nat.succ_mul]

theorem iterate_turn_perm (slots : List α) (r : Nat) : (turn^[r] slots).Perm slots := by
  cases slots with
  | nil =>
      have hNil : turn^[r] ([] : List α) = [] := by
        induction r with
        | zero => rfl
        | succ r ih => rw [Function.iterate_succ_apply', ih]; rfl
      rw [hNil]
  | cons a rest =>
      rw [iterate_turn_cons]
      exact (List.rotate_perm _ _).cons a

@[simp] theorem length_iterate_turn (slots : List α) (r : Nat) :
    (turn^[r] slots).length = slots.length := (iterate_turn_perm slots r).length_eq

section Sides

@[simp] theorem sides_nil : sides ([] : List (α × α)) = [] := rfl

@[simp] theorem sides_cons (pair : α × α) (pairs : List (α × α)) :
    sides (pair :: pairs) = pair.1 :: pair.2 :: sides pairs := rfl

theorem sides_perm (pairs : List (α × α)) :
    (sides pairs).Perm (pairs.map Prod.fst ++ pairs.map Prod.snd) := by
  induction pairs with
  | nil => exact List.Perm.refl _
  | cons pair pairs ih =>
      simp only [sides_cons, List.map_cons, List.cons_append]
      refine List.Perm.cons _ ?_
      exact (ih.cons pair.2).trans List.perm_middle.symm

/-- Turning pairs round leaves their sides as they were. -/
theorem sides_map_perm {orient : α × α → α × α}
    (hOrient : ∀ pair, orient pair = pair ∨ orient pair = pair.swap) (pairs : List (α × α)) :
    (sides (pairs.map orient)).Perm (sides pairs) := by
  induction pairs with
  | nil => exact .refl _
  | cons pair pairs ih =>
      rw [List.map_cons, sides_cons, sides_cons]
      rcases hOrient pair with h | h
      · rw [h]
        exact (ih.cons pair.2).cons pair.1
      · rw [h]
        exact (List.Perm.swap _ _ _).trans ((ih.cons pair.2).cons pair.1)

/-- Every slot of an even circle sits on exactly one side of one pair. -/
theorem sides_facing {slots : List α} (hEven : slots.length % 2 = 0) :
    (sides (facing slots)).Perm slots := by
  have hFst : (facing slots).map Prod.fst = slots.take (slots.length / 2) := by
    rw [facing, List.map_take, List.map_fst_zip (by simp)]
  have hSnd : (facing slots).map Prod.snd = (slots.drop (slots.length / 2)).reverse := by
    rw [facing, List.map_take, List.map_snd_zip (by simp), List.take_reverse]
    congr 2
    omega
  refine (sides_perm _).trans ?_
  rw [hFst, hSnd]
  refine ((List.reverse_perm _).append_left _).trans ?_
  rw [List.take_append_drop]

end Sides

theorem getElem?_facing {slots : List α} {x y : α} {k : Nat}
    (h : (facing slots)[k]? = some (x, y)) :
    k < slots.length / 2 ∧ slots[k]? = some x ∧ slots[slots.length - 1 - k]? = some y := by
  obtain ⟨hk, hPair⟩ := List.getElem?_eq_some_iff.mp h
  simp only [facing, List.length_take, List.length_zip, List.length_reverse] at hk
  simp only [facing, List.getElem_take, List.getElem_zip, List.getElem_reverse,
    Prod.mk.injEq] at hPair
  exact ⟨by omega, List.getElem?_eq_some_iff.mpr ⟨by omega, hPair.1⟩,
    List.getElem?_eq_some_iff.mpr ⟨by omega, hPair.2⟩⟩

section Opponents

variable [DecidableEq α]

@[simp] theorem opponents_nil (x : α) : opponents x [] = [] := rfl

theorem opponents_cons (x : α) (pair : α × α) (pairs : List (α × α)) :
    opponents x (pair :: pairs) =
      ((if pair.1 = x then [pair.2] else []) ++ if pair.2 = x then [pair.1] else []) ++
        opponents x pairs := rfl

theorem mem_opponents {x y : α} {pairs : List (α × α)} :
    y ∈ opponents x pairs ↔ (x, y) ∈ pairs ∨ (y, x) ∈ pairs := by
  induction pairs with
  | nil => simp
  | cons pair pairs ih =>
      obtain ⟨left, right⟩ := pair
      rw [opponents_cons]
      simp only [List.mem_append, ih, List.mem_cons, Prod.mk.injEq]
      by_cases hLeft : left = x <;> by_cases hRight : right = x <;>
        simp [hLeft, hRight, eq_comm] <;> tauto

/-- A slot has as many opponents as sides. -/
theorem length_opponents (x : α) (pairs : List (α × α)) :
    (opponents x pairs).length = (sides pairs).count x := by
  induction pairs with
  | nil => rfl
  | cons pair pairs ih =>
      rw [opponents_cons, sides_cons, List.length_append, ih, List.length_append,
        List.count_cons, List.count_cons]
      by_cases hLeft : pair.1 = x <;> by_cases hRight : pair.2 = x <;>
        simp [hLeft, hRight] <;> omega

/-- Turning pairs round leaves the opponents as they were. -/
theorem opponents_map_perm {orient : α × α → α × α}
    (hOrient : ∀ pair, orient pair = pair ∨ orient pair = pair.swap) (x : α)
    (pairs : List (α × α)) : (opponents x (pairs.map orient)).Perm (opponents x pairs) := by
  induction pairs with
  | nil => exact .refl _
  | cons pair pairs ih =>
      rw [List.map_cons, opponents_cons, opponents_cons]
      refine List.Perm.append ?_ ih
      rcases hOrient pair with h | h
      · rw [h]
      · rw [h]
        exact List.perm_append_comm

end Opponents

section Meeting

variable [DecidableEq α] {a : α} {rest : List α}

/-- Twice the place on the turning part for the fixed slot's opponent, the sum of
both places for any other pair. -/
def places (a : α) (rest : List α) (x y : α) : ZMod rest.length :=
  if x = a then 2 * (rest.idxOf y : ZMod rest.length)
  else if y = a then 2 * (rest.idxOf x : ZMod rest.length)
  else (rest.idxOf x : ZMod rest.length) + rest.idxOf y

theorem places_comm (x y : α) : places a rest x y = places a rest y x := by
  unfold places
  by_cases hx : x = a <;> by_cases hy : y = a <;> simp [hx, hy, add_comm]

theorem cast_idxOf_rotate (hNodup : rest.Nodup) {shift k : Nat} {z : α}
    (hk : (rest.rotate shift)[k]? = some z) :
    (rest.idxOf z : ZMod rest.length) = k + shift := by
  obtain ⟨hLt, rfl⟩ := List.getElem?_eq_some_iff.mp hk
  rw [List.getElem_rotate, hNodup.idxOf_getElem, ZMod.natCast_mod]
  push_cast
  rfl

/-- The rounds in which two slots face each other are fixed by their places. -/
theorem places_of_facing (hNodup : (a :: rest).Nodup) {shift : Nat} {x y : α}
    (h : (x, y) ∈ facing (a :: rest.rotate shift)) :
    places a rest x y = 2 * (shift : ZMod rest.length) - 2 := by
  obtain ⟨hFixed, hRest⟩ := List.nodup_cons.mp hNodup
  have hNotFixed : ∀ {k : Nat} {z : α}, (rest.rotate shift)[k]? = some z → z ≠ a := by
    rintro k z hz rfl
    exact hFixed (List.mem_rotate.mp (List.mem_of_getElem? hz))
  obtain ⟨k, hk⟩ := List.mem_iff_getElem?.mp h
  obtain ⟨hLt, hx, hy⟩ := getElem?_facing hk
  rw [List.length_cons, List.length_rotate] at hLt hy
  have hCircle : ((rest.length : Nat) : ZMod rest.length) = 0 := ZMod.natCast_self _
  cases k with
  | zero =>
      -- the fixed slot faces the last one
      obtain ⟨n, hn⟩ : ∃ n, rest.length = n + 1 := ⟨rest.length - 1, by omega⟩
      have hLast : rest.length + 1 - 1 - 0 = n + 1 := by omega
      have hPlace : (n : ZMod rest.length) = -1 := by
        rw [hn] at hCircle ⊢
        push_cast at hCircle
        linear_combination hCircle
      rw [hLast, List.getElem?_cons_succ] at hy
      rw [List.getElem?_cons_zero, Option.some.injEq] at hx
      rw [places, if_pos hx.symm, cast_idxOf_rotate hRest hy, hPlace]
      ring
  | succ k =>
      obtain ⟨n, hn⟩ : ∃ n, rest.length = n + k + 2 := ⟨rest.length - (k + 2), by omega⟩
      have hRight : rest.length + 1 - 1 - (k + 1) = n + 1 := by omega
      have hPlace : (n : ZMod rest.length) + k = -2 := by
        rw [hn] at hCircle ⊢
        push_cast at hCircle
        linear_combination hCircle
      rw [hRight, List.getElem?_cons_succ] at hy
      rw [List.getElem?_cons_succ] at hx
      rw [places, if_neg (hNotFixed hx), if_neg (hNotFixed hy), cast_idxOf_rotate hRest hx,
        cast_idxOf_rotate hRest hy]
      linear_combination hPlace

/-- On a circle of even size two slots face each other at most once in a turn. -/
theorem facing_once (hNodup : (a :: rest).Nodup) (hOdd : rest.length % 2 = 1) {x y : α}
    {r r' : Nat} (hr : r < rest.length) (hr' : r' < rest.length)
    (h : y ∈ opponents x (facing (turn^[r] (a :: rest))))
    (h' : y ∈ opponents x (facing (turn^[r'] (a :: rest)))) : r = r' := by
  have hPlaces : ∀ s, y ∈ opponents x (facing (turn^[s] (a :: rest))) →
      places a rest x y = -2 * (s : ZMod rest.length) - 2 := by
    intro s hs
    have hShift : ((s * (rest.length - 1) : Nat) : ZMod rest.length) = -s := by
      rw [Nat.cast_mul, Nat.cast_sub (by omega), ZMod.natCast_self]
      push_cast
      ring
    rw [iterate_turn_cons, mem_opponents] at hs
    rcases hs with hs | hs
    · rw [places_of_facing hNodup hs, hShift]
      ring
    · rw [places_comm, places_of_facing hNodup hs, hShift]
      ring
  have hTwice : ((2 * r : Nat) : ZMod rest.length) = ((2 * r' : Nat) : ZMod rest.length) := by
    have hSame := (hPlaces r h).symm.trans (hPlaces r' h')
    push_cast
    linear_combination -hSame
  have hCoprime : Nat.gcd rest.length 2 = 1 := by
    have := Nat.coprime_two_right.mpr (Nat.odd_iff.mpr hOdd)
    exact this
  have hMod := (Nat.ModEq.cancel_left_of_coprime hCoprime ((ZMod.natCast_eq_natCast_iff _ _ _).mp
    hTwice))
  exact Nat.ModEq.eq_of_lt_of_lt hMod hr hr'

end Meeting

section Distance

/-- Steps from one place of a circle of the given size forward to another. -/
def ahead (size i j : Nat) : Nat := (j + size - i) % size

theorem ahead_eq {size i j : Nat} (hi : i < size) (hj : j < size) :
    ahead size i j = if i ≤ j then j - i else j + size - i := by
  unfold ahead
  split
  · have hSplit : j + size - i = (j - i) + size := by omega
    rw [hSplit, Nat.add_mod_right, Nat.mod_eq_of_lt (by omega)]
  · exact Nat.mod_eq_of_lt (by omega)

/-- Going the distance forward reaches the place. -/
theorem add_ahead_mod {size i j : Nat} (hi : i < size) (hj : j < size) :
    (i + ahead size i j) % size = j := by
  rw [ahead_eq hi hj]
  split
  · rw [Nat.mod_eq_of_lt (by omega)]
    omega
  · have hWrap : i + (j + size - i) = j + size := by omega
    rw [hWrap, Nat.add_mod_right, Nat.mod_eq_of_lt hj]

/-- Seen from any place, the places of a circle lie at all distances once. -/
theorem map_ahead_perm {size i : Nat} (hi : i < size) :
    ((List.range size).map (ahead size i)).Perm (List.range size) := by
  have hRotate : (List.range size).map (ahead size i) = (List.range size).rotate (size - i) := by
    refine List.ext_getElem (by simp) fun k hk hk' => ?_
    simp only [List.getElem_map, List.getElem_range, List.getElem_rotate, List.length_range, ahead]
    congr 1
    omega
  rw [hRotate]
  exact List.rotate_perm _ _

end Distance

section Turn

variable [DecidableEq α] {slots : List α}

theorem length_opponents_round (hNodup : slots.Nodup) (hEven : slots.length % 2 = 0) {x : α}
    (hx : x ∈ slots) (r : Nat) : (opponents x (facing (turn^[r] slots))).length = 1 := by
  have hPerm := iterate_turn_perm slots r
  rw [length_opponents, (sides_facing (by rw [hPerm.length_eq]; exact hEven)).count_eq,
    hPerm.count_eq]
  exact List.count_eq_one_of_mem hNodup hx

theorem opponents_flatten (x : α) (tables : List (List (α × α))) :
    opponents x tables.flatten = tables.flatMap (opponents x) := by
  induction tables with
  | nil => rfl
  | cons table tables ih =>
      rw [List.flatten_cons, List.flatMap_cons, ← ih]
      simp only [opponents, List.flatMap_append]

/-- A slot never faces itself. -/
theorem not_mem_opponents_self (hNodup : slots.Nodup) (hEven : slots.length % 2 = 0) (x : α)
    (r : Nat) : x ∉ opponents x (facing (turn^[r] slots)) := by
  intro hSelf
  have hPerm := iterate_turn_perm slots r
  have hSides : (sides (facing (turn^[r] slots))).Perm (turn^[r] slots) :=
    sides_facing (by rw [hPerm.length_eq]; exact hEven)
  have hPair : (x, x) ∈ facing (turn^[r] slots) := by simpa using mem_opponents.mp hSelf
  obtain ⟨before, after, hSplit⟩ := List.append_of_mem hPair
  have hCount : 2 ≤ (sides (facing (turn^[r] slots))).count x := by
    rw [hSplit, sides, List.flatMap_append, List.flatMap_cons, List.count_append,
      List.count_append]
    simp
    omega
  have hOnce := List.nodup_iff_count_le_one.mp hNodup x
  rw [hSides.count_eq, hPerm.count_eq] at hCount
  omega

/-- Over one turn every slot meets every other slot exactly once. -/
theorem opponents_rounds (hNodup : slots.Nodup) (hEven : slots.length % 2 = 0) {x : α}
    (hx : x ∈ slots) : (x :: opponents x (rounds slots).flatten).Perm slots := by
  obtain ⟨a, rest, rfl⟩ : ∃ a rest, slots = a :: rest :=
    List.exists_cons_of_ne_nil (List.ne_nil_of_mem hx)
  have hOdd : rest.length % 2 = 1 := by
    rw [List.length_cons] at hEven
    omega
  have hForm : opponents x (rounds (a :: rest)).flatten =
      (List.range rest.length).flatMap fun r => opponents x (facing (turn^[r] (a :: rest))) := by
    rw [opponents_flatten, rounds, List.flatMap_map]
    rfl
  rw [hForm]
  suffices hMet : ((List.range rest.length).flatMap fun r =>
      opponents x (facing (turn^[r] (a :: rest)))).Perm ((a :: rest).erase x) from
    (hMet.cons x).trans (List.perm_cons_erase hx).symm
  have hLength : ((List.range rest.length).flatMap fun r =>
      opponents x (facing (turn^[r] (a :: rest)))).length = ((a :: rest).erase x).length := by
    rw [List.length_flatMap, List.length_erase_of_mem hx, List.length_cons, Nat.add_sub_cancel]
    have hOnes : (List.range rest.length).map (fun r =>
        (opponents x (facing (turn^[r] (a :: rest)))).length) =
        List.replicate rest.length 1 := by
      rw [List.eq_replicate_iff]
      refine ⟨by simp, fun b hb => ?_⟩
      obtain ⟨r, -, rfl⟩ := List.mem_map.mp hb
      exact length_opponents_round hNodup hEven hx r
    rw [hOnes]
    simp
  have hDistinct : ((List.range rest.length).flatMap fun r =>
      opponents x (facing (turn^[r] (a :: rest)))).Nodup := by
    refine List.nodup_flatMap.mpr ⟨fun r _ => ?_, ?_⟩
    · obtain ⟨y, hy⟩ := List.length_eq_one_iff.mp (length_opponents_round hNodup hEven hx r)
      rw [hy]
      exact List.nodup_singleton y
    · refine List.Pairwise.imp_of_mem ?_ List.nodup_range
      intro r r' hr hr' hNe y hy hy'
      exact hNe (facing_once hNodup hOdd (List.mem_range.mp hr) (List.mem_range.mp hr') hy hy')
  have hSubset : ((List.range rest.length).flatMap fun r =>
      opponents x (facing (turn^[r] (a :: rest)))) ⊆ (a :: rest).erase x := by
    intro y hy
    obtain ⟨r, -, hMeets⟩ := List.mem_flatMap.mp hy
    have hNe : y ≠ x := by
      rintro rfl
      exact not_mem_opponents_self hNodup hEven y r hMeets
    have hMem : y ∈ sides (facing (turn^[r] (a :: rest))) := by
      rcases mem_opponents.mp hMeets with h | h
      · exact List.mem_flatMap.mpr ⟨_, h, by simp⟩
      · exact List.mem_flatMap.mpr ⟨_, h, by simp⟩
    have hPerm := iterate_turn_perm (a :: rest) r
    have hSlot := hPerm.mem_iff.mp ((sides_facing (by rw [hPerm.length_eq]; exact hEven)).mem_iff.mp
      hMem)
    exact (List.mem_erase_of_ne hNe).mpr hSlot
  exact (hDistinct.subperm hSubset).perm_of_length_le hLength.ge

end Turn

end Circle
