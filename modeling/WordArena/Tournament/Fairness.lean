import Mathlib.Algebra.BigOperators.Intervals
import Mathlib.Algebra.Order.BigOperators.Group.Finset
import WordArena.Tournament.Coverage

/-! Fairness of static schedules. Seen from an entrant's own rank the opponents of
a cycle lie at every distance round the circle once, so seats and profiles that
depend on that distance alone are shared out alike. -/
namespace WordArena.Tournament

open WordArena.Engine

section Ranks

variable {spec : TournamentSpec}

/-- Ranks of entrants are the places from zero on. -/
theorem map_idxOf_self {entrants : List String} (hNodup : entrants.Nodup) :
    entrants.map (entrants.idxOf ·) = List.range entrants.length := by
  refine List.ext_getElem (by simp) fun k hk hk' => ?_
  simp [hNodup.idxOf_getElem]

/-- An entrant's opponents of a cycle lie at the distances from one on. -/
theorem map_ahead_opponents (hValid : spec.Valid) {x : String}
    (hx : x ∈ spec.orderedEntrantIds) :
    ((Circle.opponents x (cyclePairs spec.orderedEntrantIds)).map fun y =>
      Circle.ahead spec.entrants.length (spec.orderedEntrantIds.idxOf x)
        (spec.orderedEntrantIds.idxOf y)).Perm
      ((List.range (spec.entrants.length - 1)).map (· + 1)) := by
  have hNodup := hValid.nodup_orderedEntrantIds
  have hRank : spec.orderedEntrantIds.idxOf x < spec.entrants.length := by
    rw [← TournamentSpec.length_orderedEntrantIds]
    exact List.idxOf_lt_length_of_mem hx
  have hAll := (opponents_cyclePairs hNodup hx).map fun y =>
    Circle.ahead spec.entrants.length (spec.orderedEntrantIds.idxOf x)
      (spec.orderedEntrantIds.idxOf y)
  have hPlaces : spec.orderedEntrantIds.map (fun y =>
      Circle.ahead spec.entrants.length (spec.orderedEntrantIds.idxOf x)
        (spec.orderedEntrantIds.idxOf y)) =
      (List.range spec.entrants.length).map
        (Circle.ahead spec.entrants.length (spec.orderedEntrantIds.idxOf x)) := by
    rw [← TournamentSpec.length_orderedEntrantIds, ← map_idxOf_self hNodup, List.map_map]
    rfl
  rw [hPlaces, List.map_cons, Circle.ahead_eq hRank hRank, if_pos (Nat.le_refl _),
    Nat.sub_self] at hAll
  have hRange := hAll.trans (Circle.map_ahead_perm hRank)
  obtain ⟨n, hn⟩ : ∃ n, spec.entrants.length = n + 1 := ⟨spec.entrants.length - 1, by omega⟩
  rw [hn] at hRange ⊢
  rw [List.range_succ_eq_map] at hRange
  exact hRange.cons_inv

/-- Tables bring different ranks together. -/
theorem rank_of_mem {x : String} (hx : x ∈ spec.orderedEntrantIds) :
    spec.orderedEntrantIds.idxOf x < spec.entrants.length := by
  rw [← TournamentSpec.length_orderedEntrantIds]
  exact List.idxOf_lt_length_of_mem hx

end Ranks

section Seats

/-- Games in seat one over games in seat two. -/
def seatLead (x : String) (seatings : List (String × String)) : Int :=
  (seatings.countP (·.1 == x) : Int) - seatings.countP (·.2 == x)

@[simp] theorem seatLead_nil (x : String) : seatLead x [] = 0 := rfl

theorem seatLead_append (x : String) (seatings later : List (String × String)) :
    seatLead x (seatings ++ later) = seatLead x seatings + seatLead x later := by
  unfold seatLead
  rw [List.countP_append, List.countP_append]
  push_cast
  ring

theorem seatLead_cons (x : String) (pair : String × String) (later : List (String × String)) :
    seatLead x (pair :: later) =
      ((if pair.1 = x then 1 else 0) - if pair.2 = x then 1 else 0) + seatLead x later := by
  unfold seatLead
  rw [List.countP_cons, List.countP_cons]
  by_cases h : pair.1 = x <;> by_cases h' : pair.2 = x <;> simp [h, h'] <;> ring

theorem seatLead_swap (x : String) (pair : String × String) :
    seatLead x [pair.swap] = -seatLead x [pair] := by
  rw [seatLead_cons, seatLead_cons, seatLead_nil]
  simp

/-- Alternating seats cancel in pairs. -/
theorem seatLead_alternate (x : String) (plan : SeriesPlan) (games : Nat) :
    seatLead x ((List.range games).map plan.seats) =
      (games % 2 : Nat) * seatLead x [(plan.baseOne, plan.baseTwo)] := by
  induction games with
  | zero => simp
  | succ games ih =>
      rw [List.range_succ, List.map_append, List.map_singleton, seatLead_append, ih]
      rcases Nat.mod_two_eq_zero_or_one games with h | h
      · have hNext : (games + 1) % 2 = 1 := by omega
        rw [SeriesPlan.seats, if_pos h, h, hNext]
        push_cast
        ring
      · have hNext : (games + 1) % 2 = 0 := by omega
        have hSwap := seatLead_swap x (plan.baseOne, plan.baseTwo)
        rw [Prod.swap_prod_mk] at hSwap
        rw [SeriesPlan.seats, if_neg (by omega), h, hNext, hSwap]
        push_cast
        ring

theorem seatLead_flatMap {β : Type} (x : String) (items : List β)
    (f : β → List (String × String)) :
    seatLead x (items.flatMap f) = (items.map fun item => seatLead x (f item)).sum := by
  induction items with
  | nil => rfl
  | cons item items ih => rw [List.flatMap_cons, seatLead_append, ih, List.map_cons, List.sum_cons]

end Seats

section Orientation

theorem firstIsSeatOne_comm {size i j : Nat} (hi : i < size) (hj : j < size) (hNe : i ≠ j) :
    firstIsSeatOne size j i = !firstIsSeatOne size i j := by
  have hAhead := Circle.ahead_eq hi hj
  have hBehind := Circle.ahead_eq hj hi
  unfold Circle.ahead at hAhead hBehind
  unfold firstIsSeatOne
  rw [hAhead, hBehind, Nat.min_comm j i]
  by_cases hLe : i ≤ j
  · have hLt : i < j := by omega
    have hNot : ¬ j ≤ i := by omega
    have hNotLt : ¬ j < i := by omega
    simp only [hLe, hNot, if_true, if_false]
    by_cases hMid : size % 2 = 0 ∧ j - i = size / 2
    · have hMid' : size % 2 = 0 ∧ i + size - j = size / 2 := by omega
      rw [if_pos hMid, if_pos hMid']
      simp [hLt, hNotLt]
    · have hMid' : ¬ (size % 2 = 0 ∧ i + size - j = size / 2) := by omega
      rw [if_neg hMid, if_neg hMid']
      by_cases hHalf : j - i ≤ size / 2
      · have hHalf' : ¬ i + size - j ≤ size / 2 := by omega
        simp [hHalf, hHalf']
      · have hHalf' : i + size - j ≤ size / 2 := by omega
        simp [hHalf, hHalf']
  · have hLt : j < i := by omega
    have hBack : j ≤ i := by omega
    have hNotLt : ¬ i < j := by omega
    simp only [hLe, hBack, if_true, if_false]
    by_cases hMid : size % 2 = 0 ∧ j + size - i = size / 2
    · have hMid' : size % 2 = 0 ∧ i - j = size / 2 := by omega
      rw [if_pos hMid, if_pos hMid']
      simp [hLt, hNotLt]
    · have hMid' : ¬ (size % 2 = 0 ∧ i - j = size / 2) := by omega
      rw [if_neg hMid, if_neg hMid']
      by_cases hHalf : j + size - i ≤ size / 2
      · have hHalf' : ¬ i - j ≤ size / 2 := by omega
        simp [hHalf, hHalf']
      · have hHalf' : i - j ≤ size / 2 := by omega
        simp [hHalf, hHalf']

/-- One for seat one, minus one for seat two. -/
def seatSign (size cycle i j : Nat) : Int :=
  if firstIsSeatOne size i j ^^ !(cycle % 2 == 0) then 1 else -1

theorem seatSign_comm {size i j : Nat} (cycle : Nat) (hi : i < size) (hj : j < size)
    (hNe : i ≠ j) : seatSign size cycle j i = -seatSign size cycle i j := by
  unfold seatSign
  rw [firstIsSeatOne_comm hi hj hNe]
  cases firstIsSeatOne size i j <;> cases cycle % 2 == 0 <;> rfl

/-- Every other cycle turns the tables round. -/
theorem seatSign_cycle (size cycle i j : Nat) :
    seatSign size cycle i j = (if cycle % 2 = 0 then 1 else -1) * seatSign size 0 i j := by
  unfold seatSign
  by_cases h : cycle % 2 = 0 <;> cases firstIsSeatOne size i j <;> simp [h]

theorem seatSign_abs (size cycle i j : Nat) : |seatSign size cycle i j| = 1 := by
  unfold seatSign
  split <;> rfl

/-- Opponents as far ahead as behind are met in opposite seats. -/
theorem seatSign_reflect {size i d : Nat} (hi : i < size) (hd : 0 < d) (hSize : d < size)
    (hMid : 2 * d ≠ size) :
    seatSign size 0 i ((i + d) % size) + seatSign size 0 i ((i + (size - d)) % size) = 0 := by
  have hValue : ∀ e, 0 < e → e < size → 2 * e ≠ size →
      seatSign size 0 i ((i + e) % size) = if e ≤ size / 2 then 1 else -1 := by
    intro e he heSize heMid
    have hPlace : (i + e) % size < size := Nat.mod_lt _ (by omega)
    have hAhead : ((i + e) % size + size - i) % size = e := by
      have := Circle.ahead_eq hi hPlace
      rw [Circle.ahead] at this
      rw [this]
      by_cases hWrap : i + e < size
      · rw [Nat.mod_eq_of_lt hWrap]
        split <;> omega
      · rw [Nat.mod_eq_sub_mod (by omega), Nat.mod_eq_of_lt (by omega)]
        split <;> omega
    have hNotMid : ¬ (size % 2 = 0 ∧ e = size / 2) := by omega
    unfold seatSign firstIsSeatOne
    simp only [hAhead, if_neg hNotMid]
    simp
  rw [hValue d hd hSize hMid, hValue (size - d) (by omega) (by omega) (by omega)]
  by_cases h : d ≤ size / 2
  · rw [if_pos h, if_neg (by omega)]
    rfl
  · rw [if_neg h, if_pos (by omega)]
    rfl

/-- Over all distances the signs cancel, but for an opponent right opposite. -/
theorem abs_sum_seatSign {size i : Nat} (hi : i < size) :
    |((List.range (size - 1)).map fun k => seatSign size 0 i ((i + (k + 1)) % size)).sum| ≤ 1 := by
  have hList : ((List.range (size - 1)).map fun k =>
      seatSign size 0 i ((i + (k + 1)) % size)).sum =
      ∑ k ∈ Finset.range (size - 1), seatSign size 0 i ((i + (k + 1)) % size) := rfl
  rw [hList]
  have hTwice := Finset.sum_range_reflect
    (fun k => seatSign size 0 i ((i + (k + 1)) % size)) (size - 1)
  have hSum : 2 * ∑ k ∈ Finset.range (size - 1), seatSign size 0 i ((i + (k + 1)) % size) =
      ∑ k ∈ Finset.range (size - 1), (seatSign size 0 i ((i + (k + 1)) % size) +
        seatSign size 0 i ((i + (size - 1 - 1 - k + 1)) % size)) := by
    rw [Finset.sum_add_distrib, hTwice]
    ring
  have hBound : |2 * ∑ k ∈ Finset.range (size - 1),
      seatSign size 0 i ((i + (k + 1)) % size)| ≤ 2 := by
    rw [hSum]
    by_cases hMid : size % 2 = 0
    · -- only the opponent right opposite is left
      rw [Finset.sum_eq_single_of_mem (size / 2 - 1) (Finset.mem_range.mpr (by omega))]
      · have hOne := seatSign_abs size 0 i ((i + (size / 2 - 1 + 1)) % size)
        have hTwo := seatSign_abs size 0 i ((i + (size - 1 - 1 - (size / 2 - 1) + 1)) % size)
        refine (abs_add_le _ _).trans ?_
        rw [hOne, hTwo]
        rfl
      · intro k hk hOther
        rw [Finset.mem_range] at hk
        have hBack : size - 1 - 1 - k + 1 = size - (k + 1) := by omega
        rw [hBack]
        exact seatSign_reflect hi (by omega) (by omega) (by omega)
    · rw [Finset.sum_eq_zero]
      · norm_num
      · intro k hk
        rw [Finset.mem_range] at hk
        have hBack : size - 1 - 1 - k + 1 = size - (k + 1) := by omega
        rw [hBack]
        exact seatSign_reflect hi (by omega) (by omega) (by omega)
  rw [abs_mul] at hBound
  have hAbs : |(2 : Int)| = 2 := rfl
  rw [hAbs] at hBound
  omega

end Orientation

section SeatFairness

variable {spec : TournamentSpec}

/-- The tables of a cycle, before they are turned round, bring different entrants
together. -/
theorem cyclePairs_sound (hValid : spec.Valid) {pair : String × String}
    (h : pair ∈ cyclePairs spec.orderedEntrantIds) :
    pair.1 ≠ pair.2 ∧ pair.1 ∈ spec.orderedEntrantIds ∧ pair.2 ∈ spec.orderedEntrantIds := by
  obtain ⟨r, -, hHere⟩ := List.mem_flatMap.mp h
  have hTurned : orientStaticPair spec.orderedEntrantIds 0 pair ∈
      (staticPairings spec 0 r).pairs := List.mem_map_of_mem hHere
  have hSound := staticPairings_sound hValid hTurned
  rcases orientStaticPair_or spec.orderedEntrantIds 0 pair with hSame | hSwap
  · rwa [hSame] at hSound
  · rw [hSwap] at hSound
    exact ⟨hSound.1.symm, hSound.2.2, hSound.2.1⟩

/-- An entrant's lead over turned tables is the sum over its opponents. -/
theorem seatLead_orient {pairs : List (String × String)}
    (hPairs : ∀ pair ∈ pairs, pair.1 ≠ pair.2 ∧ pair.1 ∈ spec.orderedEntrantIds ∧
      pair.2 ∈ spec.orderedEntrantIds) (cycle : Nat) (x : String) :
    seatLead x (pairs.map (orientStaticPair spec.orderedEntrantIds cycle)) =
      ((Circle.opponents x pairs).map fun y => seatSign spec.entrants.length cycle
        (spec.orderedEntrantIds.idxOf x) (spec.orderedEntrantIds.idxOf y)).sum := by
  induction pairs with
  | nil => rfl
  | cons pair pairs ih =>
      rw [List.forall_mem_cons] at hPairs
      obtain ⟨⟨hNe, hFirst, hSecond⟩, hRest⟩ := hPairs
      rw [List.map_cons, seatLead_cons, ih hRest, Circle.opponents_cons, List.map_append,
        List.sum_append]
      congr 1
      obtain ⟨first, second⟩ := pair
      dsimp only at hNe hFirst hSecond ⊢
      have hSign : ∀ i j, (firstIsSeatOne spec.entrants.length i j ^^ !(cycle % 2 == 0)) =
          decide (seatSign spec.entrants.length cycle i j = 1) := by
        intro i j
        unfold seatSign
        split <;> simp_all
      have hRanks : spec.orderedEntrantIds.idxOf first ≠ spec.orderedEntrantIds.idxOf second :=
        fun h => hNe (List.idxOf_inj hFirst |>.mp h)
      have hComm := seatSign_comm cycle (rank_of_mem hFirst) (rank_of_mem hSecond) hRanks
      have hAbs := seatSign_abs spec.entrants.length cycle (spec.orderedEntrantIds.idxOf first)
        (spec.orderedEntrantIds.idxOf second)
      rw [orientStaticPair, TournamentSpec.length_orderedEntrantIds, hSign]
      rcases (abs_eq (by norm_num : (0 : Int) ≤ 1)).mp hAbs with hOne | hMinus
      · by_cases hx : first = x
        · subst hx
          simp [hOne, hNe.symm]
        · by_cases hx' : second = x
          · subst hx'
            simp [hOne, hx, hComm]
          · simp [hOne, hx, hx']
      · by_cases hx : first = x
        · subst hx
          simp [hMinus, hNe.symm]
        · by_cases hx' : second = x
          · subst hx'
            simp [hMinus, hx, hComm]
          · simp [hMinus, hx, hx']

/-- The lead of an entrant over one cycle, before tables are turned round. -/
def cycleLead (spec : TournamentSpec) (x : String) : Int :=
  ((List.range (spec.entrants.length - 1)).map fun k =>
    seatSign spec.entrants.length 0 (spec.orderedEntrantIds.idxOf x)
      ((spec.orderedEntrantIds.idxOf x + (k + 1)) % spec.entrants.length)).sum

theorem seatLead_staticCycle (hValid : spec.Valid) (cycle : Nat) {x : String}
    (hx : x ∈ spec.orderedEntrantIds) :
    seatLead x ((staticCycle spec cycle).flatMap (·.2.pairs)) =
      (if cycle % 2 = 0 then 1 else -1) * cycleLead spec x := by
  have hRank := rank_of_mem hx
  have hSigns : (Circle.opponents x (cyclePairs spec.orderedEntrantIds)).map (fun y =>
      seatSign spec.entrants.length cycle (spec.orderedEntrantIds.idxOf x)
        (spec.orderedEntrantIds.idxOf y)) =
      ((Circle.opponents x (cyclePairs spec.orderedEntrantIds)).map fun y =>
        Circle.ahead spec.entrants.length (spec.orderedEntrantIds.idxOf x)
          (spec.orderedEntrantIds.idxOf y)).map fun d =>
        (if cycle % 2 = 0 then 1 else -1) * seatSign spec.entrants.length 0
          (spec.orderedEntrantIds.idxOf x)
          ((spec.orderedEntrantIds.idxOf x + d) % spec.entrants.length) := by
    rw [List.map_map]
    refine List.map_congr_left fun y hy => ?_
    have hy' : y ∈ spec.orderedEntrantIds :=
      (opponents_cyclePairs hValid.nodup_orderedEntrantIds hx).mem_iff.mp
        (List.mem_cons_of_mem _ hy)
    rw [Function.comp_apply, Circle.add_ahead_mod hRank (rank_of_mem hy'), ← seatSign_cycle]
  rw [flatMap_pairs_staticCycle, seatLead_orient fun pair h => cyclePairs_sound hValid h, hSigns,
    ((map_ahead_opponents hValid hx).map _).sum_eq, List.map_map, cycleLead,
    ← List.sum_map_mul_left]
  rfl

/-- Cycles cancel in twos. -/
theorem seatLead_staticRounds (hValid : spec.Valid) (cycles : Nat) {x : String}
    (hx : x ∈ spec.orderedEntrantIds) :
    seatLead x ((staticRounds spec cycles).flatMap (·.2.pairs)) =
      (cycles % 2 : Nat) * cycleLead spec x := by
  rw [staticRounds, List.flatMap_assoc, seatLead_flatMap]
  induction cycles with
  | zero => simp
  | succ cycles ih =>
      rw [List.range_succ, List.map_append, List.sum_append, ih, List.map_singleton,
        List.sum_singleton, seatLead_staticCycle hValid cycles hx]
      rcases Nat.mod_two_eq_zero_or_one cycles with h | h
      · have hNext : (cycles + 1) % 2 = 1 := by omega
        rw [h, hNext, if_pos rfl]
        push_cast
        ring
      · have hNext : (cycles + 1) % 2 = 0 := by omega
        rw [h, hNext, if_neg (by omega)]
        push_cast
        ring

/-- Games of a series cancel in twos. -/
theorem seatLead_games (spec : TournamentSpec) (cycles : Nat) (x : String) :
    seatLead x ((gamesFrom spec 0 0 (staticEntries spec cycles)).map fun m =>
      (m.seatOneEntrantId, m.seatTwoEntrantId)) =
      (spec.format.gamesPerSeries % 2 : Nat) *
        seatLead x ((staticRounds spec cycles).flatMap (·.2.pairs)) := by
  have hSeries : ∀ entry ∈ staticEntries spec cycles,
      seatLead x ((List.range spec.format.gamesPerSeries).map fun i =>
        ((entry.plan.game spec 0 0 i).seatOneEntrantId,
          (entry.plan.game spec 0 0 i).seatTwoEntrantId)) =
        (spec.format.gamesPerSeries % 2 : Nat) * seatLead x [(entry.first, entry.second)] := by
    intro entry hEntry
    obtain ⟨round, -, hHere⟩ := List.mem_flatMap.mp hEntry
    obtain ⟨seat, -, rfl⟩ := List.mem_map.mp hHere
    exact seatLead_alternate x _ _
  have hPairs : ((staticEntries spec cycles).map fun entry =>
      seatLead x [(entry.first, entry.second)]).sum =
      seatLead x ((staticRounds spec cycles).flatMap (·.2.pairs)) := by
    rw [← map_pair_flatMap spec]
    conv_rhs => rw [List.map_eq_flatMap, seatLead_flatMap]
    rfl
  rw [map_gamesFrom spec (fun m => (m.seatOneEntrantId, m.seatTwoEntrantId))
    (fun _ _ _ _ => rfl), seatLead_flatMap, List.map_congr_left hSeries, List.sum_map_mul_left,
    hPairs]

/-- Games of an entrant in either seat. -/
def seatOneGames (schedule : TournamentSchedule) (x : String) : Nat :=
  schedule.scheduledMatches.countP (·.seatOneEntrantId == x)

def seatTwoGames (schedule : TournamentSchedule) (x : String) : Nat :=
  schedule.scheduledMatches.countP (·.seatTwoEntrantId == x)

/-- Nobody sits in one seat more than once more often than in the other, and both
come equally often when games or cycles come in twos. -/
theorem schedule_shares_seats {platform : Platform} {schedule : TournamentSchedule}
    (h : spec.schedule platform = .ok schedule) {x : String}
    (hx : x ∈ spec.entrants.map (·.entrantId)) :
    |(seatOneGames schedule x : Int) - seatTwoGames schedule x| ≤ 1 ∧
      (spec.format.gamesPerSeries % 2 = 0 ∨
        (∃ cycles, spec.format.staticCycles = some cycles ∧ cycles % 2 = 0) →
        seatOneGames schedule x = seatTwoGames schedule x) := by
  obtain ⟨cycles, identity, hValid, hCycles, -, -, rfl⟩ := schedule_eq_ok h
  have hOrdered := entrantIds_iff.mp hx
  have hLead := seatLead_games spec cycles x
  rw [seatLead_staticRounds hValid cycles hOrdered] at hLead
  have hCounts : (seatOneGames ⟨scheduleSchemaVersion, spec.tournamentId, identity,
        (staticEntries spec cycles).map (·.toSeries spec.format.gamesPerSeries),
        gamesFrom spec 0 0 (staticEntries spec cycles), staticByes spec cycles⟩ x : Int) -
      seatTwoGames ⟨scheduleSchemaVersion, spec.tournamentId, identity,
        (staticEntries spec cycles).map (·.toSeries spec.format.gamesPerSeries),
        gamesFrom spec 0 0 (staticEntries spec cycles), staticByes spec cycles⟩ x =
      seatLead x ((gamesFrom spec 0 0 (staticEntries spec cycles)).map fun m =>
        (m.seatOneEntrantId, m.seatTwoEntrantId)) := by
    rw [seatLead, List.countP_map, List.countP_map]
    rfl
  rw [hCounts, hLead]
  have hOne : |cycleLead spec x| ≤ 1 := abs_sum_seatSign (rank_of_mem hOrdered)
  refine ⟨?_, ?_⟩
  · rcases Nat.mod_two_eq_zero_or_one spec.format.gamesPerSeries with hGames | hGames <;>
      rcases Nat.mod_two_eq_zero_or_one cycles with hEven | hOdd
    · simp [hGames]
    · simp [hGames]
    · simp [hEven]
    · simpa [hGames, hOdd] using hOne
  · intro hEven
    have hZero : ((spec.format.gamesPerSeries % 2 : Nat) : Int) *
        ((cycles % 2 : Nat) * cycleLead spec x) = 0 := by
      rcases hEven with hGames | ⟨count, hCount, hEven⟩
      · simp [hGames]
      · rw [hCycles, Option.some.injEq] at hCount
        simp [hCount, hEven]
    rw [← hLead, ← hCounts] at hZero
    omega

theorem demoSpec_shares_seats : ∃ schedule, demoSpec.schedule basicPlatform = .ok schedule ∧
    |(seatOneGames schedule "north" : Int) - seatTwoGames schedule "north"| ≤ 1 ∧
      (demoSpec.format.gamesPerSeries % 2 = 0 ∨
        (∃ cycles, demoSpec.format.staticCycles = some cycles ∧ cycles % 2 = 0) →
        seatOneGames schedule "north" = seatTwoGames schedule "north") := by
  obtain ⟨schedule, hSchedule⟩ := demoSpec_schedule
  exact ⟨schedule, hSchedule, schedule_shares_seats hSchedule (by decide)⟩

end SeatFairness

section ProfileFairness

variable {spec : TournamentSpec}

theorem circularDistance_eq {size i j : Nat} (hi : i < size) (hj : j < size) :
    circularDistance size i j =
      min (Circle.ahead size i j) (size - Circle.ahead size i j) := by
  rw [circularDistance, Circle.ahead_eq hi hj, absDiff]
  split <;> omega

theorem circularDistance_comm (size i j : Nat) :
    circularDistance size i j = circularDistance size j i := by
  unfold circularDistance absDiff
  omega

theorem staticProfile_comm (first second : String) (roundNumber : Nat) :
    spec.staticProfile first second roundNumber =
      spec.staticProfile second first roundNumber := by
  unfold TournamentSpec.staticProfile
  rw [circularDistance_comm]

/-- The place of a game's profile in the list of the spec. -/
def profileIndex (spec : TournamentSpec) (m : ScheduledMatch) : Nat :=
  spec.staticProfile m.seatOneEntrantId m.seatTwoEntrantId m.roundNumber

def ScheduledMatch.plays (m : ScheduledMatch) (x : String) : Bool :=
  m.seatOneEntrantId == x || m.seatTwoEntrantId == x

/-- A test that does not care for the order of a pair counts opponents. -/
theorem countP_opponents {test : String → String → Bool} (hComm : ∀ a b, test a b = test b a)
    {pairs : List (String × String)} (hNe : ∀ p ∈ pairs, p.1 ≠ p.2) (x : String) :
    pairs.countP (fun p => (p.1 == x || p.2 == x) && test p.1 p.2) =
      (Circle.opponents x pairs).countP (test x) := by
  induction pairs with
  | nil => rfl
  | cons pair pairs ih =>
      rw [List.forall_mem_cons] at hNe
      obtain ⟨hHead, hRest⟩ := hNe
      obtain ⟨first, second⟩ := pair
      rw [List.countP_cons, ih hRest, Circle.opponents_cons, List.countP_append, Nat.add_comm]
      congr 1
      dsimp only at hHead ⊢
      by_cases hx : first = x
      · subst hx
        simp [hHead.symm, List.countP_cons]
      · by_cases hx' : second = x
        · subst hx'
          simp [hx, hComm first, List.countP_cons]
        · simp [hx, hx']

/-- How many opponents of a cycle are at a distance that passes a test. -/
def distanceCount (spec : TournamentSpec) (test : Nat → Bool) (cycle : Nat) : Nat :=
  ((List.range (spec.entrants.length - 1)).map (· + 1)).countP fun d =>
    test ((min d (spec.entrants.length - d) - 1 + cycle) % spec.profiles.length)

theorem countP_staticCycle (hValid : spec.Valid) (test : Nat → Bool) (cycle : Nat) {x : String}
    (hx : x ∈ spec.orderedEntrantIds) :
    ((staticCycle spec cycle).flatMap (·.2.pairs)).countP (fun p =>
      (p.1 == x || p.2 == x) && test ((circularDistance spec.entrants.length
        (spec.orderedEntrantIds.idxOf p.1) (spec.orderedEntrantIds.idxOf p.2) - 1 + cycle) %
        spec.profiles.length)) = distanceCount spec test cycle := by
  have hSound : ∀ p ∈ (staticCycle spec cycle).flatMap (·.2.pairs), p.1 ≠ p.2 := by
    intro p hp
    obtain ⟨round, hRound, hHere⟩ := List.mem_flatMap.mp hp
    obtain ⟨r, -, rfl⟩ := mem_staticCycle.mp hRound
    exact (staticPairings_sound hValid hHere).1
  have hComm : ∀ a b : String, test ((circularDistance spec.entrants.length
      (spec.orderedEntrantIds.idxOf a) (spec.orderedEntrantIds.idxOf b) - 1 + cycle) %
      spec.profiles.length) = test ((circularDistance spec.entrants.length
      (spec.orderedEntrantIds.idxOf b) (spec.orderedEntrantIds.idxOf a) - 1 + cycle) %
      spec.profiles.length) := by
    intro a b
    rw [circularDistance_comm]
  rw [countP_opponents hComm hSound, flatMap_pairs_staticCycle,
    (Circle.opponents_map_perm (orientStaticPair_or _ cycle) x _).countP_eq, distanceCount,
    ← (map_ahead_opponents hValid hx).countP_eq, List.countP_map]
  refine List.countP_congr fun y hy => ?_
  have hy' : y ∈ spec.orderedEntrantIds :=
    (opponents_cyclePairs hValid.nodup_orderedEntrantIds hx).mem_iff.mp
      (List.mem_cons_of_mem _ hy)
  rw [Function.comp_apply, circularDistance_eq (rank_of_mem hx) (rank_of_mem hy')]

theorem countP_staticEntries (hValid : spec.Valid) (test : Nat → Bool) (cycles : Nat)
    {x : String} (hx : x ∈ spec.orderedEntrantIds) :
    (staticEntries spec cycles).countP (fun entry =>
      (entry.first == x || entry.second == x) &&
        test (spec.staticProfile entry.first entry.second entry.plan.roundNumber)) =
      ((List.range cycles).map (distanceCount spec test)).sum := by
  rw [staticEntries, staticRounds, List.flatMap_assoc, List.countP_flatMap]
  refine congrArg List.sum (List.map_congr_left fun cycle _ => ?_)
  rw [← countP_staticCycle hValid test cycle hx, ← map_pair_flatMap spec, List.countP_map]
  refine List.countP_congr fun entry hEntry => ?_
  obtain ⟨round, hRound, hHere⟩ := List.mem_flatMap.mp hEntry
  obtain ⟨r, hr, rfl⟩ := mem_staticCycle.mp hRound
  have hCycle : cycleOf spec.entrants.length (staticNumber spec cycle r) = cycle :=
    cycleOf_staticNumber hr
  rw [Function.comp_apply, TournamentSpec.staticProfile, roundNumber_of_mem hHere]
  rw [cycleOf] at hCycle
  rw [hCycle]

/-- Both games of a turned pair have the profile of the pair. -/
theorem profileIndex_game (round : Nat × RoundPairings) (seat : (String × String) × Nat)
    (seedIndex sequence i : Nat) :
    profileIndex spec ((staticEntry spec round.1 seat).plan.game spec seedIndex sequence i) =
      spec.staticProfile seat.1.1 seat.1.2 round.1 := by
  rcases Nat.mod_two_eq_zero_or_one i with h | h
  · simp only [profileIndex, SeriesPlan.game, SeriesPlan.seats, staticEntry, h, if_true]
  · simp only [profileIndex, SeriesPlan.game, SeriesPlan.seats, staticEntry, h,
      if_neg Nat.one_ne_zero]
    exact staticProfile_comm _ _ _

/-- The number of games an entrant plays with the profiles that pass a test does
not depend on the entrant. -/
theorem countP_profile (hValid : spec.Valid) (test : Nat → Bool) (cycles : Nat) {x : String}
    (hx : x ∈ spec.orderedEntrantIds) :
    (gamesFrom spec 0 0 (staticEntries spec cycles)).countP
        (fun m => m.plays x && test (profileIndex spec m)) =
      ((List.range cycles).map (distanceCount spec test)).sum * spec.format.gamesPerSeries := by
  rw [← countP_staticEntries hValid test cycles hx]
  refine countP_gamesFrom spec 0 0 fun entry hEntry seedIndex sequence i => ?_
  obtain ⟨round, -, hHere⟩ := List.mem_flatMap.mp hEntry
  obtain ⟨seat, -, rfl⟩ := List.mem_map.mp hHere
  rw [profileIndex_game, ScheduledMatch.plays]
  rcases Nat.mod_two_eq_zero_or_one i with h | h
  · simp only [SeriesPlan.game, SeriesPlan.seats, staticEntry, h, if_true]
  · simp only [SeriesPlan.game, SeriesPlan.seats, staticEntry, h, if_neg Nat.one_ne_zero]
    rw [Bool.or_comm]

/-- A game is played with the profile at its place in the list. -/
theorem profile_of_mem (hValid : spec.Valid) {cycles : Nat} {m : ScheduledMatch}
    (h : m ∈ gamesFrom spec 0 0 (staticEntries spec cycles)) :
    spec.profiles[profileIndex spec m]? = some m.profile := by
  have hCount : 0 < spec.profiles.length := List.length_pos_iff.mpr hValid.profiles
  obtain ⟨entry, hEntry, seedIndex, sequence, i, -, rfl⟩ := mem_gamesFrom h
  obtain ⟨round, -, hHere⟩ := List.mem_flatMap.mp hEntry
  obtain ⟨seat, -, rfl⟩ := List.mem_map.mp hHere
  have hLt : spec.staticProfile seat.1.1 seat.1.2 round.1 < spec.profiles.length :=
    Nat.mod_lt _ hCount
  rw [profileIndex_game, SeriesPlan.game, staticEntry, List.getD_eq_getElem?_getD,
    List.getElem?_eq_getElem hLt, Option.getD_some]

/-- The games of one series. -/
def gamesOf (schedule : TournamentSchedule) (s : ScheduledSeries) : List ScheduledMatch :=
  schedule.scheduledMatches.filter (·.seriesId == s.seriesId)

/-- Two games with the same profile and the seats changed over. -/
def Reversed (first second : ScheduledMatch) : Prop :=
  first.profile = second.profile ∧ first.seatOneEntrantId = second.seatTwoEntrantId ∧
    first.seatTwoEntrantId = second.seatOneEntrantId

theorem reversed_next (plan : SeriesPlan) (seedIndex sequence i : Nat) :
    Reversed (plan.game spec seedIndex sequence i) (plan.game spec seedIndex sequence (i + 1)) := by
  rcases Nat.mod_two_eq_zero_or_one i with h | h
  · have hNext : (i + 1) % 2 = 1 := by omega
    simp [Reversed, SeriesPlan.game, SeriesPlan.seats, h, hNext]
  · have hNext : (i + 1) % 2 = 0 := by omega
    simp [Reversed, SeriesPlan.game, SeriesPlan.seats, h, hNext]

theorem reversed_gamesOf {cycles : Nat} {schedule : TournamentSchedule}
    (hMatches : schedule.scheduledMatches = gamesFrom spec 0 0 (staticEntries spec cycles))
    {entry : SeriesEntry} (hEntry : entry ∈ staticEntries spec cycles) :
    (gamesOf schedule (entry.toSeries spec.format.gamesPerSeries)).length =
        spec.format.gamesPerSeries ∧
      ∀ i first second,
        (gamesOf schedule (entry.toSeries spec.format.gamesPerSeries))[i]? = some first →
        (gamesOf schedule (entry.toSeries spec.format.gamesPerSeries))[i + 1]? = some second →
        Reversed first second := by
  have hDistinct := (List.nodup_append.mp (nodup_names spec 0 0 (staticEntries_before cycles)
    (staticEntries_named cycles))).1
  obtain ⟨seedIndex, sequence, hGames⟩ := filter_gamesFrom spec 0 0 hDistinct hEntry
  have hOf : gamesOf schedule (entry.toSeries spec.format.gamesPerSeries) =
      (List.range spec.format.gamesPerSeries).map (entry.plan.game spec seedIndex sequence) := by
    rw [gamesOf, hMatches]
    exact hGames
  rw [hOf]
  refine ⟨by simp, fun i first second hFirst hSecond => ?_⟩
  rw [List.getElem?_map, Option.map_eq_some_iff] at hFirst hSecond
  obtain ⟨j, hj, rfl⟩ := hFirst
  obtain ⟨k, hk, rfl⟩ := hSecond
  obtain ⟨hj', rfl⟩ := List.getElem?_eq_some_iff.mp hj
  obtain ⟨hk', rfl⟩ := List.getElem?_eq_some_iff.mp hk
  rw [List.getElem_range, List.getElem_range]
  exact reversed_next entry.plan seedIndex sequence i

/-- Every entrant plays each profile equally often, and the games of a series keep
their profile while the seats change over from game to game. -/
theorem schedule_shares_profiles {platform : Platform} {schedule : TournamentSchedule}
    (h : spec.schedule platform = .ok schedule) :
    (∀ m ∈ schedule.scheduledMatches, spec.profiles[profileIndex spec m]? = some m.profile) ∧
      (∀ x ∈ spec.entrants.map (·.entrantId), ∀ y ∈ spec.entrants.map (·.entrantId),
        (∀ index, schedule.scheduledMatches.countP
            (fun m => m.plays x && profileIndex spec m == index) =
          schedule.scheduledMatches.countP
            (fun m => m.plays y && profileIndex spec m == index)) ∧
        ∀ profile, schedule.scheduledMatches.countP
            (fun m => m.plays x && decide (m.profile = profile)) =
          schedule.scheduledMatches.countP
            (fun m => m.plays y && decide (m.profile = profile))) ∧
      ∀ s ∈ schedule.series, (gamesOf schedule s).length = spec.format.gamesPerSeries ∧
        ∀ i first second, (gamesOf schedule s)[i]? = some first →
          (gamesOf schedule s)[i + 1]? = some second → Reversed first second := by
  obtain ⟨cycles, identity, hValid, -, -, -, rfl⟩ := schedule_eq_ok h
  refine ⟨fun m hm => profile_of_mem hValid hm, fun x hx y hy => ⟨fun index => ?_,
    fun profile => ?_⟩, fun s hs => ?_⟩
  · have hTest := fun z hz => countP_profile (x := z) hValid (· == index) cycles hz
    exact (hTest x (entrantIds_iff.mp hx)).trans (hTest y (entrantIds_iff.mp hy)).symm
  · have hTest : ∀ z ∈ spec.orderedEntrantIds,
        (gamesFrom spec 0 0 (staticEntries spec cycles)).countP
          (fun m => m.plays z && decide (m.profile = profile)) =
        (gamesFrom spec 0 0 (staticEntries spec cycles)).countP
          (fun m => m.plays z && decide (spec.profiles[profileIndex spec m]? = some profile)) := by
      intro z _
      refine List.countP_congr fun m hm => ?_
      rw [profile_of_mem hValid hm]
      simp
    have hSame := fun z hz => (hTest z hz).trans
      (countP_profile hValid (fun index => decide (spec.profiles[index]? = some profile)) cycles hz)
    exact (hSame x (entrantIds_iff.mp hx)).trans (hSame y (entrantIds_iff.mp hy)).symm
  · obtain ⟨entry, hEntry, rfl⟩ := List.mem_map.mp hs
    exact reversed_gamesOf rfl hEntry

theorem demoSpec_shares_profiles : ∃ schedule, demoSpec.schedule basicPlatform = .ok schedule ∧
    (∀ m ∈ schedule.scheduledMatches,
      demoSpec.profiles[profileIndex demoSpec m]? = some m.profile) ∧
      (∀ x ∈ demoSpec.entrants.map (·.entrantId), ∀ y ∈ demoSpec.entrants.map (·.entrantId),
        (∀ index, schedule.scheduledMatches.countP
            (fun m => m.plays x && profileIndex demoSpec m == index) =
          schedule.scheduledMatches.countP
            (fun m => m.plays y && profileIndex demoSpec m == index)) ∧
        ∀ profile, schedule.scheduledMatches.countP
            (fun m => m.plays x && decide (m.profile = profile)) =
          schedule.scheduledMatches.countP
            (fun m => m.plays y && decide (m.profile = profile))) ∧
      ∀ s ∈ schedule.series, (gamesOf schedule s).length = 2 ∧
        ∀ i first second, (gamesOf schedule s)[i]? = some first →
          (gamesOf schedule s)[i + 1]? = some second → Reversed first second := by
  obtain ⟨schedule, hSchedule⟩ := demoSpec_schedule
  exact ⟨schedule, hSchedule, schedule_shares_profiles hSchedule⟩

end ProfileFairness

end WordArena.Tournament
