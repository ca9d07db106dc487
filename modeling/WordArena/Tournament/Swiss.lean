import Mathlib.Data.String.Basic
import WordArena.Library.Pairing
import WordArena.Tournament.Coverage
import WordArena.Tournament.Emission

/-! Swiss rounds. The search for a pairing without rematches is sound and complete,
and it finds the first pairing in the order of the standings. -/
namespace WordArena.Tournament

open Fallible WordArena.Application WordArena.Engine Pairing

/-- The two entrants have not met before. -/
def Unplayed (prior : Finset EntrantPairing) (a b : String) : Prop := EntrantPairing.new a b ∉ prior

section Search

variable {prior : Finset EntrantPairing}

theorem EntrantPairing.new_comm (a b : String) : EntrantPairing.new a b = EntrantPairing.new b a := by
  unfold EntrantPairing.new
  split
  · rename_i hLeft
    split
    · rename_i hRight
      rw [le_antisymm hLeft hRight]
    · rfl
  · rename_i hLeft
    rw [if_pos ((le_total a b).resolve_left hLeft)]

theorem Unplayed.symm {a b : String} (h : Unplayed prior a b) : Unplayed prior b a := by
  rw [Unplayed, EntrantPairing.new_comm]
  exact h

/-- The search with one partner of the first entrant. -/
def attempt (prior : Finset EntrantPairing) (first : String) (rest : List String) (i : Nat) :
    Option (List (String × String)) :=
  match rest[i]? with
  | none => none
  | some partner =>
      if EntrantPairing.new first partner ∈ prior then none
      else (pairWithoutRematches prior (rest.eraseIdx i)).map ((first, partner) :: ·)

theorem pairWithoutRematches_cons (prior : Finset EntrantPairing) (first : String)
    (rest : List String) : pairWithoutRematches prior (first :: rest) =
      (List.range rest.length).findSome? (attempt prior first rest) := by
  rw [pairWithoutRematches]
  rfl

theorem attempt_at (prior : Finset EntrantPairing) (first partner : String)
    (before after : List String) :
    attempt prior first (before ++ partner :: after) before.length =
      if EntrantPairing.new first partner ∈ prior then none
      else (pairWithoutRematches prior (before ++ after)).map ((first, partner) :: ·) := by
  simp [attempt, List.eraseIdx_append_of_length_le]

/-- A failed attempt with an entrant not met before leaves a rest without a pairing. -/
theorem attempt_eq_none {first partner : String} {before after : List String}
    (h : attempt prior first (before ++ partner :: after) before.length = none)
    (hUnplayed : Unplayed prior first partner) :
    pairWithoutRematches prior (before ++ after) = none := by
  rw [attempt_at, if_neg hUnplayed, Option.map_eq_none_iff] at h
  exact h

theorem split_at {rest : List String} {i : Nat} (h : i < rest.length) :
    ∃ before partner after, rest = before ++ partner :: after ∧ before.length = i :=
  ⟨rest.take i, rest[i], rest.drop (i + 1), by simp, by simp; omega⟩

/-- The search answers with the earliest pairing, and with nothing when there is none. -/
theorem pairWithoutRematches_spec (prior : Finset EntrantPairing) (ordered : List String) :
    (∀ pairs, pairWithoutRematches prior ordered = some pairs →
      Earliest (Unplayed prior) ordered pairs) ∧
    (pairWithoutRematches prior ordered = none → ¬ Pairable (Unplayed prior) ordered) := by
  induction hLength : ordered.length using Nat.strong_induction_on generalizing ordered with
  | _ n ih =>
      subst hLength
      cases ordered with
      | nil =>
          rw [pairWithoutRematches]
          refine ⟨fun pairs hPairs => ?_, (by simp)⟩
          cases hPairs
          exact .nil
      | cons first rest =>
          rw [pairWithoutRematches_cons]
          have ih (partner : String) (before after : List String)
              (hRest : rest = before ++ partner :: after) :=
            ih (before ++ after).length (by simp [hRest]) (before ++ after) rfl
          constructor
          · intro pairs hFound
            obtain ⟨tried, i, untried, hRange, hHere, hTried⟩ := List.findSome?_eq_some_iff.mp hFound
            have hIndex : i < rest.length := by
              rw [← List.mem_range, hRange]
              exact List.mem_append_right _ List.mem_cons_self
            obtain ⟨before, partner, after, rfl, rfl⟩ := split_at hIndex
            rw [attempt_at] at hHere
            split at hHere
            · cases hHere
            rename_i hUnplayed
            obtain ⟨later, hLater, rfl⟩ := Option.map_eq_some_iff.mp hHere
            refine .cons hUnplayed ((ih _ _ _ rfl).1 later hLater) ?_
            rintro left other right rfl hOther
            -- The attempt with the earlier partner came first, and failed.
            have hEarlier : left.length ∈ tried := by
              have hSorted := List.pairwise_lt_range (n := (left ++ other :: right ++ partner :: after).length)
              rw [hRange, List.pairwise_append, List.pairwise_cons] at hSorted
              have hMem : left.length ∈ tried ++ (left ++ other :: right).length :: untried := by
                rw [← hRange]
                simp
              rw [List.mem_append, List.mem_cons] at hMem
              rcases hMem with hIn | hEq | hIn
              · exact hIn
              · simp at hEq
              · have := hSorted.2.1.1 _ hIn
                simp at this
            have hNone := hTried _ hEarlier
            rw [List.append_assoc, List.cons_append] at hNone
            exact (ih other left (right ++ partner :: after) (by simp)).2 (attempt_eq_none hNone hOther)
          · intro hNone hPairable
            obtain ⟨before, partner, after, rfl, hUnplayed, hRest⟩ :=
              hPairable.partner fun a b h => h.symm
            have hFailed := List.findSome?_eq_none_iff.mp hNone before.length (by simp)
            exact (ih partner before after rfl).2 (attempt_eq_none hFailed hUnplayed) hRest

end Search

section Round

/-- With an even number of entrants nobody is left over. -/
theorem members_neighbours {ordered : List String} (h : ordered.length % 2 = 0) :
    members (neighbours ordered) = ordered := by
  induction ordered using neighbours.induct with
  | case1 first second rest ih =>
      have hRest : rest.length % 2 = 0 := by
        rw [List.length_cons, List.length_cons] at h
        omega
      rw [neighbours, members_cons, ih hRest]
  | case2 ordered hShort =>
      match ordered with
      | [] => rfl
      | [_] => cases h
      | first :: second :: rest => exact absurd rfl (hShort first second rest)

theorem length_members (pairs : List (String × String)) :
    (members pairs).length = 2 * pairs.length := by
  induction pairs with
  | nil => rfl
  | cons pair pairs ih =>
      rw [members_cons, List.length_cons, List.length_cons, List.length_cons, ih]
      omega

theorem swissPairs_eq_ok {active : List String} {prior : Finset EntrantPairing}
    {policy : SwissRematchPolicy} {pairs : List (String × String)}
    (h : swissPairs active prior policy = .ok pairs) (hEven : active.length % 2 = 0) :
    (members pairs).Perm active ∧
      (Pairable (Unplayed prior) active → Earliest (Unplayed prior) active pairs) := by
  obtain ⟨hSome, hNone⟩ := pairWithoutRematches_spec prior active
  unfold swissPairs at h
  split at h
  · rename_i found hFound
    cases h
    exact ⟨(hSome _ hFound).arranged.perm, fun _ => hSome _ hFound⟩
  · rename_i hFound
    refine ⟨?_, fun hPairable => absurd hPairable (hNone hFound)⟩
    split at h
    · cases h
      rw [members_neighbours hEven]
    · cases h

theorem swissPairs_eq_error {active : List String} {prior : Finset EntrantPairing}
    {policy : SwissRematchPolicy} {e : TournamentError} :
    swissPairs active prior policy = .error e ↔
      (policy = .avoid ∧ ¬ Pairable (Unplayed prior) active) ∧ e = .swissPairingUnavailable := by
  obtain ⟨hSome, hNone⟩ := pairWithoutRematches_spec prior active
  unfold swissPairs
  cases hFound : pairWithoutRematches prior active with
  | some pairs => simp [(hSome pairs hFound).pairable]
  | none => cases policy <;> simp [hNone hFound, eq_comm]

/-- The bye goes to the last entrant without an earlier one, or to the last of all. -/
theorem chooseSwissBye_odd {ordered : List String} (priorByes : Finset String)
    (h : ordered.length % 2 ≠ 0) : ∃ before entrant after, ordered = before ++ entrant :: after ∧
      chooseSwissBye ordered priorByes = (some entrant, before ++ after) ∧
      (∀ x ∈ after, x ∈ priorByes) ∧
      (entrant ∈ priorByes → after = [] ∧ ∀ x ∈ before, x ∈ priorByes) := by
  have hAt (before : List String) (entrant : String) (after : List String) :
      ((before ++ entrant :: after)[before.length]?,
        (before ++ entrant :: after).eraseIdx before.length) = (some entrant, before ++ after) := by
    simp [List.eraseIdx_append_of_length_le]
  rw [chooseSwissBye, if_neg h]
  simp only
  cases hFind : (List.range ordered.length).reverse.find? fun i =>
      ordered[i]?.any fun entrant => decide (entrant ∉ priorByes) with
  | some i =>
      obtain ⟨hHere, above, below, hRange, hAbove⟩ := List.find?_eq_some_iff_append.mp hFind
      have hIndex : i < ordered.length := by
        rw [← List.mem_range, ← List.mem_reverse, hRange]
        exact List.mem_append_right _ List.mem_cons_self
      obtain ⟨before, entrant, after, rfl, rfl⟩ := split_at hIndex
      have hFree : entrant ∉ priorByes := by simpa using hHere
      refine ⟨before, entrant, after, rfl, hAt before entrant after, fun x hx => ?_,
        fun hPrior => absurd hPrior hFree⟩
      obtain ⟨k, hk, rfl⟩ := List.mem_iff_getElem.mp hx
      -- Places further down were looked at before this one.
      have hLooked : before.length + 1 + k ∈ above := by
        have hMem : before.length + 1 + k ∈ above ++ before.length :: below := by
          rw [← hRange, List.mem_reverse, List.mem_range, List.length_append, List.length_cons]
          omega
        have hSorted : (above ++ before.length :: below).Pairwise fun a b => b < a := by
          rw [← hRange, List.pairwise_reverse]
          exact List.pairwise_lt_range
        rw [List.pairwise_append, List.pairwise_cons] at hSorted
        rw [List.mem_append, List.mem_cons] at hMem
        rcases hMem with hIn | hEq | hIn
        · exact hIn
        · omega
        · have hBelow := hSorted.2.1.1 _ hIn
          omega
      have hPlace : (before ++ entrant :: after)[before.length + 1 + k]? = some after[k] := by
        rw [List.getElem?_append_right (by omega)]
        have hOffset : before.length + 1 + k - before.length = k + 1 := by omega
        rw [hOffset, List.getElem?_cons_succ, List.getElem?_eq_getElem hk]
      simpa [hPlace] using hAbove _ hLooked
  | none =>
      have hAll (x : String) (hx : x ∈ ordered) : x ∈ priorByes := by
        obtain ⟨i, hi, rfl⟩ := List.mem_iff_getElem.mp hx
        simpa [List.getElem?_eq_getElem hi] using List.find?_eq_none.mp hFind i (by simpa using hi)
      have hSome : ordered.length - 1 < ordered.length := by omega
      obtain ⟨before, entrant, after, rfl, hLast⟩ := split_at hSome
      obtain rfl : after = [] := by
        rw [List.length_append, List.length_cons] at hLast
        exact List.eq_nil_of_length_eq_zero (by omega)
      refine ⟨before, entrant, [], rfl, ?_, fun _ h => absurd h List.not_mem_nil, fun _ => ⟨rfl, ?_⟩⟩
      · rw [Option.getD_none, ← hLast]
        exact hAt before entrant []
      · exact fun x hx => hAll x (List.mem_append_left _ hx)

end Round

section Standings

theorem standingOrder_total (spec : TournamentSpec) (a b : SwissStanding) :
    standingOrder spec a b = true ∨ standingOrder spec b a = true := by
  have hId := le_total a.entrantId b.entrantId
  unfold standingOrder
  grind

theorem standingOrder_trans (spec : TournamentSpec) {a b c : SwissStanding}
    (h : standingOrder spec a b = true) (h' : standingOrder spec b c = true) :
    standingOrder spec a c = true := by
  have hId := @le_trans _ _ a.entrantId b.entrantId c.entrantId
  unfold standingOrder at *
  grind

/-- The entrants are listed in the order of their standings. -/
theorem orderedSwissEntrants_sorted (spec : TournamentSpec) (progress : SwissProgress) :
    ∃ ranked : List SwissStanding, ranked.Perm progress.standings ∧
      (ranked.Pairwise fun a b => standingOrder spec a b = true) ∧
      ranked.map (·.entrantId) = orderedSwissEntrants spec progress := by
  have hTotal : Std.Total fun a b => standingOrder spec a b = true := ⟨standingOrder_total spec⟩
  have hTrans : IsTrans SwissStanding fun a b => standingOrder spec a b = true :=
    ⟨fun _ _ _ => standingOrder_trans spec⟩
  exact ⟨_, List.perm_insertionSort _ _, List.pairwise_insertionSort _ _, rfl⟩

theorem orderedSwissEntrants_perm {spec : TournamentSpec} {progress : SwissProgress} {rounds : Nat}
    (hSpec : spec.Valid) (h : validateSwissProgress spec progress rounds = .ok ()) :
    (orderedSwissEntrants spec progress).Perm (spec.entrants.map (·.entrantId)) := by
  obtain ⟨_, -, h⟩ := bind_eq_ok.mp h
  have hGuard := reject_eq_ok.mp h
  simp only [not_or, not_not] at hGuard
  obtain ⟨hSame, hCard⟩ := hGuard
  have hNodup : (progress.standings.map (·.entrantId)).Nodup := by
    rw [← Multiset.coe_nodup, ← Multiset.toFinset_card_eq_card_iff_nodup]
    simpa using hCard
  have hPerm := List.perm_of_nodup_nodup_toFinset_eq hNodup hSpec.distinctIds hSame
  exact ((List.perm_insertionSort _ _).map _).trans hPerm

/-- Positions in a list without repetitions grow along the list. -/
theorem ranked_idxOf {ordered : List String} (h : ordered.Nodup) : Ranked ordered.idxOf ordered := by
  refine List.pairwise_iff_getElem.mpr fun i j hi hj hLess => ?_
  change ordered.idxOf ordered[i] < ordered.idxOf ordered[j]
  rwa [h.idxOf_getElem, h.idxOf_getElem]

end Standings

section Failures

variable {plan : SeriesPlan} {b : ScheduleBuilder} {balance : SeatCounts}

/-- Laying out a round never reports that a pairing is missing. -/
theorem addRound_ne_unavailable {roundNumber : Nat} {round : RoundPairings}
    {respectPairOrder : Bool} : Avoids (· = TournamentError.swissPairingUnavailable)
      (b.addRound roundNumber round balance respectPairOrder) := by
  have hFit16 (n : Nat) : Avoids (· = TournamentError.swissPairingUnavailable) (fitU16 n) := by
    intro e he
    unfold fitU16 at he
    split at he <;> cases he
    nofun
  have hFit64 (n : Nat) : Avoids (· = TournamentError.swissPairingUnavailable) (fitU64 n) := by
    intro e he
    unfold fitU64 at he
    split at he <;> cases he
    nofun
  refine avoids_foldlM fun acc entry _ => (hFit16 _).bind fun _ _ => ?_
  refine Avoids.bind (avoids_foldlM fun acc i _ => ?_) fun _ _ => avoids_pure _
  refine (hFit16 _).bind fun _ _ => ?_
  refine (avoids_okOr nofun).bind fun _ _ => (hFit64 _).bind fun _ _ => ?_
  exact (hFit64 _).bind fun _ _ => avoids_pure _

/-- With seeds and numbers left, all games of a series are added. -/
theorem addGames_succeeds {count : Nat} (hCount : count < 2 ^ 16)
    (hSeeds : b.seedIndex + count ≤ b.spec.gameSeedCommitments.length)
    (hIndex : b.spec.gameSeedCommitments.length < 2 ^ 64)
    (hSequence : b.nextSequence + count < 2 ^ 64) :
    ∃ added, (List.range count).foldlM (ScheduleBuilder.addGame plan) (b, balance, []) =
      .ok added := by
  induction count with
  | zero => exact ⟨_, rfl⟩
  | succ count ih =>
      obtain ⟨⟨middle, seats, ids⟩, hBefore⟩ := ih (by omega) (by omega) (by omega)
      obtain ⟨-, -, rfl⟩ := addGames_eq_ok hBefore
      have hSeed : b.seedIndex + count < b.spec.gameSeedCommitments.length := by omega
      rw [List.range_succ, List.foldlM_append, hBefore, ok_bind, List.foldlM_cons]
      simp only [ScheduleBuilder.addGame, fitU16, fitU64, List.getElem?_eq_getElem hSeed, okOr]
      rw [if_pos (by omega), if_pos (by omega), if_pos (by omega)]
      exact ⟨_, rfl⟩

theorem addTables_succeeds {roundNumber : Nat} {respectPairOrder : Bool}
    {seats : List ((String × String) × Nat)} (hTables : ∀ seat ∈ seats, seat.2 + 1 < 2 ^ 16)
    (hGames : b.spec.format.gamesPerSeries < 2 ^ 16)
    (hSeeds : b.seedIndex + seats.length * b.spec.format.gamesPerSeries ≤
      b.spec.gameSeedCommitments.length)
    (hIndex : b.spec.gameSeedCommitments.length < 2 ^ 64)
    (hSequence : b.nextSequence + seats.length * b.spec.format.gamesPerSeries < 2 ^ 64) :
    ∃ added, seats.foldlM (ScheduleBuilder.addTable roundNumber respectPairOrder) (b, balance) =
      .ok added := by
  induction seats generalizing b balance with
  | nil => exact ⟨_, rfl⟩
  | cons seat seats ih =>
      rw [List.forall_mem_cons] at hTables
      rw [List.length_cons, Nat.succ_mul] at hSeeds hSequence
      obtain ⟨⟨middle, counts⟩, hHead⟩ : ∃ added, ScheduleBuilder.addTable roundNumber
          respectPairOrder (b, balance) seat = .ok added := by
        obtain ⟨⟨played, counts, ids⟩, hPlayed⟩ := @addGames_succeeds
          (b.plan roundNumber (seat.2 + 1) seat.1.1 seat.1.2 balance respectPairOrder) b balance _
          hGames (by omega) hIndex (by omega)
        rw [ScheduleBuilder.addTable, fitU16, if_pos hTables.1, ok_bind,
          ScheduleBuilder.addSeries, hPlayed, ok_bind]
        exact ⟨_, rfl⟩
      obtain ⟨_, hFit, hSeries⟩ := bind_eq_ok.mp hHead
      have hAdds : Adds b _ [] middle := addSeries_adds hSeries
      have hIndexNext := hAdds.seedIndex
      have hSequenceNext := hAdds.nextSequence
      rw [List.length_singleton, Nat.one_mul] at hIndexNext hSequenceNext
      rw [List.foldlM_cons, hHead, ok_bind]
      refine ih hTables.2 ?_ ?_ ?_ ?_ <;> rw [hAdds.spec]
      · exact hGames
      · omega
      · exact hIndex
      · omega

end Failures

section Outcome

/-- The bye and the entrants left to be paired, in the order of the standings: an odd
number of entrants leaves out the lowest one without an earlier bye, or the lowest. -/
structure Rests (priorByes : Finset String) (ordered : List String) (bye : Option String)
    (active : List String) : Prop where
  even : ordered.length % 2 = 0 → bye = none ∧ active = ordered
  odd : ordered.length % 2 ≠ 0 → ∃ before entrant after,
    ordered = before ++ entrant :: after ∧ bye = some entrant ∧ active = before ++ after ∧
      (∀ x ∈ after, x ∈ priorByes) ∧
      (entrant ∈ priorByes → after = [] ∧ ∀ x ∈ before, x ∈ priorByes)

/-- The pairs of a schedule in the order of its tables. -/
def TournamentSchedule.tables (schedule : TournamentSchedule) : List (String × String) :=
  schedule.series.map fun s => (s.entrantA, s.entrantB)

/-- A schedule for the entrants at rest and in play. -/
structure SwissRound (spec : TournamentSpec) (progress : SwissProgress) (ordered : List String)
    (bye : Option String) (active : List String) (schedule : TournamentSchedule) : Prop where
  round : ∀ s ∈ schedule.series, s.roundNumber = progress.completedRounds + 1
  byes : schedule.byes = bye.toList.map fun entrant => ⟨progress.completedRounds + 1, entrant⟩
  once : (members schedule.tables ++ bye.toList).Perm (spec.entrants.map (·.entrantId))
  distinct : (members schedule.tables ++ bye.toList).Nodup
  fresh : Pairable (Unplayed progress.priorPairings) active →
    Fits (Unplayed progress.priorPairings) schedule.tables
  earliest : Pairable (Unplayed progress.priorPairings) active →
    Earliest (Unplayed progress.priorPairings) active schedule.tables
  first : Pairable (Unplayed progress.priorPairings) active → ∀ others,
    Arranged active others → Fits (Unplayed progress.priorPairings) others →
    schedule.tables.map (fun pair => ordered.idxOf pair.2) =
        others.map (fun pair => ordered.idxOf pair.2) ∨
      List.Lex (· < ·) (schedule.tables.map fun pair => ordered.idxOf pair.2)
        (others.map fun pair => ordered.idxOf pair.2)

/-- Seeds, sequence numbers and machine words suffice for one more round. -/
structure Ample (spec : TournamentSpec) (progress : SwissProgress) : Prop where
  rounds : progress.completedRounds + 1 < 2 ^ 16
  games : spec.format.gamesPerSeries < 2 ^ 16
  entrants : spec.entrants.length ≤ 2 ^ 16
  seeds : progress.nextSeedIndex +
      spec.entrants.length / 2 * spec.format.gamesPerSeries ≤ spec.gameSeedCommitments.length
  index : spec.gameSeedCommitments.length < 2 ^ 64
  sequence : progress.nextMatchSequence +
      spec.entrants.length / 2 * spec.format.gamesPerSeries < 2 ^ 64

theorem chooseSwissBye_rests (ordered : List String) (priorByes : Finset String) :
    Rests priorByes ordered (chooseSwissBye ordered priorByes).1
      (chooseSwissBye ordered priorByes).2 := by
  constructor
  · intro hEven
    rw [chooseSwissBye, if_pos hEven]
    exact ⟨rfl, rfl⟩
  · intro hOdd
    obtain ⟨before, entrant, after, hSplit, hChosen, hAfter, hPrior⟩ :=
      chooseSwissBye_odd priorByes hOdd
    rw [hChosen]
    exact ⟨before, entrant, after, hSplit, rfl, rfl, hAfter, hPrior⟩

variable {priorByes : Finset String} {ordered active : List String} {bye : Option String}

theorem Rests.perm (h : Rests priorByes ordered bye active) :
    (active ++ bye.toList).Perm ordered := by
  by_cases hEven : ordered.length % 2 = 0
  · obtain ⟨rfl, rfl⟩ := h.even hEven
    rw [Option.toList_none, List.append_nil]
  · obtain ⟨before, entrant, after, rfl, rfl, rfl, -⟩ := h.odd hEven
    rw [Option.toList_some, List.append_assoc]
    exact List.perm_append_comm.append_left before

theorem Rests.even_length (h : Rests priorByes ordered bye active) :
    active.length % 2 = 0 ∧ active.length = ordered.length / 2 * 2 := by
  by_cases hEven : ordered.length % 2 = 0
  · obtain ⟨-, rfl⟩ := h.even hEven
    omega
  · obtain ⟨before, entrant, after, rfl, -, rfl, -⟩ := h.odd hEven
    simp only [List.length_append, List.length_cons] at hEven ⊢
    omega

theorem Rests.sublist (h : Rests priorByes ordered bye active) : active.Sublist ordered := by
  by_cases hEven : ordered.length % 2 = 0
  · obtain ⟨-, rfl⟩ := h.even hEven
    exact .refl _
  · obtain ⟨before, entrant, after, rfl, -, rfl, -⟩ := h.odd hEven
    exact (List.sublist_cons_self _ _).append_left _

/-- The tables of a round are its pairs. -/
theorem tables_of_at {b : ScheduleBuilder} {roundNumber : Nat} (games : Nat) {respectPairOrder : Bool}
    {seats : List ((String × String) × Nat)} {entries : List SeriesEntry}
    (h : List.Forall₂ (SeriesEntry.At b roundNumber respectPairOrder) seats entries) :
    (entries.map (·.toSeries games)).map (fun s => (s.entrantA, s.entrantB)) =
        seats.map Prod.fst ∧
      ∀ s ∈ entries.map (·.toSeries games), s.roundNumber = roundNumber := by
  induction h with
  | nil => exact ⟨rfl, fun _ h => absurd h List.not_mem_nil⟩
  | @cons seat entry seats entries hAt _ ih =>
      rw [List.map_cons, List.map_cons, List.map_cons, ih.1, List.forall_mem_cons]
      refine ⟨congrArg (· :: _) ?_, hAt.round, ih.2⟩
      exact Prod.ext hAt.first hAt.second

end Outcome

section Exact

variable {platform : Platform} {spec : TournamentSpec} {progress : SwissProgress}
  {rounds games : Nat} {rematches : SwissRematchPolicy}

/-- The next Swiss round after its entrants are ordered and the bye is taken out. -/
def swissRoundOf (platform : Platform) (spec : TournamentSpec) (progress : SwissProgress)
    (bye : Option String) (pairs : List (String × String)) :
    Except TournamentError TournamentSchedule := do
  let roundNumber ← fitU16 (progress.completedRounds + 1)
  let builder ← ScheduleBuilder.new platform spec progress.nextSeedIndex
    progress.nextMatchSequence
  let (builder, _) ← builder.addRound roundNumber ⟨pairs, bye⟩
    (recordedBalance progress.seatBalance) false
  builder.finish false

theorem scheduleSwissRound_eq (platform : Platform) (hSpec : spec.Valid)
    (hFormat : spec.format = .swiss rounds games rematches)
    (hProgress : validateSwissProgress spec progress rounds = .ok ()) :
    spec.scheduleSwissRound platform progress =
      (swissPairs (chooseSwissBye (orderedSwissEntrants spec progress) progress.priorByes).2
          progress.priorPairings rematches >>= swissRoundOf platform spec progress
        (chooseSwissBye (orderedSwissEntrants spec progress) progress.priorByes).1) := by
  have hValidate : spec.validate = .ok () := TournamentSpec.validate_eq_ok.mpr hSpec
  rw [TournamentSpec.scheduleSwissRound, hValidate, ok_bind, hFormat]
  simp only [hProgress, ok_bind]
  rfl

theorem swissRoundOf_ne_unavailable {bye : Option String} {pairs : List (String × String)} :
    Avoids (· = TournamentError.swissPairingUnavailable)
      (swissRoundOf platform spec progress bye pairs) := by
  have hFit (n : Nat) : Avoids (· = TournamentError.swissPairingUnavailable) (fitU16 n) := by
    intro e he
    unfold fitU16 at he
    split at he <;> cases he
    nofun
  have hValidate : Avoids (· = TournamentError.swissPairingUnavailable) spec.validate :=
    (avoids_reject nofun).bind fun _ _ => (avoids_reject nofun).bind fun _ _ => avoids_reject nofun
  refine (hFit _).bind fun _ _ => Avoids.bind ?_ fun _ _ => ?_
  · exact (hValidate.bind fun _ _ => avoids_pure _).bind fun _ _ =>
      (hFit _).bind fun _ _ => avoids_pure _
  · exact addRound_ne_unavailable.bind fun _ _ => (avoids_reject nofun).bind fun _ _ => avoids_pure _

theorem swissRoundOf_eq_ok {bye : Option String} {pairs : List (String × String)}
    {schedule : TournamentSchedule}
    (h : swissRoundOf platform spec progress bye pairs = .ok schedule) :
    schedule.tables = pairs ∧
      (∀ s ∈ schedule.series, s.roundNumber = progress.completedRounds + 1) ∧
      schedule.byes = bye.toList.map fun entrant => ⟨progress.completedRounds + 1, entrant⟩ := by
  simp only [swissRoundOf, bind_eq_ok, fitU16_eq_ok, ScheduleBuilder.finish, reject_eq_ok,
    pure_eq_ok] at h
  obtain ⟨_, ⟨-, rfl⟩, start, hStart, ⟨built, _⟩, hBuilt, _, -, rfl⟩ := h
  obtain ⟨-, -, -, -, -, hSeries, -, hByes, -⟩ := new_eq_ok hStart
  obtain ⟨entries, hAdds, hAll⟩ := addRound_adds hBuilt
  obtain ⟨hTables, hRound⟩ := tables_of_at start.spec.format.gamesPerSeries hAll
  have hLaid : built.series = entries.map (·.toSeries start.spec.format.gamesPerSeries) := by
    rw [hAdds.series, hSeries, List.nil_append]
  refine ⟨?_, ?_, ?_⟩
  · change built.series.map _ = pairs
    rw [hLaid, hTables]
    exact List.zipIdx_map_fst 0 pairs
  · change ∀ s ∈ built.series, _
    rw [hLaid]
    exact hRound
  · change built.byes = _
    rw [hAdds.byes, hByes, List.nil_append]

theorem swissRoundOf_succeeds {bye : Option String} {pairs : List (String × String)}
    (hSpec : spec.Valid) (hAmple : Ample spec progress)
    (hPairs : pairs.length = spec.entrants.length / 2) :
    ∃ schedule, swissRoundOf platform spec progress bye pairs = .ok schedule := by
  have hValidate : spec.validate = .ok () := TournamentSpec.validate_eq_ok.mpr hSpec
  have hCount := hAmple.entrants
  obtain ⟨start, hStart⟩ : ∃ start, ScheduleBuilder.new platform spec progress.nextSeedIndex
      progress.nextMatchSequence = .ok start := by
    simp only [ScheduleBuilder.new, TournamentSpec.formatIdentity, hValidate, ok_bind, fitU16,
      TournamentSpec.length_orderedEntrantIds]
    rw [if_pos (by split <;> omega)]
    exact ⟨_, rfl⟩
  obtain ⟨-, hOf, -, hIndex, hSequence, -⟩ := new_eq_ok hStart
  obtain ⟨⟨built, counts⟩, hBuilt⟩ : ∃ added, start.addRound (progress.completedRounds + 1)
      ⟨pairs, bye⟩ (recordedBalance progress.seatBalance) false = .ok added := by
    refine addTables_succeeds (fun seat hSeat => ?_) ?_ ?_ ?_ ?_
    · have hTable := List.snd_lt_of_mem_zipIdx hSeat
      rw [Nat.add_zero, hPairs] at hTable
      omega
    · rw [hOf]
      exact hAmple.games
    · rw [List.length_zipIdx, hPairs, hOf, hIndex]
      exact hAmple.seeds
    · rw [hOf]
      exact hAmple.index
    · rw [List.length_zipIdx, hPairs, hOf, hSequence]
      exact hAmple.sequence
  rw [swissRoundOf, fitU16, if_pos hAmple.rounds, ok_bind, hStart, ok_bind, hBuilt, ok_bind]
  exact ⟨_, rfl⟩

/-- The Swiss pairing search is sound and complete. -/
theorem swiss_round_exact (platform : Platform) (hSpec : spec.Valid)
    (hFormat : spec.format = .swiss rounds games rematches)
    (hProgress : validateSwissProgress spec progress rounds = .ok ()) :
    ∃ (ranked : List SwissStanding) (bye : Option String) (active : List String),
      (ranked.Perm progress.standings ∧
        ranked.Pairwise fun a b => standingOrder spec a b = true) ∧
      Rests progress.priorByes (ranked.map (·.entrantId)) bye active ∧
      (spec.scheduleSwissRound platform progress = .error .swissPairingUnavailable ↔
        rematches = .avoid ∧ ¬ Pairable (Unplayed progress.priorPairings) active) ∧
      (∀ schedule, spec.scheduleSwissRound platform progress = .ok schedule →
        SwissRound spec progress (ranked.map (·.entrantId)) bye active schedule) ∧
      (Ample spec progress →
        rematches = .allowWhenRequired ∨ Pairable (Unplayed progress.priorPairings) active →
        ∃ schedule, spec.scheduleSwissRound platform progress = .ok schedule) := by
  obtain ⟨ranked, hRanked, hSorted, hOrdered⟩ := orderedSwissEntrants_sorted spec progress
  have hPerm := orderedSwissEntrants_perm hSpec hProgress
  have hRests := chooseSwissBye_rests (orderedSwissEntrants spec progress) progress.priorByes
  have hRun := scheduleSwissRound_eq platform hSpec hFormat hProgress
  rw [← hOrdered] at hRests
  refine ⟨ranked, _, _, ⟨hRanked, hSorted⟩, hRests, ?_, ?_, ?_⟩ <;> rw [hOrdered] at hRests ⊢
  · rw [hRun, bind_eq_error]
    constructor
    · rintro (hPairs | ⟨pairs, -, hLater⟩)
      · exact (swissPairs_eq_error.mp hPairs).1
      · exact absurd rfl (swissRoundOf_ne_unavailable _ hLater)
    · exact fun hNone => .inl (swissPairs_eq_error.mpr ⟨hNone, rfl⟩)
  · intro schedule hSchedule
    rw [hRun] at hSchedule
    obtain ⟨pairs, hPairs, hLaid⟩ := bind_eq_ok.mp hSchedule
    obtain ⟨hTables, hRound, hByes⟩ := swissRoundOf_eq_ok hLaid
    obtain ⟨hMembers, hEarliest⟩ := swissPairs_eq_ok hPairs hRests.even_length.1
    have hOnce := ((hMembers.append_right _).trans hRests.perm).trans hPerm
    have hDistinct := hPerm.nodup_iff.mpr hSpec.distinctIds
    rw [← hTables] at hOnce hEarliest
    refine ⟨hRound, hByes, hOnce, hOnce.nodup_iff.mpr hSpec.distinctIds,
      fun hPairable => (hEarliest hPairable).fits, hEarliest, fun hPairable others hOthers hFits => ?_⟩
    exact (hEarliest hPairable).first ((ranked_idxOf hDistinct).sublist hRests.sublist) hOthers hFits
  · intro hAmple hPossible
    rw [hRun]
    obtain ⟨pairs, hPairs⟩ : ∃ pairs, swissPairs
        (chooseSwissBye (orderedSwissEntrants spec progress) progress.priorByes).2
        progress.priorPairings rematches = .ok pairs := by
      rcases ok_or_error (swissPairs
        (chooseSwissBye (orderedSwissEntrants spec progress) progress.priorByes).2
        progress.priorPairings rematches) with hOk | ⟨e, hError⟩
      · exact hOk
      · obtain ⟨⟨rfl, hNone⟩, -⟩ := swissPairs_eq_error.mp hError
        rcases hPossible with hAllowed | hPairable
        · cases hAllowed
        · exact absurd hPairable hNone
    rw [hPairs, ok_bind]
    refine swissRoundOf_succeeds hSpec hAmple ?_
    have hMembers := (swissPairs_eq_ok hPairs hRests.even_length.1).1.length_eq
    have hActive := hRests.even_length.2
    have hAll := hPerm.length_eq
    rw [length_members] at hMembers
    rw [List.length_map] at hAll
    omega

/-- Five entrants after one round, in which the lowest had the bye. -/
def demoSwiss : TournamentSpec :=
  ⟨formatSchemaVersion, "swiss", .swiss 2 1 .allowWhenRequired,
    [⟨"a", 1, none⟩, ⟨"b", 2, none⟩, ⟨"c", 3, none⟩, ⟨"d", 4, none⟩, ⟨"e", 5, none⟩],
    [demoProfile "en"], List.replicate 4 demoDigest⟩

def demoSwissProgress : SwissProgress :=
  ⟨1, [⟨"a", 2, 30, 1⟩, ⟨"b", 2, 10, 1⟩, ⟨"c", 0, -10, 0⟩, ⟨"d", 0, -30, 0⟩, ⟨"e", 2, 0, 0⟩],
    {⟨"a", "c"⟩, ⟨"b", "d"⟩}, {"e"}, [], 2, 2⟩

theorem demoSwiss_valid : demoSwiss.validate = .ok () := by decide +kernel

theorem demoSwissProgress_valid :
    validateSwissProgress demoSwiss demoSwissProgress 2 = .ok () := by decide +kernel

theorem demoSwiss_round_exact :
    ∃ (ranked : List SwissStanding) (bye : Option String) (active : List String) (schedule : TournamentSchedule),
      Rests demoSwissProgress.priorByes (ranked.map (·.entrantId)) bye active ∧
        demoSwiss.scheduleSwissRound basicPlatform demoSwissProgress = .ok schedule ∧
        SwissRound demoSwiss demoSwissProgress (ranked.map (·.entrantId)) bye active schedule := by
  obtain ⟨ranked, bye, active, -, hRests, -, hRound, hSome⟩ :=
    swiss_round_exact basicPlatform
      (TournamentSpec.validate_eq_ok.mp demoSwiss_valid) rfl demoSwissProgress_valid
  obtain ⟨schedule, hSchedule⟩ := hSome
    ⟨by decide, by decide, by decide, by decide, by decide, by decide⟩ (.inl rfl)
  exact ⟨ranked, bye, active, schedule, hRests, hSchedule, hRound schedule hSchedule⟩

end Exact

end WordArena.Tournament
