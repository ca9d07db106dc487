import WordArena.Library.Table
import WordArena.Engine.Fresh
import WordArena.Tournament.Static

/-! Static schedules cover every pairing. Within a cycle every two entrants have
one series, within a round every entrant has one table or the bye, and names,
sequence numbers and seeds are used once and in order. -/
namespace WordArena.Tournament

open Fallible WordArena.Engine WordArena.Lexicon

def ScheduledSeries.between (s : ScheduledSeries) (x y : String) : Bool :=
  (s.entrantA == x && s.entrantB == y) || (s.entrantA == y && s.entrantB == x)

def ScheduledSeries.seats (s : ScheduledSeries) (x : String) : Bool :=
  s.entrantA == x || s.entrantB == x

/-- The cycle a round belongs to. -/
def cycleOf (entrantCount roundNumber : Nat) : Nat :=
  (roundNumber - 1) / roundsPerCycle entrantCount

/-- A schedule of a number of cycles that treats every pairing alike. -/
structure Covers (spec : TournamentSpec) (cycles : Nat) (schedule : TournamentSchedule) :
    Prop where
  oncePerCycle : ∀ cycle < cycles, ∀ x ∈ spec.entrants.map (·.entrantId),
    ∀ y ∈ spec.entrants.map (·.entrantId), x ≠ y →
      schedule.series.countP (fun s =>
        cycleOf spec.entrants.length s.roundNumber == cycle && s.between x y) = 1
  oncePerRound : ∀ roundNumber, 1 ≤ roundNumber →
    roundNumber ≤ cycles * roundsPerCycle spec.entrants.length →
    ∀ x ∈ spec.entrants.map (·.entrantId),
      schedule.series.countP (fun s => s.roundNumber == roundNumber && s.seats x) +
        schedule.byes.countP (fun bye =>
          bye.roundNumber == roundNumber && bye.entrantId == x) = 1
  oddByes : spec.entrants.length % 2 = 1 → ∀ cycle < cycles,
    ∀ x ∈ spec.entrants.map (·.entrantId),
      schedule.byes.countP (fun bye =>
        cycleOf spec.entrants.length bye.roundNumber == cycle && bye.entrantId == x) = 1
  evenByes : spec.entrants.length % 2 = 0 → schedule.byes = []
  series : ∀ s ∈ schedule.series, 1 ≤ s.roundNumber ∧
    s.roundNumber ≤ cycles * roundsPerCycle spec.entrants.length ∧ s.entrantA ≠ s.entrantB ∧
    s.entrantA ∈ spec.entrants.map (·.entrantId) ∧ s.entrantB ∈ spec.entrants.map (·.entrantId)
  distinctNames : (schedule.series.map (·.seriesId) ++
    schedule.scheduledMatches.map (·.matchId)).Nodup
  sequences : schedule.scheduledMatches.map (·.sequence) =
    List.range schedule.scheduledMatches.length
  seeds : schedule.scheduledMatches.map (·.gameSeedCommitmentSha256) = spec.gameSeedCommitments

section Lists

universe u

variable {β : Type u}

/-- A selection that only one index of a range can pass. -/
theorem filter_flatMap_range {g : Nat → List β} {p : β → Bool} {index count : Nat}
    (hIndex : index < count) (hOther : ∀ i, i ≠ index → ∀ a ∈ g i, p a = false) :
    ((List.range count).flatMap g).filter p = (g index).filter p := by
  have hNone : ∀ i, i ≠ index → (g i).filter p = [] := by
    intro i hi
    rw [List.filter_eq_nil_iff]
    intro a ha
    rw [hOther i hi a ha]
    exact Bool.false_ne_true
  have hSmall : ∀ n, n ≤ index → ((List.range n).flatMap g).filter p = [] := by
    intro n hn
    rw [List.filter_flatMap, List.flatMap_eq_nil_iff]
    intro i hi
    exact hNone i (by have := List.mem_range.mp hi; omega)
  induction count with
  | zero => omega
  | succ count ih =>
      rw [List.range_succ, List.flatMap_append, List.filter_append, List.flatMap_singleton]
      by_cases h : index = count
      · rw [hSmall count (by omega), h, List.nil_append]
      · rw [ih (by omega), hNone count (by omega), List.append_nil]

end Lists

section Counting

theorem countP_between {x y : String} (hNe : x ≠ y) (pairs : List (String × String)) :
    pairs.countP (fun p => (p.1 == x && p.2 == y) || (p.1 == y && p.2 == x)) =
      (Circle.opponents x pairs).count y := by
  induction pairs with
  | nil => rfl
  | cons pair pairs ih =>
      rw [List.countP_cons, ih, Circle.opponents_cons, List.count_append, Nat.add_comm]
      congr 1
      by_cases hx : pair.1 = x <;> by_cases hx' : pair.2 = x <;>
        simp [hx, hx', hNe, List.count_singleton, beq_iff_eq]

theorem countP_seats {pairs : List (String × String)} (hNe : ∀ p ∈ pairs, p.1 ≠ p.2)
    (x : String) : pairs.countP (fun p => p.1 == x || p.2 == x) =
      (Circle.sides pairs).count x := by
  induction pairs with
  | nil => rfl
  | cons pair pairs ih =>
      rw [List.forall_mem_cons] at hNe
      rw [List.countP_cons, ih hNe.2, Circle.sides_cons, List.count_cons, List.count_cons]
      have hPair := hNe.1
      by_cases hx : pair.1 = x <;> by_cases hx' : pair.2 = x <;> simp [hx, hx']
      exact absurd (hx.trans hx'.symm) hPair

end Counting

section Selections

variable {spec : TournamentSpec} {cycles : Nat}

theorem cycleOf_staticNumber {cycle r : Nat} (hr : r < roundsPerCycle spec.entrants.length) :
    cycleOf spec.entrants.length (staticNumber spec cycle r) = cycle := by
  rw [cycleOf, staticNumber, Nat.add_sub_cancel, Nat.mul_comm,
    Nat.mul_add_div (by omega), Nat.div_eq_of_lt hr, Nat.add_zero]

theorem mem_staticCycle {cycle : Nat} {round : Nat × RoundPairings} :
    round ∈ staticCycle spec cycle ↔ ∃ r < roundsPerCycle spec.entrants.length,
      (staticNumber spec cycle r, staticPairings spec cycle r) = round := by
  simp [staticCycle]

theorem mem_staticRounds {round : Nat × RoundPairings} :
    round ∈ staticRounds spec cycles ↔ ∃ cycle < cycles,
      ∃ r < roundsPerCycle spec.entrants.length,
        (staticNumber spec cycle r, staticPairings spec cycle r) = round := by
  simp [staticRounds, mem_staticCycle]

theorem filter_staticRounds_cycle {cycle : Nat} (hCycle : cycle < cycles) :
    (staticRounds spec cycles).filter
      (fun round => cycleOf spec.entrants.length round.1 == cycle) = staticCycle spec cycle := by
  rw [staticRounds, filter_flatMap_range hCycle, List.filter_eq_self]
  · intro round hRound
    obtain ⟨r, hr, rfl⟩ := mem_staticCycle.mp hRound
    rw [beq_iff_eq, cycleOf_staticNumber hr]
  · intro other hOther round hRound
    obtain ⟨r, hr, rfl⟩ := mem_staticCycle.mp hRound
    rw [beq_eq_false_iff_ne, cycleOf_staticNumber hr]
    exact hOther

theorem filter_staticRounds_number {cycle r : Nat} (hCycle : cycle < cycles)
    (hr : r < roundsPerCycle spec.entrants.length) :
    (staticRounds spec cycles).filter (fun round => round.1 == staticNumber spec cycle r) =
      [(staticNumber spec cycle r, staticPairings spec cycle r)] := by
  rw [staticRounds, filter_flatMap_range hCycle, staticCycle, List.map_eq_flatMap,
    filter_flatMap_range hr]
  · simp
  · intro other hOther round hRound
    rw [List.mem_singleton] at hRound
    rw [hRound, beq_eq_false_iff_ne, staticNumber, staticNumber]
    omega
  · intro other hOther round hRound
    obtain ⟨k, hk, rfl⟩ := mem_staticCycle.mp hRound
    rw [beq_eq_false_iff_ne]
    intro hSame
    have hCycles := congrArg (cycleOf spec.entrants.length) hSame
    rw [cycleOf_staticNumber hk, cycleOf_staticNumber hr] at hCycles
    exact hOther hCycles

theorem map_pair_roundEntries (round : Nat × RoundPairings) :
    (roundEntries spec round).map (fun entry => (entry.first, entry.second)) =
      round.2.pairs := by
  rw [roundEntries, List.map_map]
  exact List.zipIdx_map_fst 0 round.2.pairs

theorem map_pair_flatMap (spec : TournamentSpec) (rounds : List (Nat × RoundPairings)) :
    (rounds.flatMap (roundEntries spec)).map (fun entry => (entry.first, entry.second)) =
      rounds.flatMap (·.2.pairs) := by
  rw [List.map_flatMap]
  exact congrArg (rounds.flatMap ·) (funext map_pair_roundEntries)

theorem roundNumber_of_mem {round : Nat × RoundPairings} {entry : SeriesEntry}
    (h : entry ∈ roundEntries spec round) : entry.plan.roundNumber = round.1 := by
  obtain ⟨seat, -, rfl⟩ := List.mem_map.mp h
  rfl

theorem roundNumber_of_bye {round : Nat × RoundPairings} {bye : TournamentBye}
    (h : bye ∈ roundByes round) : bye.roundNumber = round.1 := by
  obtain ⟨entrant, -, rfl⟩ := List.mem_map.mp h
  rfl

/-- Series selected by their round and by their pair are counted on the tables of
the rounds selected. -/
theorem countP_series (spec : TournamentSpec) (cycles : Nat) (selected : Nat → Bool) (test : String × String → Bool) :
    ((staticEntries spec cycles).map (·.toSeries spec.format.gamesPerSeries)).countP
        (fun s => selected s.roundNumber && test (s.entrantA, s.entrantB)) =
      (((staticRounds spec cycles).filter (fun round => selected round.1)).flatMap
        (·.2.pairs)).countP test := by
  have hRounds : (staticEntries spec cycles).filter (fun e => selected e.plan.roundNumber) =
      ((staticRounds spec cycles).filter fun round => selected round.1).flatMap
        (roundEntries spec) :=
    Table.filter_flatMap_source fun round _ entry hEntry => by rw [roundNumber_of_mem hEntry]
  rw [← map_pair_flatMap spec, ← hRounds, List.countP_map, List.countP_map,
    List.countP_filter]
  refine List.countP_congr fun entry _ => ?_
  simp [SeriesEntry.toSeries, and_comm]

theorem countP_byes (spec : TournamentSpec) (cycles : Nat) (selected : Nat → Bool) (x : String) :
    (staticByes spec cycles).countP (fun bye => selected bye.roundNumber && bye.entrantId == x) =
      (((staticRounds spec cycles).filter (fun round => selected round.1)).flatMap
        (·.2.bye.toList)).count x := by
  have hRounds : (staticByes spec cycles).filter (fun bye => selected bye.roundNumber) =
      ((staticRounds spec cycles).filter fun round => selected round.1).flatMap roundByes :=
    Table.filter_flatMap_source fun round _ bye hBye => by rw [roundNumber_of_bye hBye]
  have hNames : ∀ rounds : List (Nat × RoundPairings),
      (rounds.flatMap roundByes).map (·.entrantId) = rounds.flatMap (·.2.bye.toList) := by
    intro rounds
    rw [List.map_flatMap]
    refine congrArg (rounds.flatMap ·) (funext fun round => ?_)
    rw [roundByes, List.map_map]
    exact List.map_id _
  rw [← hNames, ← hRounds, List.count, List.countP_map, List.countP_filter]
  exact List.countP_congr fun bye _ => by simp [and_comm]

end Selections

section Covers

variable {spec : TournamentSpec} {cycles : Nat}

theorem entrantIds_iff {x : String} :
    x ∈ spec.entrants.map (·.entrantId) ↔ x ∈ spec.orderedEntrantIds :=
  (TournamentSpec.orderedEntrantIds_perm spec).mem_iff.symm

/-- Every round number is that of one round of one cycle. -/
theorem exists_staticNumber {roundNumber : Nat} (hPositive : 1 ≤ roundNumber)
    (hBound : roundNumber ≤ cycles * roundsPerCycle spec.entrants.length) :
    ∃ cycle < cycles, ∃ r < roundsPerCycle spec.entrants.length,
      roundNumber = staticNumber spec cycle r := by
  have hRounds : 0 < roundsPerCycle spec.entrants.length := by
    rcases Nat.eq_zero_or_pos (roundsPerCycle spec.entrants.length) with h | h
    · rw [h] at hBound
      omega
    · exact h
  refine ⟨(roundNumber - 1) / roundsPerCycle spec.entrants.length, ?_,
    (roundNumber - 1) % roundsPerCycle spec.entrants.length, Nat.mod_lt _ hRounds, ?_⟩
  · rw [Nat.div_lt_iff_lt_mul hRounds]
    omega
  · rw [staticNumber, Nat.mul_comm, Nat.div_add_mod]
    omega

theorem staticNumber_le {cycle r : Nat} (hCycle : cycle < cycles)
    (hr : r < roundsPerCycle spec.entrants.length) :
    staticNumber spec cycle r ≤ cycles * roundsPerCycle spec.entrants.length := by
  have hNext := Nat.mul_le_mul_right (roundsPerCycle spec.entrants.length) hCycle
  rw [Nat.succ_mul] at hNext
  unfold staticNumber
  omega

/-- Nobody sits at a table alone, and only entrants do. -/
theorem staticPairings_sound (hValid : spec.Valid) {cycle r : Nat} {pair : String × String}
    (h : pair ∈ (staticPairings spec cycle r).pairs) :
    pair.1 ≠ pair.2 ∧ pair.1 ∈ spec.orderedEntrantIds ∧ pair.2 ∈ spec.orderedEntrantIds := by
  have hPerm := staticPairings_perm hValid cycle r
  have hSides := (List.nodup_append.mp
    (hPerm.nodup_iff.mpr hValid.nodup_orderedEntrantIds)).1
  have hMem : ∀ z ∈ [pair.1, pair.2], z ∈ spec.orderedEntrantIds := by
    intro z hz
    exact hPerm.mem_iff.mp (List.mem_append_left _ (List.mem_flatMap.mpr ⟨pair, h, hz⟩))
  refine ⟨?_, hMem _ List.mem_cons_self, hMem _ (List.mem_cons_of_mem _ List.mem_cons_self)⟩
  simpa using (List.nodup_flatMap.mp hSides).1 pair h

theorem static_oncePerCycle (hValid : spec.Valid) {cycle : Nat} (hCycle : cycle < cycles)
    {x y : String} (hx : x ∈ spec.orderedEntrantIds) (hy : y ∈ spec.orderedEntrantIds)
    (hNe : x ≠ y) :
    ((staticEntries spec cycles).map (·.toSeries spec.format.gamesPerSeries)).countP (fun s =>
      cycleOf spec.entrants.length s.roundNumber == cycle && s.between x y) = 1 := by
  refine (countP_series spec cycles (fun n => cycleOf spec.entrants.length n == cycle)
    (fun p => (p.1 == x && p.2 == y) || (p.1 == y && p.2 == x))).trans ?_
  rw [filter_staticRounds_cycle hCycle, countP_between hNe,
    ← List.count_cons_of_ne hNe, (opponents_staticCycle hValid cycle hx).count_eq]
  exact List.count_eq_one_of_mem hValid.nodup_orderedEntrantIds hy

theorem static_oncePerRound (hValid : spec.Valid) {cycle r : Nat} (hCycle : cycle < cycles)
    (hr : r < roundsPerCycle spec.entrants.length) {x : String}
    (hx : x ∈ spec.orderedEntrantIds) :
    ((staticEntries spec cycles).map (·.toSeries spec.format.gamesPerSeries)).countP (fun s =>
        s.roundNumber == staticNumber spec cycle r && s.seats x) +
      (staticByes spec cycles).countP (fun bye =>
        bye.roundNumber == staticNumber spec cycle r && bye.entrantId == x) = 1 := by
  have hSeries := countP_series spec cycles
    (fun n => n == staticNumber spec cycle r) fun p => p.1 == x || p.2 == x
  have hByes := countP_byes spec cycles
    (fun n => n == staticNumber spec cycle r) x
  rw [filter_staticRounds_number hCycle hr, List.flatMap_singleton] at hSeries hByes
  rw [countP_seats fun pair hPair => (staticPairings_sound hValid hPair).1] at hSeries
  rw [hByes, ← List.count_eq_one_of_mem hValid.nodup_orderedEntrantIds hx,
    ← (staticPairings_perm hValid cycle r).count_eq, List.count_append]
  exact congrArg (· + _) hSeries

theorem static_byes (hValid : spec.Valid) {cycle : Nat} (hCycle : cycle < cycles) {x : String}
    (hx : x ∈ spec.orderedEntrantIds) :
    (staticByes spec cycles).countP (fun bye =>
      cycleOf spec.entrants.length bye.roundNumber == cycle && bye.entrantId == x) =
      spec.entrants.length % 2 := by
  refine (countP_byes spec cycles (fun n => cycleOf spec.entrants.length n == cycle) x).trans ?_
  rw [filter_staticRounds_cycle hCycle, flatMap_byes_staticCycle,
    count_cycleByes hValid.nodup_orderedEntrantIds hx, TournamentSpec.length_orderedEntrantIds]

theorem static_evenByes (hValid : spec.Valid) (hEven : spec.entrants.length % 2 = 0) :
    staticByes spec cycles = [] := by
  rw [List.eq_nil_iff_forall_not_mem]
  intro bye hBye
  obtain ⟨round, hRound, hHere⟩ := List.mem_flatMap.mp hBye
  obtain ⟨cycle, hCycle, r, hr, rfl⟩ := mem_staticRounds.mp hRound
  have hNumber := roundNumber_of_bye hHere
  have hx : bye.entrantId ∈ spec.orderedEntrantIds := by
    obtain ⟨entrant, hEntrant, rfl⟩ := List.mem_map.mp hHere
    exact (staticPairings_perm hValid cycle r).mem_iff.mp (List.mem_append_right _ hEntrant)
  have hNone := static_byes hValid hCycle hx
  rw [hEven, List.countP_eq_zero] at hNone
  refine hNone bye hBye ?_
  rw [hNumber, cycleOf_staticNumber hr]
  simp

/-- A static schedule that is returned covers every pairing. -/
theorem schedule_covers {platform : Platform} {schedule : TournamentSchedule}
    (h : spec.schedule platform = .ok schedule) :
    ∃ cycles, spec.format.staticCycles = some cycles ∧ Covers spec cycles schedule := by
  obtain ⟨cycles, identity, hValid, hCycles, -, hSeeds, rfl⟩ := schedule_eq_ok h
  refine ⟨cycles, hCycles, ?_⟩
  constructor
  · intro cycle hCycle x hx y hy hNe
    exact static_oncePerCycle hValid hCycle (entrantIds_iff.mp hx) (entrantIds_iff.mp hy) hNe
  · intro roundNumber hPositive hBound x hx
    obtain ⟨cycle, hCycle, r, hr, rfl⟩ := exists_staticNumber hPositive hBound
    exact static_oncePerRound hValid hCycle hr (entrantIds_iff.mp hx)
  · intro hOdd cycle hCycle x hx
    rw [static_byes hValid hCycle (entrantIds_iff.mp hx), hOdd]
  · intro hEven
    exact static_evenByes hValid hEven
  · intro s hs
    obtain ⟨entry, hEntry, rfl⟩ := List.mem_map.mp hs
    obtain ⟨round, hRound, hHere⟩ := List.mem_flatMap.mp hEntry
    obtain ⟨cycle, hCycle, r, hr, rfl⟩ := mem_staticRounds.mp hRound
    have hNumber := roundNumber_of_mem hHere
    have hPair : (entry.first, entry.second) ∈ (staticPairings spec cycle r).pairs := by
      rw [← map_pair_roundEntries (staticNumber spec cycle r, staticPairings spec cycle r)]
      exact List.mem_map_of_mem hHere
    obtain ⟨hNe, hFirst, hSecond⟩ := staticPairings_sound hValid hPair
    refine ⟨?_, ?_, hNe, entrantIds_iff.mpr hFirst, entrantIds_iff.mpr hSecond⟩
    · change 1 ≤ entry.plan.roundNumber
      rw [hNumber]
      exact Nat.succ_pos _
    · change entry.plan.roundNumber ≤ _
      rw [hNumber]
      exact staticNumber_le hCycle hr
  · rw [List.map_map]
    exact nodup_names spec 0 0 (staticEntries_before cycles) (staticEntries_named cycles)
  · have hSequence := map_sequence_gamesFrom spec 0 0 (staticEntries spec cycles)
    have hLength := congrArg List.length hSequence
    rw [List.length_map, List.length_range'] at hLength
    rw [hSequence, hLength, List.range_eq_range']
  · have hTaken := map_seed_gamesFrom spec 0 0 (staticEntries spec cycles)
    rw [hSeeds, ← List.range_eq_range'] at hTaken
    rw [hTaken]
    refine List.ext_getElem (by simp) fun k hk hk' => ?_
    simp [hk']

end Covers

section Demonstration

def demoDigest : String := "0123456789abcdef0123456789abcdef0123456789abcdef0123456789abcdef"

def demoProfile (language : String) : TournamentGameProfile :=
  ⟨language, "classic", demoDigest,
    ⟨"pack", "1.0.0", 1, language, ⟨normalizationAlgorithm, 1, language⟩, demoDigest⟩⟩

/-- Three seeded entrants and two languages. -/
def demoSpec : TournamentSpec :=
  ⟨formatSchemaVersion, "cup", .pairedSeatSwap 1,
    [⟨"north", 2, none⟩, ⟨"south", 1, none⟩, ⟨"west", 3, none⟩],
    [demoProfile "en", demoProfile "fr"], List.replicate 6 demoDigest⟩

def demoScheduled :
    { scheduled : Bool // (demoSpec.schedule basicPlatform).toOption.isSome = scheduled } :=
  ⟨true, by decide +kernel⟩

theorem demoSpec_schedule :
    ∃ schedule, demoSpec.schedule basicPlatform = .ok schedule := by
  obtain ⟨schedule, hSchedule⟩ := Option.isSome_iff_exists.mp demoScheduled.2
  refine ⟨schedule, ?_⟩
  cases hRun : demoSpec.schedule basicPlatform with
  | ok found =>
      rw [hRun] at hSchedule
      exact congrArg Except.ok (Option.some.inj hSchedule)
  | error e =>
      rw [hRun] at hSchedule
      cases hSchedule

theorem demoSpec_covered : ∃ schedule, demoSpec.schedule basicPlatform = .ok schedule ∧
    ∃ cycles, demoSpec.format.staticCycles = some cycles ∧ Covers demoSpec cycles schedule := by
  obtain ⟨schedule, hSchedule⟩ := demoSpec_schedule
  exact ⟨schedule, hSchedule, schedule_covers hSchedule⟩

end Demonstration

end WordArena.Tournament
