import WordArena.Tournament.Rounds

/-! The complete layout of a static schedule: numbered rounds of every cycle,
their oriented tables and their byes, in the order in which they are emitted. -/
namespace WordArena.Tournament

open Fallible WordArena.Engine

section Layout

variable (spec : TournamentSpec)

def TournamentSpec.staticProfile (first second : String) (roundNumber : Nat) : Nat :=
  (circularDistance spec.entrants.length (spec.orderedEntrantIds.idxOf first)
      (spec.orderedEntrantIds.idxOf second) - 1 +
    (roundNumber - 1) / roundsPerCycle spec.entrants.length) % spec.profiles.length

def staticEntry (roundNumber : Nat) (seat : (String × String) × Nat) : SeriesEntry :=
  ⟨seat.1.1, seat.1.2, ⟨seriesId spec.tournamentId roundNumber (seat.2 + 1), roundNumber,
    seat.2 + 1, seat.1.1, seat.1.2, spec.staticProfile seat.1.1 seat.1.2 roundNumber⟩⟩

/-- The tables and the bye of one round of one cycle. -/
def staticPairings (cycle r : Nat) : RoundPairings :=
  orientStaticRound spec.orderedEntrantIds cycle
    (circleRound (Circle.turn^[r] (circleSlots spec.orderedEntrantIds)))

/-- Rounds are numbered from one through all the cycles. -/
def staticNumber (cycle r : Nat) : Nat := cycle * roundsPerCycle spec.entrants.length + r + 1

def staticCycle (cycle : Nat) : List (Nat × RoundPairings) :=
  (List.range (roundsPerCycle spec.entrants.length)).map fun r =>
    (staticNumber spec cycle r, staticPairings spec cycle r)

def staticRounds (cycles : Nat) : List (Nat × RoundPairings) :=
  (List.range cycles).flatMap (staticCycle spec)

def roundEntries (round : Nat × RoundPairings) : List SeriesEntry :=
  round.2.pairs.zipIdx.map (staticEntry spec round.1)

def roundByes (round : Nat × RoundPairings) : List TournamentBye :=
  round.2.bye.toList.map fun entrant => ⟨round.1, entrant⟩

def staticEntries (cycles : Nat) : List SeriesEntry :=
  (staticRounds spec cycles).flatMap (roundEntries spec)

def staticByes (cycles : Nat) : List TournamentBye :=
  (staticRounds spec cycles).flatMap roundByes

end Layout

section Built

variable {spec : TournamentSpec} {b b' : ScheduleBuilder} {balance balance' : SeatCounts}

/-- A builder that works on the spec's own ranking. -/
structure Follows (spec : TournamentSpec) (b : ScheduleBuilder) : Prop where
  spec_eq : b.spec = spec
  orderedEntrants : b.orderedEntrants = spec.orderedEntrantIds
  staticRoundsPerCycle : b.staticRoundsPerCycle = roundsPerCycle spec.entrants.length

theorem Follows.adds {entries : List SeriesEntry} {byes : List TournamentBye}
    (h : Follows spec b) (hAdds : Adds b entries byes b') : Follows spec b' :=
  ⟨hAdds.spec.trans h.spec_eq, hAdds.orderedEntrants.trans h.orderedEntrants,
    hAdds.staticRoundsPerCycle.trans h.staticRoundsPerCycle⟩

/-- Respecting the order of the pair leaves nothing open about an entry. -/
theorem SeriesEntry.At.eq_staticEntry (hFollows : Follows spec b) {roundNumber : Nat}
    {seat : (String × String) × Nat} {entry : SeriesEntry}
    (h : SeriesEntry.At b roundNumber true seat entry) :
    entry = staticEntry spec roundNumber seat := by
  obtain ⟨first, second, plan⟩ := entry
  obtain ⟨name, round, table, baseOne, baseTwo, profileIndex⟩ := plan
  obtain ⟨hOne, hTwo, hProfile⟩ := h.inOrder rfl
  have hFirst := h.first
  have hSecond := h.second
  have hRound := h.round
  have hTable := h.table
  have hName := h.name
  dsimp only at hFirst hSecond hRound hTable hName hOne hTwo hProfile
  simp only [ScheduleBuilder.staticProfile, hFollows.spec_eq, hFollows.orderedEntrants,
    hFollows.staticRoundsPerCycle, TournamentSpec.length_orderedEntrantIds] at hProfile
  rw [staticEntry, TournamentSpec.staticProfile]
  rw [hOne, hTwo, hProfile, hName, hRound, hTable, hFirst, hSecond, hFollows.spec_eq]

theorem addRound_static (hFollows : Follows spec b) {roundNumber : Nat} {round : RoundPairings}
    (h : b.addRound roundNumber round balance true = .ok (b', balance')) :
    Adds b (roundEntries spec (roundNumber, round)) (roundByes (roundNumber, round)) b' := by
  obtain ⟨entries, hAdds, hAll⟩ := addRound_adds h
  have hEntries : entries = roundEntries spec (roundNumber, round) := by
    rw [roundEntries, ← List.forall₂_eq_eq_eq, List.forall₂_map_right_iff]
    exact (hAll.imp fun _ _ hAt => hAt.eq_staticEntry hFollows).flip
  exact hEntries ▸ hAdds

theorem addStaticRounds_adds (hFollows : Follows spec b) {cycle : Nat}
    {rounds : List (RoundPairings × Nat)}
    (h : rounds.foldlM (addStaticRound spec.orderedEntrantIds
      (roundsPerCycle spec.entrants.length) cycle) (b, balance) = .ok (b', balance')) :
    let numbered := rounds.map fun entry => (staticNumber spec cycle entry.2,
      orientStaticRound spec.orderedEntrantIds cycle entry.1)
    Adds b (numbered.flatMap (roundEntries spec)) (numbered.flatMap roundByes) b' := by
  induction rounds generalizing b balance with
  | nil =>
      cases pure_eq_ok.mp h
      exact .refl _
  | cons entry rounds ih =>
      rw [List.foldlM_cons, bind_eq_ok] at h
      obtain ⟨⟨middle, counts⟩, hHead, hTail⟩ := h
      simp only [addStaticRound, bind_eq_ok, fitU16_eq_ok] at hHead
      obtain ⟨_, ⟨-, rfl⟩, _, ⟨-, rfl⟩, _, ⟨-, rfl⟩, _, ⟨-, rfl⟩, _, ⟨-, rfl⟩, hRound⟩ := hHead
      have hFirst := addRound_static hFollows hRound
      exact hFirst.trans (ih (hFollows.adds hFirst) hTail)

theorem zipIdx_circleRounds (hValid : spec.Valid) :
    (circleRounds spec.orderedEntrantIds).zipIdx =
      (List.range (roundsPerCycle spec.entrants.length)).map fun r =>
        (circleRound (Circle.turn^[r] (circleSlots spec.orderedEntrantIds)), r) := by
  rw [circleRounds_eq (by simpa using hValid.entrantCount),
    TournamentSpec.length_orderedEntrantIds]
  refine List.ext_getElem (by simp) fun k hk hk' => ?_
  simp

theorem addCycles_adds (hValid : spec.Valid) (hFollows : Follows spec b) {cycles : Nat}
    (h : (List.range cycles).foldlM (fun acc cycle =>
      (circleRounds spec.orderedEntrantIds).zipIdx.foldlM (addStaticRound spec.orderedEntrantIds
        (circleRounds spec.orderedEntrantIds).length cycle) acc) (b, balance) =
      .ok (b', balance')) :
    Adds b (staticEntries spec cycles) (staticByes spec cycles) b' := by
  have hCount : (circleRounds spec.orderedEntrantIds).length =
      roundsPerCycle spec.entrants.length := by
    rw [circleRounds_eq (by simpa using hValid.entrantCount)]
    simp
  rw [hCount, zipIdx_circleRounds hValid] at h
  induction cycles generalizing b' balance' with
  | zero =>
      cases pure_eq_ok.mp h
      exact .refl _
  | succ cycles ih =>
      rw [List.range_succ, List.foldlM_append, bind_eq_ok] at h
      obtain ⟨⟨middle, counts⟩, hBefore, hLast⟩ := h
      rw [List.foldlM_cons, bind_eq_ok] at hLast
      obtain ⟨_, hLast, hDone⟩ := hLast
      cases pure_eq_ok.mp hDone
      have hFirst := ih hBefore
      have hNext := addStaticRounds_adds (hFollows.adds hFirst) hLast
      have hAll := hFirst.trans hNext
      rw [List.map_map] at hAll
      rw [staticEntries, staticByes, staticRounds, List.range_succ, List.flatMap_append,
        List.flatMap_singleton, List.flatMap_append, List.flatMap_append]
      exact hAll

/-- A static schedule that is returned consists of its layout, the games of which
use up the seeds. -/
theorem schedule_eq_ok {platform : Platform} {schedule : TournamentSchedule}
    (h : spec.schedule platform = .ok schedule) :
    ∃ cycles identity, spec.Valid ∧ spec.format.staticCycles = some cycles ∧
      spec.formatIdentity platform = .ok identity ∧
      (staticEntries spec cycles).length * spec.format.gamesPerSeries =
        spec.gameSeedCommitments.length ∧
      schedule = ⟨scheduleSchemaVersion, spec.tournamentId, identity,
        (staticEntries spec cycles).map (·.toSeries spec.format.gamesPerSeries),
        gamesFrom spec 0 0 (staticEntries spec cycles), staticByes spec cycles⟩ := by
  simp only [TournamentSpec.schedule, bind_eq_ok, okOr_eq_ok, ScheduleBuilder.finish,
    reject_eq_ok, pure_eq_ok] at h
  obtain ⟨_, hValid, cycles, hCycles, start, hStart, ⟨built, _⟩, hBuilt, _, hSeeds, rfl⟩ := h
  obtain ⟨hValid, hSpec, hIdentity, hIndex, hSequence, hSeries, hMatches, hByes, hOrdered,
    hRounds⟩ := new_eq_ok hStart
  have hAdds := addCycles_adds hValid ⟨hSpec, hOrdered, hRounds⟩ hBuilt
  have hUsed := hAdds.seedIndex
  have hAllSeries := hAdds.series
  have hAllMatches := hAdds.scheduledMatches
  have hAllByes := hAdds.byes
  rw [hSpec, hIndex, Nat.zero_add] at hUsed
  rw [hSpec, hSeries, List.nil_append] at hAllSeries
  rw [hSpec, hIndex, hSequence, hMatches, List.nil_append] at hAllMatches
  rw [hByes, List.nil_append] at hAllByes
  rw [not_and, not_not, hAdds.spec, hSpec] at hSeeds
  refine ⟨cycles, start.formatIdentity, hValid, hCycles, hIdentity, ?_, ?_⟩
  · rw [← hUsed, hSeeds trivial]
  · simp only [hAdds.spec, hSpec, hAdds.formatIdentity, hAllSeries, hAllMatches, hAllByes]

end Built

section Order

variable {spec : TournamentSpec}

theorem pairwise_zipIdx_snd {α : Type} (l : List α) (start : Nat) :
    (l.zipIdx start).Pairwise fun a b => a.2 < b.2 := by
  have hSorted : ((l.zipIdx start).map Prod.snd).Pairwise (· < ·) := by
    rw [List.zipIdx_map_snd]
    exact List.pairwise_lt_range'
  exact List.pairwise_map.mp hSorted

theorem staticRounds_pairwise (cycles : Nat) :
    (staticRounds spec cycles).Pairwise fun a b => a.1 < b.1 := by
  have hCycle : ∀ cycle, (staticCycle spec cycle).Pairwise fun a b => a.1 < b.1 := by
    intro cycle
    rw [staticCycle, List.pairwise_map]
    refine List.pairwise_lt_range.imp fun h => ?_
    unfold staticNumber
    omega
  refine List.pairwise_flatMap.mpr ⟨fun cycle _ => hCycle cycle, ?_⟩
  refine List.pairwise_lt_range.imp fun {cycle later} hLater a ha b hb => ?_
  obtain ⟨r, hr, rfl⟩ := List.mem_map.mp ha
  obtain ⟨r', -, rfl⟩ := List.mem_map.mp hb
  have hNext := Nat.mul_le_mul_right (roundsPerCycle spec.entrants.length) hLater
  rw [Nat.succ_mul] at hNext
  rw [List.mem_range] at hr
  dsimp only [staticNumber]
  omega

theorem staticEntries_before (cycles : Nat) :
    (staticEntries spec cycles).Pairwise SeriesEntry.Before := by
  refine List.pairwise_flatMap.mpr ⟨fun round _ => ?_, ?_⟩
  · rw [roundEntries, List.pairwise_map]
    refine (pairwise_zipIdx_snd round.2.pairs 0).imp fun h => .inr ⟨rfl, ?_⟩
    exact Nat.succ_lt_succ h
  · refine (staticRounds_pairwise cycles).imp fun h entry hEntry later hLater => .inl ?_
    obtain ⟨seat, -, rfl⟩ := List.mem_map.mp hEntry
    obtain ⟨seat', -, rfl⟩ := List.mem_map.mp hLater
    exact h

theorem staticEntries_named (cycles : Nat) :
    ∀ entry ∈ staticEntries spec cycles, entry.Named spec.tournamentId := by
  intro entry hEntry
  obtain ⟨round, -, hHere⟩ := List.mem_flatMap.mp hEntry
  obtain ⟨seat, -, rfl⟩ := List.mem_map.mp hHere
  rfl

end Order

section Orientation

variable {spec : TournamentSpec}

theorem orientStaticPair_or (orderedEntrants : List String) (cycle : Nat)
    (pair : String × String) : orientStaticPair orderedEntrants cycle pair = pair ∨
      orientStaticPair orderedEntrants cycle pair = pair.swap := by
  unfold orientStaticPair
  split
  · exact .inl rfl
  · exact .inr rfl

/-- The tables of one cycle, oriented for it. -/
theorem flatMap_pairs_staticCycle (cycle : Nat) :
    (staticCycle spec cycle).flatMap (·.2.pairs) =
      (cyclePairs spec.orderedEntrantIds).map
        (orientStaticPair spec.orderedEntrantIds cycle) := by
  rw [staticCycle, cyclePairs, List.map_flatMap, List.flatMap_map,
    TournamentSpec.length_orderedEntrantIds]
  rfl

theorem flatMap_byes_staticCycle (cycle : Nat) :
    (staticCycle spec cycle).flatMap (·.2.bye.toList) = cycleByes spec.orderedEntrantIds := by
  rw [staticCycle, cycleByes, List.flatMap_map, TournamentSpec.length_orderedEntrantIds]
  rfl

/-- Whatever the orientation, every entrant meets every other once in a cycle. -/
theorem opponents_staticCycle (hValid : spec.Valid) (cycle : Nat) {x : String}
    (hx : x ∈ spec.orderedEntrantIds) :
    (x :: Circle.opponents x ((staticCycle spec cycle).flatMap (·.2.pairs))).Perm
      spec.orderedEntrantIds := by
  rw [flatMap_pairs_staticCycle]
  refine ((Circle.opponents_map_perm (orientStaticPair_or _ cycle) x _).cons x).trans ?_
  exact opponents_cyclePairs hValid.nodup_orderedEntrantIds hx

/-- In a round every entrant is at one table or has the bye. -/
theorem staticPairings_perm (hValid : spec.Valid) (cycle r : Nat) :
    (Circle.sides (staticPairings spec cycle r).pairs ++
      (staticPairings spec cycle r).bye.toList).Perm spec.orderedEntrantIds := by
  have hRound := circleRound_perm hValid.nodup_orderedEntrantIds r
  refine List.Perm.trans (List.Perm.append_right _ ?_) hRound
  exact Circle.sides_map_perm (orientStaticPair_or _ cycle) _

end Orientation

end WordArena.Tournament
