import WordArena.Tournament.Repository
import WordArena.Tournament.Static

/-! The order in which a schedule is emitted is the order in which its rows are
read back: series by round and table, games by sequence, byes by round. -/
namespace WordArena.Tournament

open Fallible WordArena.Engine WordArena.Application

/-- A schedule in the order of the layout it was built from. -/
structure Emitted (spec : TournamentSpec) (schedule : TournamentSchedule) : Prop where
  series : schedule.series.Pairwise fun a b => a.roundNumber < b.roundNumber ∨
    a.roundNumber = b.roundNumber ∧ a.tableNumber < b.tableNumber
  matchRows : schedule.scheduledMatches.Pairwise fun a b => a.sequence < b.sequence
  byes : schedule.byes.Pairwise fun a b => a.roundNumber < b.roundNumber

theorem pairwise_toSeries {entries : List SeriesEntry} (games : Nat)
    (h : entries.Pairwise SeriesEntry.Before) :
    (entries.map (·.toSeries games)).Pairwise fun a b => a.roundNumber < b.roundNumber ∨
      a.roundNumber = b.roundNumber ∧ a.tableNumber < b.tableNumber :=
  List.pairwise_map.mpr h

theorem pairwise_gamesFrom (spec : TournamentSpec) (seedIndex sequence : Nat)
    (entries : List SeriesEntry) :
    (gamesFrom spec seedIndex sequence entries).Pairwise fun a b => a.sequence < b.sequence := by
  refine List.pairwise_map.mp ?_
  rw [map_sequence_gamesFrom]
  exact List.pairwise_lt_range'

theorem schedule_emitted {platform : Platform} {spec : TournamentSpec}
    {schedule : TournamentSchedule} (h : spec.schedule platform = .ok schedule) :
    Emitted spec schedule := by
  obtain ⟨cycles, identity, -, -, -, -, rfl⟩ := schedule_eq_ok h
  refine ⟨pairwise_toSeries _ (staticEntries_before cycles), pairwise_gamesFrom _ _ _ _, ?_⟩
  refine List.pairwise_flatMap.mpr ⟨fun round _ => ?_, ?_⟩
  · rw [roundByes]
    cases round.2.bye with
    | none => exact List.Pairwise.nil
    | some entrant => exact List.pairwise_singleton _ _
  · refine (staticRounds_pairwise cycles).imp fun hNumber bye hBye later hLater => ?_
    obtain ⟨_, -, rfl⟩ := List.mem_map.mp hBye
    obtain ⟨_, -, rfl⟩ := List.mem_map.mp hLater
    exact hNumber

theorem exists_of_forall₂_right {α β : Type} {r : α → β → Prop} {l : List α} {l' : List β}
    (h : List.Forall₂ r l l') {b : β} (hb : b ∈ l') : ∃ a ∈ l, r a b := by
  induction h with
  | nil => cases hb
  | @cons a b' l l' hHead _ ih =>
      rcases List.mem_cons.mp hb with rfl | hTail
      · exact ⟨a, List.mem_cons_self, hHead⟩
      · obtain ⟨found, hFound, hRel⟩ := ih hTail
        exact ⟨found, List.mem_cons_of_mem _ hFound, hRel⟩

/-- The tables of one round are emitted in their order. -/
theorem before_of_at {b : ScheduleBuilder} {roundNumber : Nat} {respectPairOrder : Bool}
    {seats : List ((String × String) × Nat)} {entries : List SeriesEntry}
    (hSeats : seats.Pairwise fun a b => a.2 < b.2)
    (h : List.Forall₂ (SeriesEntry.At b roundNumber respectPairOrder) seats entries) :
    entries.Pairwise SeriesEntry.Before := by
  induction h with
  | nil => exact List.Pairwise.nil
  | @cons seat entry seats entries hAt hRest ih =>
      rw [List.pairwise_cons] at hSeats
      refine List.pairwise_cons.mpr ⟨fun later hLater => .inr ?_, ih hSeats.2⟩
      obtain ⟨other, hOther, hLaterAt⟩ := exists_of_forall₂_right hRest hLater
      have hTable := hSeats.1 other hOther
      rw [hAt.round, hAt.table, hLaterAt.round, hLaterAt.table]
      omega

theorem swiss_emitted {platform : Platform} {spec : TournamentSpec} {progress : SwissProgress}
    {schedule : TournamentSchedule}
    (h : spec.scheduleSwissRound platform progress = .ok schedule) : Emitted spec schedule := by
  obtain ⟨_, hValid, h⟩ := bind_eq_ok.mp h
  cases hFormat : spec.format with
  | swiss rounds games rematches =>
      rw [hFormat] at h
      simp only [bind_eq_ok, ScheduleBuilder.finish, reject_eq_ok, pure_eq_ok] at h
      obtain ⟨_, -, pairs, -, roundNumber, -, start, hStart, ⟨built, _⟩, hBuilt, _, -, rfl⟩ := h
      obtain ⟨-, -, -, -, -, hSeries, hMatches, hByes, -⟩ := new_eq_ok hStart
      obtain ⟨entries, hAdds, hAll⟩ := addRound_adds hBuilt
      have hBefore := before_of_at (pairwise_zipIdx_snd _ 0) hAll
      refine ⟨?_, ?_, ?_⟩
      · change built.series.Pairwise _
        rw [hAdds.series, hSeries, List.nil_append]
        exact pairwise_toSeries _ hBefore
      · change built.scheduledMatches.Pairwise _
        rw [hAdds.scheduledMatches, hMatches, List.nil_append]
        exact pairwise_gamesFrom _ _ _ _
      · change built.byes.Pairwise _
        rw [hAdds.byes, hByes, List.nil_append]
        cases (chooseSwissBye (orderedSwissEntrants spec progress) progress.priorByes).1 with
        | none => exact List.Pairwise.nil
        | some entrant => exact List.pairwise_singleton _ _
  | roundRobin cycles =>
      rw [hFormat] at h
      cases h
  | pairedSeatSwap cycles =>
      rw [hFormat] at h
      cases h
  | series cycles games policy =>
      rw [hFormat] at h
      cases h

theorem expected_emitted {platform : Platform} {t : StoredTournament}
    {schedule : TournamentSchedule} (h : t.expected platform = .ok schedule) :
    Emitted t.spec schedule := by
  unfold StoredTournament.expected at h
  split at h
  · exact swiss_emitted h
  · cases h
  · exact schedule_emitted h
  · cases h

/-- What a stored tournament that passes validation satisfies. -/
structure StoredTournament.Valid (platform : Platform) (t : StoredTournament) : Prop where
  spec : t.spec.Valid
  schedule : t.expected platform = .ok t.schedule
  events : ∀ entry ∈ t.lifecycle.zipIdx, eventValid t.lifecycle entry.2 entry.1 = true
  scheduled : t.lifecycle.head?.map (·.state) = some .scheduled

theorem StoredTournament.validate_eq_ok {platform : Platform} {t : StoredTournament} {u : Unit} :
    t.validate platform = .ok u ↔ t.Valid platform := by
  simp only [StoredTournament.validate, bind_eq_ok, reject_eq_ok, TournamentSpec.validate_eq_ok,
    not_or, not_not]
  constructor
  · rintro ⟨_, hSpec, schedule, hExpected, _, ⟨rfl, hSome⟩, _, hEvents, hHead⟩
    refine ⟨hSpec, hExpected, ?_, hHead⟩
    intro entry hEntry
    simpa using forM_eq_ok.mp hEvents entry hEntry
  · intro h
    have hSome : t.lifecycle ≠ [] := by
      intro hNil
      have hHead := h.scheduled
      rw [hNil] at hHead
      cases hHead
    refine ⟨(), h.spec, t.schedule, h.schedule, (), ⟨rfl, hSome⟩, (), ?_, h.scheduled⟩
    refine forM_eq_ok.mpr fun entry hEntry => reject_eq_ok.mpr ?_
    rw [h.events entry hEntry]
    simp

end WordArena.Tournament
