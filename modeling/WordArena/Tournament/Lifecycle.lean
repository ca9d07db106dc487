import WordArena.Tournament.Coverage
import WordArena.Tournament.Records

/-! The life of a stored tournament. Its rows stay what the insert wrote, its
lifecycle grows by exactly the events that transitions return, and a load reads
both back as long as the lifecycle stands still between its first two queries. -/
namespace WordArena.Tournament

open Fallible WordArena.Engine WordArena.Application
open WordArena.Service (RepositoryError)

section Holds

/-- The rows of a tournament with the lifecycle it has reached. -/
structure Holds (s : TournamentStore) (t : StoredTournament)
    (lifecycle : List TournamentLifecycleEvent) : Prop where
  header : ∃ initial current, lifecycle.head? = some initial ∧
    lifecycle.getLast? = some current ∧
    s.tournaments.find? (·.tournamentId == t.spec.tournamentId) =
      some (tournamentRow t.spec initial current) ∧
    s.schedules.find? (·.tournamentId == t.spec.tournamentId) = some (scheduleRow t initial)
  entries : s.entries.filter (·.tournamentId == t.spec.tournamentId) =
    t.spec.entrants.map (entryRow t.spec.tournamentId)
  series : s.series.filter (·.tournamentId == t.spec.tournamentId) =
    t.schedule.series.map (seriesRow t.spec.tournamentId)
  matchSchedule : s.matchSchedule.filter (·.tournamentId == t.spec.tournamentId) =
    t.schedule.scheduledMatches.map
      (matchScheduleRow t.spec.tournamentId t.schedule.formatIdentity.sha256)
  matchRows : ∃ createdAt, ∀ game ∈ t.schedule.scheduledMatches,
    s.matchRows.find? (·.matchId == game.matchId) =
        some (matchRow t.spec.tournamentId createdAt game) ∧
      s.seats.filter (·.matchId == game.matchId) = seatRows t.spec.tournamentId game
  byes : s.byes.filter (·.tournamentId == t.spec.tournamentId) =
    t.schedule.byes.map (byeRow t.spec.tournamentId)
  events : s.events.filter (·.tournamentId == t.spec.tournamentId) =
    lifecycle.map (eventRow t.spec.tournamentId)

variable {s s' : TournamentStore} {t : StoredTournament}
  {lifecycle : List TournamentLifecycleEvent}

/-- A selection finds exactly the rows that were added for it. -/
theorem filter_append_own {ρ α : Type} {rows : List ρ} {items : List α} {row : α → ρ}
    {p : ρ → Bool} (hOld : ∀ old ∈ rows, p old = false) (hNew : ∀ item, p (row item) = true) :
    (rows ++ items.map row).filter p = items.map row := by
  have hNone : rows.filter p = [] := by
    refine List.filter_eq_nil_iff.mpr fun old hMem => ?_
    rw [hOld old hMem]
    exact Bool.false_ne_true
  rw [List.filter_append, hNone, List.nil_append, List.filter_eq_self]
  intro found hFound
  obtain ⟨item, -, rfl⟩ := List.mem_map.mp hFound
  exact hNew item

/-- A selection does not see rows that were added for another. -/
theorem filter_append_other {ρ α : Type} (rows : List ρ) {items : List α} {row : α → ρ}
    {p : ρ → Bool} (hNew : ∀ item ∈ items, p (row item) = false) :
    (rows ++ items.map row).filter p = rows.filter p := by
  have hNone : (items.map row).filter p = [] := by
    refine List.filter_eq_nil_iff.mpr fun found hMem => ?_
    obtain ⟨item, hItem, rfl⟩ := List.mem_map.mp hMem
    rw [hNew item hItem]
    exact Bool.false_ne_true
  rw [List.filter_append, hNone, List.append_nil]

/-- An insert leaves the tournament in the store. -/
theorem Holds.of_insert {platform : Platform} {u : Unit} (hKeyed : Keyed s)
    (h : s.insert platform t = .ok (u, s')) : Holds s' t t.lifecycle := by
  have hNext := hKeyed.insert h
  obtain ⟨initial, current, hValid, hInitial, hCurrent, hFresh, -, rfl⟩ := insert_eq_ok h
  have hAbsent : t.spec.tournamentId ∉ s.tournaments.map (·.tournamentId) := by
    intro hMem
    obtain ⟨row, hRow, hSame⟩ := List.mem_map.mp hMem
    exact hFresh row hRow hSame
  have hOther : ∀ {ρ : Type} {owner : ρ → String} {rows : List ρ},
      (∀ row ∈ rows, owner row ∈ s.tournaments.map (·.tournamentId)) →
        ∀ row ∈ rows, (owner row == t.spec.tournamentId) = false := by
    intro ρ owner rows hOwned row hRow
    rw [beq_eq_false_iff_ne]
    intro hSame
    exact hAbsent (hSame ▸ hOwned row hRow)
  have hSelf : ∀ id : String, (id == id) = true := fun id => beq_self_eq_true id
  constructor
  · refine ⟨initial, current, hInitial, hCurrent, ?_, ?_⟩
    · rw [List.find?_append, List.find?_eq_none.mpr fun row hRow => by
        simpa using hFresh row hRow]
      simp [tournamentRow]
    · rw [List.find?_append, List.find?_eq_none.mpr fun row hRow => by
        simp [hOther hKeyed.schedules row hRow]]
      simp [scheduleRow]
  · exact filter_append_own (hOther hKeyed.entries) fun _ => hSelf _
  · exact filter_append_own (hOther hKeyed.series) fun _ => hSelf _
  · exact filter_append_own (hOther hKeyed.matchSchedule) fun _ => hSelf _
  · refine ⟨initial.occurredAt, fun game hGame => ⟨?_, ?_⟩⟩
    · have hKey : (s.matchRows ++ t.schedule.scheduledMatches.map
          (matchRow t.spec.tournamentId initial.occurredAt)).find?
          (fun row => decide (row.matchId = game.matchId)) =
          some (matchRow t.spec.tournamentId initial.occurredAt game) :=
        (Table.find?_eq_some_iff_mem hNext.matchIds).mpr
          ⟨List.mem_append_right _ (List.mem_map_of_mem hGame), rfl⟩
      simpa [beq_eq_decide] using hKey
    · have hIds := hNext.matchIds
      rw [List.map_append, List.nodup_append, List.map_map] at hIds
      have hOld : s.seats.filter (·.matchId == game.matchId) = [] := by
        refine List.filter_eq_nil_iff.mpr fun row hRow hSame => ?_
        refine hIds.2.2 _ (hKeyed.seats row hRow) _ (List.mem_map_of_mem hGame) ?_
        simpa [matchRow] using hSame
      have hNew : (t.schedule.scheduledMatches.flatMap (seatRows t.spec.tournamentId)).filter
          (·.matchId == game.matchId) = seatRows t.spec.tournamentId game := by
        have hSource := Table.filter_flatMap_source (l := t.schedule.scheduledMatches)
          (f := seatRows t.spec.tournamentId) (p := fun row => row.matchId == game.matchId)
          (q := fun other => other.matchId == game.matchId) (by
            intro other _ row hRow
            rw [seatRows, List.mem_cons, List.mem_singleton] at hRow
            rcases hRow with rfl | rfl <;> rfl)
        have hKey : t.schedule.scheduledMatches.filter
            (fun other => other.matchId == game.matchId) = [game] :=
          Table.filter_key hIds.2.1 hGame
        rw [hSource, hKey, List.flatMap_singleton]
      rw [List.filter_append, hOld, hNew, List.nil_append]
  · exact filter_append_own (hOther hKeyed.byes) fun _ => hSelf _
  · exact filter_append_own (hOther hKeyed.events) fun _ => hSelf _

theorem Holds.present (h : Holds s t lifecycle) :
    t.spec.tournamentId ∈ s.tournaments.map (·.tournamentId) := by
  obtain ⟨initial, current, -, -, hRow, -⟩ := h.header
  exact List.mem_map.mpr ⟨_, List.mem_of_find?_eq_some hRow, rfl⟩

/-- Inserting another tournament leaves a stored one alone. -/
theorem Holds.insert {platform : Platform} {other : StoredTournament} {u : Unit}
    (hHolds : Holds s t lifecycle) (hKeyed : Keyed s)
    (h : s.insert platform other = .ok (u, s')) : Holds s' t lifecycle := by
  have hNext := hKeyed.insert h
  obtain ⟨initial, current, -, -, -, hFresh, -, rfl⟩ := insert_eq_ok h
  have hNe : (other.spec.tournamentId == t.spec.tournamentId) = false := by
    rw [beq_eq_false_iff_ne]
    intro hSame
    obtain ⟨row, hRow, hId⟩ := List.mem_map.mp hHolds.present
    exact hFresh row hRow (hId.trans hSame.symm)
  constructor
  · obtain ⟨first, last, hFirst, hLast, hRow, hDocs⟩ := hHolds.header
    refine ⟨first, last, hFirst, hLast, ?_, ?_⟩
    · rw [List.find?_append, hRow]
      rfl
    · rw [List.find?_append, hDocs]
      rfl
  · refine (filter_append_other _ ?_).trans hHolds.entries
    exact fun _ _ => hNe
  · refine (filter_append_other _ ?_).trans hHolds.series
    exact fun _ _ => hNe
  · refine (filter_append_other _ ?_).trans hHolds.matchSchedule
    exact fun _ _ => hNe
  · obtain ⟨createdAt, hGames⟩ := hHolds.matchRows
    refine ⟨createdAt, fun game hGame => ⟨?_, ?_⟩⟩
    · rw [List.find?_append, (hGames game hGame).1]
      rfl
    · -- a new match cannot have the identifier of an old one
      have hIds := hNext.matchIds
      rw [List.map_append, List.nodup_append, List.map_map] at hIds
      have hOld : game.matchId ∈ s.matchRows.map (·.matchId) :=
        List.mem_map.mpr ⟨_, List.mem_of_find?_eq_some (hGames game hGame).1, rfl⟩
      have hNone : (other.schedule.scheduledMatches.flatMap
          (seatRows other.spec.tournamentId)).filter (·.matchId == game.matchId) = [] := by
        refine List.filter_eq_nil_iff.mpr fun row hRow hSame => ?_
        obtain ⟨added, hAdded, hSeat⟩ := List.mem_flatMap.mp hRow
        refine hIds.2.2 _ hOld _ (List.mem_map_of_mem hAdded) ?_
        rw [seatRows, List.mem_cons, List.mem_singleton] at hSeat
        rcases hSeat with rfl | rfl <;> exact (beq_iff_eq.mp hSame).symm
      rw [List.filter_append, hNone, List.append_nil]
      exact (hGames game hGame).2
  · refine (filter_append_other _ ?_).trans hHolds.byes
    exact fun _ _ => hNe
  · refine (filter_append_other _ ?_).trans hHolds.events
    exact fun _ _ => hNe

/-- A transition of another tournament leaves a stored one alone. -/
theorem Holds.transition_other {id : String} {expectedSequence : Nat}
    {state : TournamentLifecycleState} {occurredAt : UnixMillis}
    {event : TournamentLifecycleEvent} (hHolds : Holds s t lifecycle)
    (hNe : id ≠ t.spec.tournamentId)
    (h : s.transition id expectedSequence state occurredAt = .ok (event, s')) :
    Holds s' t lifecycle := by
  obtain ⟨row, current, -, -, -, -, -, -, rfl, rfl⟩ := transition_eq_ok h
  refine ⟨?_, hHolds.entries, hHolds.series, hHolds.matchSchedule, hHolds.matchRows, hHolds.byes,
    ?_⟩
  · obtain ⟨first, last, hFirst, hLast, hRow, hDocs⟩ := hHolds.header
    refine ⟨first, last, hFirst, hLast, ?_, hDocs⟩
    rw [Table.find?_update_other, hRow]
    all_goals
      intro header hHit
      simp only [moves, Bool.and_eq_true, beq_iff_eq] at hHit
      rw [beq_eq_false_iff_ne]
      exact hHit.1.1 ▸ hNe
  · have hSkip : (eventRow id ⟨lifecycleSchemaVersion, expectedSequence + 1, state,
        occurredAt⟩).tournamentId ≠ t.spec.tournamentId := hNe
    rw [List.filter_append, List.filter_cons_of_neg (by simpa using hSkip), List.filter_nil,
      List.append_nil]
    exact hHolds.events

/-- The last event of a numbered lifecycle has the highest sequence. -/
theorem latest_events {id : String} {current : TournamentLifecycleEvent}
    (hNumbers : lifecycle.map (·.sequence) = List.range lifecycle.length)
    (hCurrent : lifecycle.getLast? = some current) :
    latest (lifecycle.map (eventRow id)) = some (eventRow id current) := by
  obtain ⟨front, rfl⟩ := List.getLast?_eq_some_iff.mp hCurrent
  rw [List.map_append, List.map_singleton]
  refine latest_concat _ _ fun other hOther => ?_
  obtain ⟨event, hEvent, rfl⟩ := List.mem_map.mp hOther
  rw [List.length_append, List.length_singleton, List.range_succ, List.map_append,
    List.map_singleton] at hNumbers
  obtain ⟨hFront, hLast⟩ := List.append_inj' hNumbers rfl
  have hMem : event.sequence ∈ List.range front.length := hFront ▸ List.mem_map_of_mem hEvent
  change event.sequence < current.sequence
  rw [(List.cons.inj hLast).1]
  exact List.mem_range.mp hMem

/-- What a transition of a stored tournament comes to: the next event of its
lifecycle. -/
theorem Holds.transition {expectedSequence : Nat} {state : TournamentLifecycleState}
    {occurredAt : UnixMillis} {event : TournamentLifecycleEvent}
    (hHolds : Holds s t lifecycle)
    (hNumbers : lifecycle.map (·.sequence) = List.range lifecycle.length)
    (h : s.transition t.spec.tournamentId expectedSequence state occurredAt =
      .ok (event, s')) :
    ∃ current, lifecycle.getLast? = some current ∧ current.sequence = expectedSequence ∧
      current.state.canTransitionTo state = true ∧ current.occurredAt ≤ occurredAt ∧
      0 ≤ occurredAt ∧
      event = ⟨lifecycleSchemaVersion, expectedSequence + 1, state, occurredAt⟩ ∧
      Holds s' t (lifecycle ++ [event]) := by
  obtain ⟨row, found, hTime, hLatest, hState, hSequence, hCan, hAfter, rfl, rfl⟩ :=
    transition_eq_ok h
  obtain ⟨first, current, hFirst, hCurrent, hRow, hDocs⟩ := hHolds.header
  rw [hHolds.events, latest_events hNumbers hCurrent, Option.some.injEq] at hLatest
  subst hLatest
  change lifecycleState current.state.asStr = _ at hState
  rw [lifecycleState_asStr, Except.ok.injEq] at hState
  subst hState
  refine ⟨current, hCurrent, hSequence, hCan, hAfter, hTime, rfl, ?_⟩
  refine ⟨?_, hHolds.entries, hHolds.series, hHolds.matchSchedule, hHolds.matchRows, hHolds.byes,
    ?_⟩
  · refine ⟨first, _, ?_, List.getLast?_concat, ?_, hDocs⟩
    · rw [List.head?_append, hFirst]
      rfl
    · have hHit : moves t.spec.tournamentId current.state occurredAt
          (tournamentRow t.spec first current) = true := by
        simp only [moves, tournamentRow, beq_self_eq_true, Bool.true_and]
        exact decide_eq_true hAfter
      refine (Table.find?_update ?_).trans ?_
      · exact fun _ => rfl
      · rw [hRow, Option.map_some, if_pos hHit]
        rfl
  · have hOwn : (s.events ++ [eventRow t.spec.tournamentId
        ⟨lifecycleSchemaVersion, expectedSequence + 1, state, occurredAt⟩]).filter
        (·.tournamentId == t.spec.tournamentId) = s.events.filter
          (·.tournamentId == t.spec.tournamentId) ++ [eventRow t.spec.tournamentId
            ⟨lifecycleSchemaVersion, expectedSequence + 1, state, occurredAt⟩] := by
      rw [List.filter_append]
      congr 1
      exact List.filter_eq_self.mpr (by simp [eventRow])
    rw [hOwn, hHolds.events, List.map_append]
    rfl

end Holds

section Orderly

/-- A lifecycle that starts scheduled, counts its events, never goes back in time
and takes only allowed steps. -/
structure Orderly (lifecycle : List TournamentLifecycleEvent) : Prop where
  scheduled : lifecycle.head?.map (·.state) = some .scheduled
  numbered : lifecycle.map (·.sequence) = List.range lifecycle.length
  events : ∀ event ∈ lifecycle,
    event.schemaVersion = lifecycleSchemaVersion ∧ 0 ≤ event.occurredAt
  steps : lifecycle.IsChain fun before next =>
    before.state.canTransitionTo next.state = true ∧ before.occurredAt ≤ next.occurredAt

variable {lifecycle : List TournamentLifecycleEvent}

theorem eventValid_iff {event : TournamentLifecycleEvent} {i : Nat} :
    eventValid lifecycle i event = true ↔
      event.schemaVersion = lifecycleSchemaVersion ∧ event.sequence = i ∧
      0 ≤ event.occurredAt ∧ (i = 0 ∨ ∃ before, lifecycle[i - 1]? = some before ∧
        before.state.canTransitionTo event.state = true ∧
        before.occurredAt ≤ event.occurredAt) := by
  simp [eventValid, Option.any_eq_true, and_assoc]

/-- The checks on a stored lifecycle are that it is orderly. -/
theorem orderly_iff : Orderly lifecycle ↔
    (∀ entry ∈ lifecycle.zipIdx, eventValid lifecycle entry.2 entry.1 = true) ∧
      lifecycle.head?.map (·.state) = some .scheduled := by
  have hEntries : (∀ entry ∈ lifecycle.zipIdx, eventValid lifecycle entry.2 entry.1 = true) ↔
      ∀ i (hi : i < lifecycle.length),
        eventValid lifecycle i (lifecycle.get ⟨i, hi⟩) = true := by
    constructor
    · intro h i hi
      refine h (lifecycle.get ⟨i, hi⟩, i) ?_
      rw [List.mem_zipIdx_iff_getElem?]
      simp
    · rintro h ⟨event, i⟩ hMem
      rw [List.mem_zipIdx_iff_getElem?] at hMem
      dsimp only at hMem
      obtain ⟨hi, rfl⟩ := List.getElem?_eq_some_iff.mp hMem
      exact h i hi
  rw [hEntries]
  constructor
  · intro h
    refine ⟨fun i hi => eventValid_iff.mpr ?_, h.scheduled⟩
    obtain ⟨hVersion, hTime⟩ := h.events _ (List.get_mem lifecycle ⟨i, hi⟩)
    refine ⟨hVersion, ?_, hTime, ?_⟩
    · have hNumber := congrArg (·[i]?) h.numbered
      simpa [hi] using hNumber
    · cases i with
      | zero => exact .inl rfl
      | succ i =>
          have hStep := List.isChain_iff_getElem.mp h.steps i hi
          exact .inr ⟨_, List.getElem?_eq_getElem (by omega), hStep⟩
  · rintro ⟨h, hHead⟩
    refine ⟨hHead, ?_, ?_, ?_⟩
    · refine List.ext_getElem (by simp) fun i hi hi' => ?_
      have := (eventValid_iff.mp (h i (by simpa using hi))).2.1
      simpa using this
    · intro event hEvent
      obtain ⟨i, hi, rfl⟩ := List.mem_iff_getElem.mp hEvent
      obtain ⟨hVersion, -, hTime, -⟩ := eventValid_iff.mp (h i hi)
      exact ⟨hVersion, hTime⟩
    · refine List.isChain_iff_getElem.mpr fun i hi => ?_
      obtain ⟨-, -, -, hZero | ⟨before, hBefore, hStep⟩⟩ := eventValid_iff.mp (h (i + 1) hi)
      · omega
      · obtain ⟨_, rfl⟩ := List.getElem?_eq_some_iff.mp hBefore
        exact hStep

/-- The next event of an orderly lifecycle. -/
theorem Orderly.concat {current event : TournamentLifecycleEvent} (h : Orderly lifecycle)
    (hCurrent : lifecycle.getLast? = some current)
    (hVersion : event.schemaVersion = lifecycleSchemaVersion) (hTime : 0 ≤ event.occurredAt)
    (hSequence : event.sequence = current.sequence + 1)
    (hCan : current.state.canTransitionTo event.state = true)
    (hAfter : current.occurredAt ≤ event.occurredAt) : Orderly (lifecycle ++ [event]) := by
  obtain ⟨front, rfl⟩ := List.getLast?_eq_some_iff.mp hCurrent
  have hLast : current.sequence = front.length := by
    have hNumbered := h.numbered
    rw [List.length_append, List.length_singleton, List.range_succ, List.map_append,
      List.map_singleton] at hNumbered
    exact (List.cons.inj (List.append_inj' hNumbered rfl).2).1
  refine ⟨?_, ?_, ?_, ?_⟩
  · rw [List.head?_append, Option.map_or, h.scheduled]
    rfl
  · have hLength : (front ++ [current] ++ [event]).length = (front ++ [current]).length + 1 := by
      simp
    rw [List.map_append, h.numbered, List.map_singleton, hSequence, hLast, hLength,
      List.range_succ (n := (front ++ [current]).length)]
    simp
  · intro e he
    rcases List.mem_append.mp he with hOld | hNew
    · exact h.events e hOld
    · rw [List.mem_singleton.mp hNew]
      exact ⟨hVersion, hTime⟩
  · refine List.isChain_append.mpr ⟨h.steps, List.isChain_singleton _, ?_⟩
    intro before hBefore next hNext
    rw [List.getLast?_concat, Option.mem_some_iff] at hBefore
    rw [List.head?_cons, Option.mem_some_iff] at hNext
    subst hBefore hNext
    exact ⟨hCan, hAfter⟩

/-- A valid tournament stays valid with any orderly lifecycle. -/
theorem StoredTournament.Valid.orderly {platform : Platform} {t : StoredTournament}
    (h : t.Valid platform) : Orderly t.lifecycle :=
  orderly_iff.mpr ⟨h.events, h.scheduled⟩

theorem StoredTournament.Valid.withLifecycle {platform : Platform} {t : StoredTournament}
    (h : t.Valid platform) (hOrderly : Orderly lifecycle) :
    StoredTournament.Valid platform { t with lifecycle := lifecycle } :=
  ⟨h.spec, h.schedule, (orderly_iff.mp hOrderly).1, (orderly_iff.mp hOrderly).2⟩

/-- No step leads out of a finished or cancelled tournament. -/
theorem canTransitionTo_ended {state next : TournamentLifecycleState}
    (h : state = .finished ∨ state = .cancelled) : state.canTransitionTo next = false := by
  rcases h with rfl | rfl <;> rfl

end Orderly

section Load

variable {s : TournamentStore} {t : StoredTournament}
  {lifecycle : List TournamentLifecycleEvent}

/-- Rows written from the expected values agree with them. -/
theorem validateRows_map {ρ β : Type} {agrees : ρ → β → Bool} {row : β → ρ} {expected : List β}
    (h : ∀ value ∈ expected, agrees (row value) value = true) :
    validateRows agrees (expected.map row) expected = .ok () := by
  have hZip : (expected.map row).zip expected = expected.map fun value => (row value, value) := by
    conv_lhs => rw [← List.map_id expected, List.map_map, List.zip_map']
    rfl
  refine bind_eq_ok.mpr ⟨(), reject_eq_ok.mpr (by simp), ?_⟩
  rw [hZip]
  refine forM_eq_ok.mpr fun pair hPair => reject_eq_ok.mpr ?_
  obtain ⟨value, hValue, rfl⟩ := List.mem_map.mp hPair
  simp [h value hValue]

theorem Holds.validateEntries (h : Holds s t lifecycle)
    (other : List TournamentLifecycleEvent) :
    validateEntries s { t with lifecycle := other } = .ok () := by
  have hSorted : (t.spec.entrants.map (entryRow t.spec.tournamentId)).insertionSort entryOrder =
      (t.spec.entrants.insertionSort seedOrder).map (entryRow t.spec.tournamentId) :=
    (List.map_insertionSort seedOrder entryOrder _ _ fun _ _ _ _ => Iff.rfl).symm
  rw [Tournament.validateEntries, h.entries, hSorted]
  exact validateRows_map fun entrant _ => by simp [entryRow]

theorem Holds.validateSeries (h : Holds s t lifecycle) (hEmitted : Emitted t.spec t.schedule)
    (other : List TournamentLifecycleEvent) :
    validateSeries s { t with lifecycle := other } = .ok () := by
  have hSorted : (t.schedule.series.map (seriesRow t.spec.tournamentId)).insertionSort
      seriesOrder = t.schedule.series.map (seriesRow t.spec.tournamentId) := by
    refine List.Pairwise.insertionSort_eq (List.pairwise_map.mpr ?_)
    refine hEmitted.series.imp fun hBefore => ?_
    exact hBefore.imp_right fun hSame => ⟨hSame.1, hSame.2.le⟩
  rw [Tournament.validateSeries, h.series, hSorted]
  exact validateRows_map fun series _ => by simp [seriesRow]

theorem Holds.validateByes (h : Holds s t lifecycle) (hEmitted : Emitted t.spec t.schedule)
    (other : List TournamentLifecycleEvent) :
    validateByes s { t with lifecycle := other } = .ok () := by
  have hSorted : (t.schedule.byes.map (byeRow t.spec.tournamentId)).insertionSort
      (fun a b => a.roundNumber ≤ b.roundNumber) =
      t.schedule.byes.map (byeRow t.spec.tournamentId) := by
    refine List.Pairwise.insertionSort_eq (List.pairwise_map.mpr ?_)
    exact hEmitted.byes.imp fun hBefore => Nat.le_of_lt hBefore
  rw [Tournament.validateByes, h.byes, hSorted]
  exact validateRows_map fun bye _ => by simp [byeRow]

theorem joined_eq {id formatSha256 : String} {createdAt : UnixMillis} {game : ScheduledMatch}
    (hRow : s.matchRows.find? (·.matchId == game.matchId) = some (matchRow id createdAt game))
    (hSeats : s.seats.filter (·.matchId == game.matchId) = seatRows id game) :
    s.joined (matchScheduleRow id formatSha256 game) =
      some ⟨matchScheduleRow id formatSha256 game, matchRow id createdAt game,
        some game.seatOneEntrantId, some game.seatTwoEntrantId, 2⟩ := by
  have hKey : (matchScheduleRow id formatSha256 game).matchId = game.matchId := rfl
  simp only [TournamentStore.joined, hKey, hRow, hSeats, seatRows]
  simp [maxText]

theorem Holds.validateMatches (h : Holds s t lifecycle) (hEmitted : Emitted t.spec t.schedule)
    (other : List TournamentLifecycleEvent) :
    validateMatches s { t with lifecycle := other } = .ok () := by
  obtain ⟨createdAt, hGames⟩ := h.matchRows
  have hSorted : (t.schedule.scheduledMatches.map (matchScheduleRow t.spec.tournamentId
      t.schedule.formatIdentity.sha256)).insertionSort (fun a b => a.sequence ≤ b.sequence) =
      t.schedule.scheduledMatches.map (matchScheduleRow t.spec.tournamentId
        t.schedule.formatIdentity.sha256) := by
    refine List.Pairwise.insertionSort_eq (List.pairwise_map.mpr ?_)
    exact hEmitted.matchRows.imp fun hBefore => Nat.le_of_lt hBefore
  have hJoined : (t.schedule.scheduledMatches.map (matchScheduleRow t.spec.tournamentId
      t.schedule.formatIdentity.sha256)).filterMap s.joined =
      t.schedule.scheduledMatches.map fun game => (⟨matchScheduleRow t.spec.tournamentId
        t.schedule.formatIdentity.sha256 game, matchRow t.spec.tournamentId createdAt game,
        some game.seatOneEntrantId, some game.seatTwoEntrantId, 2⟩ : JoinedMatch) := by
    rw [List.filterMap_map, ← List.filterMap_eq_map]
    refine List.filterMap_congr fun game hGame => ?_
    obtain ⟨hRow, hSeats⟩ := hGames game hGame
    exact joined_eq hRow hSeats
  rw [Tournament.validateMatches, h.matchSchedule, hSorted, hJoined]
  exact validateRows_map fun game _ => by simp [matchAgrees, matchScheduleRow, matchRow]

/-- The event rows are read back as the events they were written from. -/
theorem Holds.loadLifecycle (h : Holds s t lifecycle) (hOrderly : Orderly lifecycle) :
    loadLifecycle (s.lifecycleRows t.spec.tournamentId) = .ok lifecycle := by
  have hIncreasing : lifecycle.Pairwise fun a b => a.sequence < b.sequence := by
    refine List.pairwise_map.mp ?_
    rw [hOrderly.numbered]
    exact List.pairwise_lt_range
  have hSorted : (lifecycle.map (eventRow t.spec.tournamentId)).insertionSort
      (fun a b => a.sequence ≤ b.sequence) = lifecycle.map (eventRow t.spec.tournamentId) := by
    refine List.Pairwise.insertionSort_eq (List.pairwise_map.mpr ?_)
    exact hIncreasing.imp fun hBefore => Nat.le_of_lt hBefore
  rw [TournamentStore.lifecycleRows, h.events, hSorted, Tournament.loadLifecycle, mapM_eq_ok,
    List.forall₂_map_left_iff]
  refine List.forall₂_same.mpr fun event _ => ?_
  simp only [eventRow, lifecycleState_asStr]
  rfl

/-- What the header row repeats of the last event. -/
def mark (lifecycle : List TournamentLifecycleEvent) :
    Option (TournamentLifecycleState × UnixMillis) :=
  lifecycle.getLast?.map fun event => (event.state, event.occurredAt)

/-- The header row of an earlier lifecycle agrees with a later one that ends in the
same state at the same time. -/
theorem validateHeader_eq {first current last : TournamentLifecycleEvent}
    (hHead : lifecycle.head? = some first) (hLast : lifecycle.getLast? = some last) :
    validateHeader (tournamentRow t.spec first current, scheduleRow t first)
      ⟨t.spec, t.schedule, t.swissProgress, lifecycle⟩ =
      if current.state = last.state ∧ current.occurredAt = last.occurredAt then .ok ()
      else .error .corrupt := by
  have hState : current.state.asStr ≠ last.state.asStr ↔ current.state ≠ last.state :=
    asStr_injective.ne_iff
  simp only [validateHeader, hHead, hLast, okOr, bind, Except.bind, tournamentRow, scheduleRow,
    hState]
  by_cases hSame : current.state = last.state ∧ current.occurredAt = last.occurredAt
  · simp [reject, hSame.1, hSame.2]
  · rw [if_neg hSame, reject, if_pos]
    by_cases h : current.state = last.state
    · simp [h] at hSame ⊢
      exact hSame
    · simp [h]

/-- A load returns the tournament exactly when its first two queries saw the same
last event. -/
theorem load_eq {platform : Platform} {reads : LoadReads} {later : List TournamentLifecycleEvent}
    {l₁ l₂ l₃ l₄ : List TournamentLifecycleEvent} (hValid : t.Valid platform)
    (hHeader : Holds reads.header t lifecycle)
    (hLifecycle : Holds reads.lifecycle t (lifecycle ++ later))
    (hOrderly : Orderly (lifecycle ++ later)) (hEntries : Holds reads.entries t l₁)
    (hSeries : Holds reads.series t l₂) (hMatches : Holds reads.matchRows t l₃)
    (hByes : Holds reads.byes t l₄) :
    reads.load platform t.spec.tournamentId =
      if mark lifecycle = mark (lifecycle ++ later) then
        .ok { t with lifecycle := lifecycle ++ later }
      else .error .corrupt := by
  obtain ⟨first, current, hFirst, hCurrent, hRow, hDocs⟩ := hHeader.header
  obtain ⟨last, hLast⟩ : ∃ last, (lifecycle ++ later).getLast? = some last := by
    obtain ⟨_, last, -, hLast, -⟩ := hLifecycle.header
    exact ⟨last, hLast⟩
  have hHead : (lifecycle ++ later).head? = some first := by
    rw [List.head?_append, hFirst]
    rfl
  have hEmitted := expected_emitted hValid.schedule
  have hFound : reads.header.header t.spec.tournamentId =
      some (tournamentRow t.spec first current, scheduleRow t first) := by
    rw [TournamentStore.header, hRow, hDocs]
  have hId : validateId t.spec.tournamentId = .ok () :=
    reject_eq_ok.mpr (by simp [hValid.spec.tournamentId])
  have hWhole : StoredTournament.validate platform ⟨t.spec, t.schedule, t.swissProgress,
      lifecycle ++ later⟩ = .ok () :=
    StoredTournament.validate_eq_ok.mpr (hValid.withLifecycle hOrderly)
  have hMarks : mark lifecycle = mark (lifecycle ++ later) ↔
      current.state = last.state ∧ current.occurredAt = last.occurredAt := by
    simp [mark, hCurrent, hLast]
  have hConfig : reject ((tournamentRow t.spec first current).config ≠ (scheduleRow t first).spec)
      RepositoryError.corrupt = .ok () := reject_eq_ok.mpr (not_not.mpr rfl)
  have hDocument : (⟨(scheduleRow t first).spec, (scheduleRow t first).schedule,
      (scheduleRow t first).swissProgress, lifecycle ++ later⟩ : StoredTournament) =
      ⟨t.spec, t.schedule, t.swissProgress, lifecycle ++ later⟩ := rfl
  simp only [LoadReads.load, hId, hFound, okOr, ok_bind, hConfig,
    hLifecycle.loadLifecycle hOrderly, hDocument, hWhole, mapErr, validateHeader_eq hHead hLast]
  by_cases hSame : current.state = last.state ∧ current.occurredAt = last.occurredAt
  · rw [if_pos hSame, if_pos (hMarks.mpr hSame), ok_bind]
    refine bind_eq_ok.mpr ⟨(), hEntries.validateEntries _, ?_⟩
    refine bind_eq_ok.mpr ⟨(), hSeries.validateSeries hEmitted _, ?_⟩
    refine bind_eq_ok.mpr ⟨(), hMatches.validateMatches hEmitted _, ?_⟩
    exact bind_eq_ok.mpr ⟨(), hByes.validateByes hEmitted _, rfl⟩
  · rw [if_neg hSame, if_neg (mt hMarks.mp hSame), error_bind]

end Load

end WordArena.Tournament
