import WordArena.Tournament.Emission

/-! What the transactions of the tournament repository leave behind. An insert
appends the rows of one new tournament; a transition appends one event and moves
the header. No transaction touches the rows of another tournament. -/
namespace WordArena.Tournament

open Fallible WordArena.Engine WordArena.Application
open WordArena.Service (RepositoryError)

section Rows

def entryRow (id : String) (entrant : TournamentEntrant) : EntryRow :=
  ⟨id, entrant.entrantId, entrant.seedNumber, entrant.manifestSha256⟩

def seriesRow (id : String) (series : ScheduledSeries) : SeriesRow :=
  ⟨series.seriesId, id, series.roundNumber, series.tableNumber, series.entrantA, series.entrantB,
    series.matchIds.length, "pending"⟩

def matchRow (id : String) (createdAt : UnixMillis) (game : ScheduledMatch) : MatchRow :=
  ⟨game.matchId, id, game.sequence, game.profile.language, game.profile.rulesetId,
    game.profile.rulesetSha256, game.profile.lexicon.packId, game.profile.lexicon.packVersion,
    game.profile.lexicon.contentSha256, "pending", createdAt, createdAt⟩

def matchScheduleRow (id formatSha256 : String) (game : ScheduledMatch) : MatchScheduleRow :=
  ⟨game.matchId, id, game.seriesId, game.sequence, game.roundNumber, game.tableNumber,
    game.seriesGameNumber, game.gameSeedCommitmentSha256, formatSha256⟩

def seatRows (id : String) (game : ScheduledMatch) : List SeatRow :=
  [⟨game.matchId, id, 1, game.seatOneEntrantId⟩, ⟨game.matchId, id, 2, game.seatTwoEntrantId⟩]

def byeRow (id : String) (bye : TournamentBye) : ByeRow := ⟨id, bye.roundNumber, bye.entrantId⟩

def eventRow (id : String) (event : TournamentLifecycleEvent) : EventRow :=
  ⟨id, event.sequence, event.schemaVersion, event.state.asStr, event.occurredAt⟩

def tournamentRow (spec : TournamentSpec) (initial current : TournamentLifecycleEvent) :
    TournamentRow :=
  ⟨spec.tournamentId, formatSchemaVersion, spec.format.kind, current.state.asStr, spec,
    initial.occurredAt, current.occurredAt⟩

def scheduleRow (t : StoredTournament) (initial : TournamentLifecycleEvent) : ScheduleRow :=
  ⟨t.spec.tournamentId, formatSchemaVersion, scheduleSchemaVersion, lifecycleSchemaVersion,
    t.schedule.formatIdentity.sha256, t.spec, t.schedule, t.swissProgress, initial.occurredAt⟩

end Rows

section Inserts

variable {s s' : TournamentStore}

theorem insertRow_eq_ok {ρ : Type} {check : ρ → Bool} {clash : ρ → ρ → Bool} {refers : ρ → Bool}
    {row : ρ} {rows rows' : List ρ} (h : insertRow check clash refers row rows = .ok rows') :
    rows' = rows ++ [row] ∧ ∀ other ∈ rows, clash row other = false := by
  simp only [insertRow, bind_eq_ok, reject_eq_ok, pure_eq_ok] at h
  obtain ⟨_, -, _, hClash, _, -, rfl⟩ := h
  refine ⟨rfl, ?_⟩
  simpa using hClash

@[simp] theorem fitI64_eq_ok {n m : Nat} : fitI64 n = .ok m ↔ n < 2 ^ 63 ∧ m = n := by
  unfold fitI64
  split <;> simp_all [eq_comm]

/-- A loop whose every turn appends the row of its element appends all the rows. -/
theorem foldlM_appends {σ α ρ : Type} {f : σ → α → Except RepositoryError σ}
    (add : List ρ → σ → σ) (row : α → ρ) (hNil : ∀ s, add [] s = s)
    (hAppend : ∀ l l' s, add (l ++ l') s = add l' (add l s))
    (hStep : ∀ s x s', f s x = .ok s' → s' = add [row x] s) {xs : List α} {s s' : σ}
    (h : xs.foldlM f s = .ok s') : s' = add (xs.map row) s := by
  induction xs generalizing s with
  | nil =>
      cases pure_eq_ok.mp h
      exact (hNil _).symm
  | cons x xs ih =>
      rw [List.foldlM_cons, bind_eq_ok] at h
      obtain ⟨middle, hHead, hTail⟩ := h
      rw [ih hTail, hStep _ _ _ hHead, ← hAppend]
      rfl

theorem insertEntries_eq_ok {id : String} {entrants : List TournamentEntrant}
    (h : entrants.foldlM (insertEntry id) s = .ok s') :
    s' = { s with entries := s.entries ++ entrants.map (entryRow id) } := by
  refine foldlM_appends (fun rows s => { s with entries := s.entries ++ rows }) (entryRow id)
    (fun _ => by simp) (fun _ _ _ => by simp) ?_ h
  intro s x s' hStep
  simp only [insertEntry, bind_eq_ok, pure_eq_ok] at hStep
  obtain ⟨rows, hRows, rfl⟩ := hStep
  obtain ⟨rfl, -⟩ := insertRow_eq_ok hRows
  rfl

theorem insertAllSeries_eq_ok {id : String} {series : List ScheduledSeries}
    (h : series.foldlM (insertSeries id) s = .ok s') :
    s' = { s with series := s.series ++ series.map (seriesRow id) } := by
  refine foldlM_appends (fun rows s => { s with series := s.series ++ rows }) (seriesRow id)
    (fun _ => by simp) (fun _ _ _ => by simp) ?_ h
  intro s x s' hStep
  simp only [insertSeries, bind_eq_ok, fitI64_eq_ok, pure_eq_ok] at hStep
  obtain ⟨_, ⟨-, rfl⟩, rows, hRows, rfl⟩ := hStep
  obtain ⟨rfl, -⟩ := insertRow_eq_ok hRows
  rfl

theorem insertByes_eq_ok {id : String} {byes : List TournamentBye}
    (h : byes.foldlM (insertBye id) s = .ok s') :
    s' = { s with byes := s.byes ++ byes.map (byeRow id) } := by
  refine foldlM_appends (fun rows s => { s with byes := s.byes ++ rows }) (byeRow id)
    (fun _ => by simp) (fun _ _ _ => by simp) ?_ h
  intro s x s' hStep
  simp only [insertBye, bind_eq_ok, pure_eq_ok] at hStep
  obtain ⟨rows, hRows, rfl⟩ := hStep
  obtain ⟨rfl, -⟩ := insertRow_eq_ok hRows
  rfl

theorem insertLifecycle_eq_ok {id : String} {event : TournamentLifecycleEvent}
    (h : insertLifecycle id s event = .ok s') :
    s' = { s with events := s.events ++ [eventRow id event] } := by
  simp only [insertLifecycle, bind_eq_ok, fitI64_eq_ok, pure_eq_ok] at h
  obtain ⟨_, ⟨-, rfl⟩, rows, hRows, rfl⟩ := h
  obtain ⟨rfl, -⟩ := insertRow_eq_ok hRows
  rfl

theorem insertEvents_eq_ok {id : String} {events : List TournamentLifecycleEvent}
    (h : events.foldlM (insertLifecycle id) s = .ok s') :
    s' = { s with events := s.events ++ events.map (eventRow id) } :=
  foldlM_appends (fun rows s => { s with events := s.events ++ rows }) (eventRow id)
    (fun _ => by simp) (fun _ _ _ => by simp) (fun _ _ _ hStep => insertLifecycle_eq_ok hStep) h

/-- The rows of some matches, in the three tables they go to. -/
def TournamentStore.addMatches (id formatSha256 : String) (createdAt : UnixMillis)
    (games : List ScheduledMatch) (s : TournamentStore) : TournamentStore :=
  { s with
    matchRows := s.matchRows ++ games.map (matchRow id createdAt)
    matchSchedule := s.matchSchedule ++ games.map (matchScheduleRow id formatSha256)
    seats := s.seats ++ games.flatMap (seatRows id) }

theorem insertSeat_eq_ok {matchId id : String} {seat : Nat × String}
    (h : insertSeat matchId id s seat = .ok s') :
    s' = { s with seats := s.seats ++ [⟨matchId, id, seat.1, seat.2⟩] } := by
  simp only [insertSeat, bind_eq_ok, pure_eq_ok] at h
  obtain ⟨rows, hRows, rfl⟩ := h
  obtain ⟨rfl, -⟩ := insertRow_eq_ok hRows
  rfl

/-- A new match takes an unused identifier. -/
theorem insertMatch_eq_ok {id formatSha256 : String} {createdAt : UnixMillis}
    {game : ScheduledMatch} (h : insertMatch id formatSha256 createdAt s game = .ok s') :
    s' = s.addMatches id formatSha256 createdAt [game] ∧
      ∀ row ∈ s.matchRows, row.matchId ≠ game.matchId := by
  obtain ⟨first, hRow, h⟩ := bind_eq_ok.mp h
  obtain ⟨second, hSchedule, h⟩ := bind_eq_ok.mp h
  simp only [insertMatchRow, bind_eq_ok, fitI64_eq_ok, pure_eq_ok] at hRow
  obtain ⟨_, ⟨-, rfl⟩, rows, hRows, rfl⟩ := hRow
  obtain ⟨rfl, hClash⟩ := insertRow_eq_ok hRows
  simp only [insertMatchSchedule, bind_eq_ok, fitI64_eq_ok, pure_eq_ok] at hSchedule
  obtain ⟨_, ⟨-, rfl⟩, rows, hRows, rfl⟩ := hSchedule
  obtain ⟨rfl, -⟩ := insertRow_eq_ok hRows
  rw [List.foldlM_cons, bind_eq_ok] at h
  obtain ⟨third, hOne, h⟩ := h
  rw [List.foldlM_cons, bind_eq_ok] at h
  obtain ⟨fourth, hTwo, h⟩ := h
  cases pure_eq_ok.mp h
  rw [insertSeat_eq_ok hTwo, insertSeat_eq_ok hOne]
  refine ⟨?_, ?_⟩
  · simp [TournamentStore.addMatches, matchRow, matchScheduleRow, seatRows]
  · intro row hMem hSame
    have := hClash row hMem
    simp [hSame] at this

theorem insertMatches_eq_ok {id formatSha256 : String} {createdAt : UnixMillis}
    {games : List ScheduledMatch}
    (h : games.foldlM (insertMatch id formatSha256 createdAt) s = .ok s') :
    s' = s.addMatches id formatSha256 createdAt games := by
  have hAll := foldlM_appends (TournamentStore.addMatches id formatSha256 createdAt) (fun game => game)
    (fun _ => by simp [TournamentStore.addMatches])
    (fun _ _ _ => by simp [TournamentStore.addMatches])
    (fun _ _ _ hStep => (insertMatch_eq_ok hStep).1) h
  simpa using hAll

theorem insertMatches_nodup {id formatSha256 : String} {createdAt : UnixMillis}
    {games : List ScheduledMatch}
    (h : games.foldlM (insertMatch id formatSha256 createdAt) s = .ok s')
    (hNodup : (s.matchRows.map (·.matchId)).Nodup) :
    (s'.matchRows.map (·.matchId)).Nodup := by
  refine foldlM_invariant (fun s => (s.matchRows.map (·.matchId)).Nodup) h hNodup ?_
  intro s game s' _ hBefore hStep
  obtain ⟨rfl, hFresh⟩ := insertMatch_eq_ok hStep
  rw [TournamentStore.addMatches, List.map_append, List.nodup_append]
  refine ⟨hBefore, List.nodup_singleton _, ?_⟩
  rintro a ha b hb rfl
  obtain ⟨row, hRow, rfl⟩ := List.mem_map.mp ha
  rw [List.map_singleton, List.map_singleton, List.mem_singleton] at hb
  exact hFresh row hRow hb

/-- Everything a successful insert does. -/
theorem insert_eq_ok {platform : Platform} {t : StoredTournament} {u : Unit}
    (h : s.insert platform t = .ok (u, s')) :
    ∃ initial current, t.Valid platform ∧ t.lifecycle.head? = some initial ∧
      t.lifecycle.getLast? = some current ∧
      (∀ row ∈ s.tournaments, row.tournamentId ≠ t.spec.tournamentId) ∧
      ((s.matchRows.map (·.matchId)).Nodup → (s'.matchRows.map (·.matchId)).Nodup) ∧
      s' = { s with
        tournaments := s.tournaments ++ [tournamentRow t.spec initial current]
        entries := s.entries ++ t.spec.entrants.map (entryRow t.spec.tournamentId)
        schedules := s.schedules ++ [scheduleRow t initial]
        series := s.series ++ t.schedule.series.map (seriesRow t.spec.tournamentId)
        matchRows := s.matchRows ++ t.schedule.scheduledMatches.map
          (matchRow t.spec.tournamentId initial.occurredAt)
        matchSchedule := s.matchSchedule ++ t.schedule.scheduledMatches.map
          (matchScheduleRow t.spec.tournamentId t.schedule.formatIdentity.sha256)
        seats := s.seats ++ t.schedule.scheduledMatches.flatMap (seatRows t.spec.tournamentId)
        byes := s.byes ++ t.schedule.byes.map (byeRow t.spec.tournamentId)
        events := s.events ++ t.lifecycle.map (eventRow t.spec.tournamentId) } := by
  simp only [TournamentStore.insert, bind_eq_ok, mapErr_eq_ok, okOr_eq_ok, pure_eq_ok,
    Prod.mk.injEq] at h
  obtain ⟨_, hValid, initial, hInitial, current, hCurrent, s₁, h₁, s₂, h₂, s₃, h₃, s₄, h₄, s₅, h₅,
    s₆, h₆, s₇, h₇, -, rfl⟩ := h
  simp only [insertTournamentRow, bind_eq_ok, pure_eq_ok] at h₁
  obtain ⟨rows, hRows, rfl⟩ := h₁
  obtain ⟨rfl, hClash⟩ := insertRow_eq_ok hRows
  have hEntries := insertEntries_eq_ok h₂
  subst hEntries
  simp only [insertSchedule, bind_eq_ok, pure_eq_ok] at h₃
  obtain ⟨rows, hRows, rfl⟩ := h₃
  obtain ⟨rfl, -⟩ := insertRow_eq_ok hRows
  have hSeries := insertAllSeries_eq_ok h₄
  subst hSeries
  have hNodup := insertMatches_nodup h₅
  have hMatches := insertMatches_eq_ok h₅
  subst hMatches
  have hByes := insertByes_eq_ok h₆
  subst hByes
  have hEvents := insertEvents_eq_ok h₇
  subst hEvents
  refine ⟨initial, current, StoredTournament.validate_eq_ok.mp hValid, hInitial, hCurrent, ?_,
    hNodup, rfl⟩
  intro row hRow hSame
  have := hClash row hRow
  simp [hSame] at this

end Inserts

section Transitions

variable {s s' : TournamentStore}

@[simp] theorem lifecycleState_asStr (state : TournamentLifecycleState) :
    lifecycleState state.asStr = .ok state := by
  cases state <;> rfl

theorem asStr_injective : Function.Injective TournamentLifecycleState.asStr := by
  intro a b h
  have hParsed := congrArg lifecycleState h
  rw [lifecycleState_asStr, lifecycleState_asStr] at hParsed
  exact Except.ok.inj hParsed

/-- A fold that keeps what it has or takes the next row ends with one of them. -/
theorem foldl_kept {later : Option EventRow → EventRow → Option EventRow}
    (h : ∀ best next row, later best next = some row → best = some row ∨ next = row)
    {rows : List EventRow} {best : Option EventRow} {row : EventRow}
    (hFold : rows.foldl later best = some row) : best = some row ∨ row ∈ rows := by
  induction rows generalizing best with
  | nil => exact .inl hFold
  | cons next rest ih =>
      rcases ih hFold with hBest | hRest
      · rcases h best next row hBest with hKept | rfl
        · exact .inl hKept
        · exact .inr List.mem_cons_self
      · exact .inr (List.mem_cons_of_mem _ hRest)

theorem latest_mem {rows : List EventRow} {row : EventRow} (h : latest rows = some row) :
    row ∈ rows := by
  refine (foldl_kept (fun best next found hStep => ?_) h).resolve_left (by simp)
  cases best with
  | none => exact .inr (Option.some.inj hStep)
  | some prior =>
      dsimp only at hStep
      split at hStep
      · exact .inr (Option.some.inj hStep)
      · exact .inl hStep

theorem latest_concat (rows : List EventRow) (row : EventRow)
    (h : ∀ other ∈ rows, other.sequence < row.sequence) : latest (rows ++ [row]) = some row := by
  have hBest : ∀ found, latest rows = some found → found ∈ rows := fun found h => latest_mem h
  rw [latest, List.foldl_append, List.foldl_cons, List.foldl_nil, ← latest]
  cases hLatest : latest rows with
  | none => rfl
  | some found => exact if_pos (h found (hBest found hLatest))

/-- The header rows a transition moves. -/
def moves (id : String) (current : TournamentLifecycleState) (occurredAt : UnixMillis)
    (header : TournamentRow) : Bool :=
  header.tournamentId == id && header.status == current.asStr &&
    decide (header.updatedAt ≤ occurredAt)

/-- Everything a successful transition does. -/
theorem transition_eq_ok {id : String} {expectedSequence : Nat}
    {state : TournamentLifecycleState} {occurredAt : UnixMillis}
    {event : TournamentLifecycleEvent}
    (h : s.transition id expectedSequence state occurredAt = .ok (event, s')) :
    ∃ row current, 0 ≤ occurredAt ∧
      latest (s.events.filter (·.tournamentId == id)) = some row ∧
      lifecycleState row.state = .ok current ∧ row.sequence = expectedSequence ∧
      current.canTransitionTo state = true ∧ row.occurredAt ≤ occurredAt ∧
      event = ⟨lifecycleSchemaVersion, expectedSequence + 1, state, occurredAt⟩ ∧
      s' = { s with
        events := s.events ++ [eventRow id event]
        tournaments := Table.update (moves id current occurredAt)
          (fun header => { header with status := state.asStr, updatedAt := occurredAt })
          s.tournaments } := by
  simp only [TournamentStore.transition, bind_eq_ok, reject_eq_ok, okOr_eq_ok, pure_eq_ok, not_or,
    not_not, Prod.mk.injEq] at h
  obtain ⟨_, -, _, hTime, _, -, row, hRow, current, hCurrent, _, ⟨hSequence, hCan, hAfter⟩, s₁, h₁,
    rows, hRows, _, -, rfl, rfl⟩ := h
  have hInserted := insertLifecycle_eq_ok h₁
  subst hInserted
  obtain ⟨-, rfl⟩ := Table.updateWhere_eq_some.mp hRows
  exact ⟨row, current, Int.not_lt.mp hTime, hRow, hCurrent, hSequence, by simpa using hCan,
    Int.not_lt.mp hAfter, rfl, rfl⟩

end Transitions

section Keyed

variable {s s' : TournamentStore}

/-- Keys are unique, and every row belongs to a tournament or a match that is
there. -/
structure Keyed (s : TournamentStore) : Prop where
  tournamentIds : (s.tournaments.map (·.tournamentId)).Nodup
  matchIds : (s.matchRows.map (·.matchId)).Nodup
  entries : ∀ row ∈ s.entries, row.tournamentId ∈ s.tournaments.map (·.tournamentId)
  schedules : ∀ row ∈ s.schedules, row.tournamentId ∈ s.tournaments.map (·.tournamentId)
  series : ∀ row ∈ s.series, row.tournamentId ∈ s.tournaments.map (·.tournamentId)
  matchSchedule : ∀ row ∈ s.matchSchedule,
    row.tournamentId ∈ s.tournaments.map (·.tournamentId)
  byes : ∀ row ∈ s.byes, row.tournamentId ∈ s.tournaments.map (·.tournamentId)
  events : ∀ row ∈ s.events, row.tournamentId ∈ s.tournaments.map (·.tournamentId)
  seats : ∀ row ∈ s.seats, row.matchId ∈ s.matchRows.map (·.matchId)

theorem Keyed.fresh (rulesets : List (String × String))
    (lexicons : List (String × String × String)) (manifests : List String) :
    Keyed (TournamentStore.fresh rulesets lexicons manifests) := by
  constructor <;> simp [TournamentStore.fresh]

/-- Old rows keep their owner, and new rows have the new one. -/
theorem owned_append {ρ : Type} {owner : ρ → String} {rows added : List ρ} {owners : List String}
    {id : String} (h : ∀ row ∈ rows, owner row ∈ owners) (hAdded : ∀ row ∈ added, owner row = id) :
    ∀ row ∈ rows ++ added, owner row ∈ owners ++ [id] := by
  intro row hRow
  rcases List.mem_append.mp hRow with hOld | hNew
  · exact List.mem_append_left _ (h row hOld)
  · rw [hAdded row hNew]
    exact List.mem_append_right _ List.mem_cons_self

theorem Keyed.insert {platform : Platform} {t : StoredTournament} {u : Unit} (hKeyed : Keyed s)
    (h : s.insert platform t = .ok (u, s')) : Keyed s' := by
  obtain ⟨initial, current, -, -, -, hFresh, hMatches, rfl⟩ := insert_eq_ok h
  have hIds : (s.tournaments ++ [tournamentRow t.spec initial current]).map (·.tournamentId) =
      s.tournaments.map (·.tournamentId) ++ [t.spec.tournamentId] := by
    rw [List.map_append]
    rfl
  constructor
  · rw [hIds, List.nodup_append]
    refine ⟨hKeyed.tournamentIds, List.nodup_singleton _, ?_⟩
    rintro a ha b hb rfl
    obtain ⟨row, hRow, rfl⟩ := List.mem_map.mp ha
    exact hFresh row hRow (List.mem_singleton.mp hb)
  · exact hMatches hKeyed.matchIds
  · rw [hIds]
    exact owned_append hKeyed.entries (by simp [entryRow])
  · rw [hIds]
    exact owned_append hKeyed.schedules (by simp [scheduleRow])
  · rw [hIds]
    exact owned_append hKeyed.series (by simp [seriesRow])
  · rw [hIds]
    exact owned_append hKeyed.matchSchedule (by simp [matchScheduleRow])
  · rw [hIds]
    exact owned_append hKeyed.byes (by simp [byeRow])
  · rw [hIds]
    exact owned_append hKeyed.events (by simp [eventRow])
  · intro row hRow
    rw [List.map_append, List.mem_append]
    rcases List.mem_append.mp hRow with hOld | hNew
    · exact .inl (hKeyed.seats row hOld)
    · obtain ⟨game, hGame, hSeat⟩ := List.mem_flatMap.mp hNew
      refine .inr (List.mem_map.mpr ⟨matchRow _ _ game, List.mem_map_of_mem hGame, ?_⟩)
      rw [seatRows, List.mem_cons, List.mem_singleton] at hSeat
      rcases hSeat with rfl | rfl <;> rfl

theorem Keyed.transition {id : String} {expectedSequence : Nat}
    {state : TournamentLifecycleState} {occurredAt : UnixMillis}
    {event : TournamentLifecycleEvent} (hKeyed : Keyed s)
    (h : s.transition id expectedSequence state occurredAt = .ok (event, s')) : Keyed s' := by
  obtain ⟨row, current, -, hLatest, -, -, -, -, rfl, rfl⟩ := transition_eq_ok h
  have hIds : (Table.update (moves id current occurredAt)
      (fun header => { header with status := state.asStr, updatedAt := occurredAt })
      s.tournaments).map (·.tournamentId) = s.tournaments.map (·.tournamentId) :=
    Table.map_update fun _ => rfl
  have hOwner : id ∈ s.tournaments.map (·.tournamentId) := by
    have hRow := latest_mem hLatest
    rw [List.mem_filter, beq_iff_eq] at hRow
    exact hRow.2 ▸ hKeyed.events row hRow.1
  refine ⟨?_, hKeyed.matchIds, ?_, ?_, ?_, ?_, ?_, ?_, hKeyed.seats⟩
  all_goals rw [hIds]
  · exact hKeyed.tournamentIds
  · exact hKeyed.entries
  · exact hKeyed.schedules
  · exact hKeyed.series
  · exact hKeyed.matchSchedule
  · exact hKeyed.byes
  · intro other hOther
    rcases List.mem_append.mp hOther with hOld | hNew
    · exact hKeyed.events other hOld
    · rw [List.mem_singleton.mp hNew]
      exact hOwner

end Keyed

end WordArena.Tournament
