import WordArena.Tournament.Lifecycle

/-! Loads of a stored tournament among the requests of other callers: what the
lifecycle has become by then, and which loads are answered with it. -/
namespace WordArena.Tournament

open Fallible WordArena.Engine WordArena.Application
open WordArena.Service (RepositoryError)

section Runs

variable (platform : Platform) {s : TournamentStore} {t : StoredTournament}
  {lifecycle : List TournamentLifecycleEvent}

/-- The expected sequence and the event of a transition that succeeded. -/
def acceptedStep (id : String) (s : TournamentStore) :
    TournamentRequest → List (Nat × TournamentLifecycleEvent)
  | .insert _ => []
  | .transition tournamentId expectedSequence state occurredAt =>
      if tournamentId = id then
        match s.transition tournamentId expectedSequence state occurredAt with
        | .ok (event, _) => [(expectedSequence, event)]
        | .error _ => []
      else []

/-- The successful transitions of one tournament, in order. -/
def accepted (platform : Platform) (id : String) :
    TournamentStore → List TournamentRequest → List (Nat × TournamentLifecycleEvent)
  | _, [] => []
  | s, request :: requests => acceptedStep id s request ++
      accepted platform id ((tournamentMachine platform).step s request).2 requests

theorem accepted_append (id : String) (s : TournamentStore)
    (first second : List TournamentRequest) :
    accepted platform id s (first ++ second) = accepted platform id s first ++
      accepted platform id ((tournamentMachine platform).after s first) second := by
  induction first generalizing s with
  | nil => rfl
  | cons request first ih =>
      rw [List.cons_append, accepted, accepted, ih, List.append_assoc, Machine.after_cons]

/-- A store that holds a tournament with an orderly lifecycle. -/
structure Keeps (s : TournamentStore) (t : StoredTournament)
    (lifecycle : List TournamentLifecycleEvent) : Prop where
  keyed : Keyed s
  holds : Holds s t lifecycle
  orderly : Orderly lifecycle

/-- One request extends the lifecycle by the event it returns, if any. -/
theorem Keeps.step (h : Keeps s t lifecycle) (request : TournamentRequest) :
    Keeps ((tournamentMachine platform).step s request).2 t (lifecycle ++
      (acceptedStep t.spec.tournamentId s request).map Prod.snd) := by
  cases request with
  | insert other =>
      simp only [acceptedStep, List.map_nil, List.append_nil]
      rcases transact_cases s (s.insert platform other) with ⟨u, next, hInsert, hDone⟩ |
        ⟨e, -, hDone⟩
      · rw [tournamentMachine]
        simp only [hDone]
        exact ⟨h.keyed.insert hInsert, h.holds.insert h.keyed hInsert, h.orderly⟩
      · rw [tournamentMachine]
        simp only [hDone]
        exact h
  | transition id expectedSequence state occurredAt =>
      rcases transact_cases s (s.transition id expectedSequence state occurredAt) with
        ⟨event, next, hMoved, hDone⟩ | ⟨e, hFailed, hDone⟩
      · rw [tournamentMachine]
        simp only [hDone]
        by_cases hId : id = t.spec.tournamentId
        · subst hId
          obtain ⟨current, hCurrent, hSequence, hCan, hAfter, hTime, rfl, hHolds⟩ :=
            h.holds.transition h.orderly.numbered hMoved
          simp only [acceptedStep, if_pos, hMoved, List.map_singleton]
          refine ⟨h.keyed.transition hMoved, hHolds, ?_⟩
          exact h.orderly.concat hCurrent rfl hTime (by rw [hSequence]) hCan hAfter
        · simp only [acceptedStep, if_neg hId, List.map_nil, List.append_nil]
          exact ⟨h.keyed.transition hMoved, h.holds.transition_other hId hMoved, h.orderly⟩
      · rw [tournamentMachine]
        simp only [hDone]
        have hNone : acceptedStep t.spec.tournamentId s
            (.transition id expectedSequence state occurredAt) = [] := by
          simp only [acceptedStep, hFailed, ite_self]
        rw [hNone, List.map_nil, List.append_nil]
        exact h

/-- Any run extends the lifecycle by exactly the events it returned. -/
theorem Keeps.after (h : Keeps s t lifecycle) (requests : List TournamentRequest) :
    Keeps ((tournamentMachine platform).after s requests) t (lifecycle ++
      (accepted platform t.spec.tournamentId s requests).map Prod.snd) := by
  induction requests generalizing s lifecycle with
  | nil => simpa [accepted] using h
  | cons request requests ih =>
      have hNext := ih (h.step platform request)
      rw [List.append_assoc, ← List.map_append] at hNext
      exact hNext

/-- A successful transition numbers its event after the one it expected. -/
theorem accepted_sequence {id : String} {requests : List TournamentRequest} :
    ∀ entry ∈ accepted platform id s requests, entry.2.sequence = entry.1 + 1 := by
  induction requests generalizing s with
  | nil => exact fun entry hEntry => by cases hEntry
  | cons request requests ih =>
      intro entry hEntry
      rcases List.mem_append.mp hEntry with hHere | hLater
      · cases request with
        | insert other => cases hHere
        | transition other expectedSequence state occurredAt =>
            simp only [acceptedStep] at hHere
            split at hHere
            · split at hHere
              · rename_i event next hMoved
                obtain ⟨_, _, -, -, -, -, -, -, hEvent, -⟩ := transition_eq_ok hMoved
                rw [List.mem_singleton.mp hHere, hEvent]
              · cases hHere
            · cases hHere
      · exact ih entry hLater

/-- No expected sequence is accepted twice. -/
theorem Keeps.accepted_nodup (h : Keeps s t lifecycle) (requests : List TournamentRequest) :
    ((accepted platform t.spec.tournamentId s requests).map Prod.fst).Nodup := by
  have hNumbered := (h.after platform requests).orderly.numbered
  have hNodup : ((accepted platform t.spec.tournamentId s requests).map
      fun entry => entry.2.sequence).Nodup := by
    have hAll := hNumbered ▸ List.nodup_range
    rw [List.map_append, List.map_map] at hAll
    exact (List.nodup_append.mp hAll).2.1
  have hSame : (accepted platform t.spec.tournamentId s requests).map
      (fun entry => entry.2.sequence) =
      ((accepted platform t.spec.tournamentId s requests).map Prod.fst).map (· + 1) := by
    rw [List.map_map]
    exact List.map_congr_left fun entry hEntry => accepted_sequence platform entry hEntry
  rw [hSame] at hNodup
  exact hNodup.of_map _

/-- A tournament that has ended takes no further transition. -/
theorem Keeps.ended (h : Keeps s t lifecycle) {current : TournamentLifecycleEvent}
    (hCurrent : lifecycle.getLast? = some current)
    (hEnded : current.state = .finished ∨ current.state = .cancelled) (expectedSequence : Nat)
    (state : TournamentLifecycleState) (occurredAt : UnixMillis) :
    ∃ e, s.transition t.spec.tournamentId expectedSequence state occurredAt = .error e := by
  rcases ok_or_error (s.transition t.spec.tournamentId expectedSequence state occurredAt) with
    ⟨⟨event, next⟩, hMoved⟩ | hFailed
  · obtain ⟨last, hLast, -, hCan, -⟩ := h.holds.transition h.orderly.numbered hMoved
    rw [hCurrent, Option.some.injEq] at hLast
    subst hLast
    rw [canTransitionTo_ended hEnded] at hCan
    cases hCan
  · exact hFailed

theorem Keyed.after {s : TournamentStore} (h : Keyed s) (requests : List TournamentRequest) :
    Keyed ((tournamentMachine platform).after s requests) := by
  refine Machine.after_invariant _ ?_ h requests
  intro s request hKeyed
  cases request with
  | insert other =>
      rw [tournamentMachine]
      rcases transact_cases s (s.insert platform other) with ⟨u, next, hInsert, hDone⟩ |
        ⟨e, -, hDone⟩
      · simp only [hDone]
        exact hKeyed.insert hInsert
      · simp only [hDone]
        exact hKeyed
  | transition id expectedSequence state occurredAt =>
      rw [tournamentMachine]
      rcases transact_cases s (s.transition id expectedSequence state occurredAt) with
        ⟨event, next, hMoved, hDone⟩ | ⟨e, -, hDone⟩
      · simp only [hDone]
        exact hKeyed.transition hMoved
      · simp only [hDone]
        exact hKeyed

/-- Inserted into a store reached by any requests, a tournament is kept. -/
theorem Keeps.of_insert {platform : Platform} {u : Unit} {next : TournamentStore} (hKeyed : Keyed s)
    (h : s.insert platform t = .ok (u, next)) : Keeps next t t.lifecycle := by
  refine ⟨hKeyed.insert h, Holds.of_insert hKeyed h, ?_⟩
  obtain ⟨initial, current, hValid, -⟩ := insert_eq_ok h
  exact hValid.orderly

/-- An event of an ended tournament is the last one of its lifecycle. -/
theorem Orderly.getLast_ended (h : Orderly lifecycle) {event : TournamentLifecycleEvent}
    (hEvent : event ∈ lifecycle) (hEnded : event.state = .finished ∨ event.state = .cancelled) :
    lifecycle.getLast? = some event := by
  obtain ⟨front, back, rfl⟩ := List.append_of_mem hEvent
  cases back with
  | nil => exact List.getLast?_concat
  | cons next rest =>
      have hStep := (List.isChain_append.mp h.steps).2.1
      rw [List.isChain_cons_cons, canTransitionTo_ended hEnded] at hStep
      cases hStep.1.1

/-- Once an event has ended a tournament, no run adds another. -/
theorem Keeps.ended_accepted (h : Keeps s t lifecycle) {event : TournamentLifecycleEvent}
    (hEvent : event ∈ lifecycle) (hEnded : event.state = .finished ∨ event.state = .cancelled)
    (requests : List TournamentRequest) :
    accepted platform t.spec.tournamentId s requests = [] := by
  induction requests generalizing s with
  | nil => rfl
  | cons request requests ih =>
      have hNone : acceptedStep t.spec.tournamentId s request = [] := by
        cases request with
        | insert other => rfl
        | transition id expectedSequence state occurredAt =>
            by_cases hId : id = t.spec.tournamentId
            · subst hId
              obtain ⟨e, hFailed⟩ := h.ended (h.orderly.getLast_ended hEvent hEnded) hEnded
                expectedSequence state occurredAt
              simp only [acceptedStep, hFailed, ite_self]
            · simp only [acceptedStep, if_neg hId]
      have hStep := h.step platform request
      rw [hNone, List.map_nil, List.append_nil] at hStep
      rw [accepted, hNone, List.nil_append]
      exact ih hStep

end Runs

section Interleaved

/-- The requests that run before each query of a load. -/
structure Interleaving where
  header : List TournamentRequest
  lifecycle : List TournamentRequest
  entries : List TournamentRequest
  series : List TournamentRequest
  matchRows : List TournamentRequest
  byes : List TournamentRequest

/-- What the queries of a load see among these requests. -/
def Interleaving.reads (platform : Platform) (s : TournamentStore) (run : Interleaving) :
    LoadReads :=
  let machine := tournamentMachine platform
  let header := machine.after s run.header
  let lifecycle := machine.after header run.lifecycle
  let entries := machine.after lifecycle run.entries
  let series := machine.after entries run.series
  let matchRows := machine.after series run.matchRows
  ⟨header, lifecycle, entries, series, matchRows, machine.after matchRows run.byes⟩

variable {platform : Platform} {s : TournamentStore} {t : StoredTournament}
  {lifecycle : List TournamentLifecycleEvent}

/-- The lifecycle of a kept tournament after some requests. -/
def lifecycleAfter (platform : Platform) (s : TournamentStore) (t : StoredTournament)
    (requests : List TournamentRequest) : List TournamentLifecycleEvent :=
  t.lifecycle ++ (accepted platform t.spec.tournamentId s requests).map Prod.snd

theorem lifecycleAfter_append (first second : List TournamentRequest) :
    lifecycleAfter platform s t (first ++ second) = lifecycleAfter platform s t first ++
      (accepted platform t.spec.tournamentId ((tournamentMachine platform).after s first)
        second).map Prod.snd := by
  rw [lifecycleAfter, lifecycleAfter, accepted_append, List.map_append, List.append_assoc]

theorem Keeps.load_among (h : Keeps s t t.lifecycle) (hValid : t.Valid platform)
    (run : Interleaving) :
    (run.reads platform s).load platform t.spec.tournamentId =
      if mark (lifecycleAfter platform s t run.header) =
          mark (lifecycleAfter platform s t (run.header ++ run.lifecycle)) then
        .ok { t with lifecycle := lifecycleAfter platform s t (run.header ++ run.lifecycle) }
      else .error .corrupt := by
  have hHeader := h.after platform run.header
  have hLifecycle := hHeader.after platform run.lifecycle
  have hEntries := hLifecycle.after platform run.entries
  have hSeries := hEntries.after platform run.series
  have hMatches := hSeries.after platform run.matchRows
  have hByes := hMatches.after platform run.byes
  rw [lifecycleAfter_append]
  exact load_eq hValid hHeader.holds hLifecycle.holds hLifecycle.orderly hEntries.holds
    hSeries.holds hMatches.holds hByes.holds

/-- A stored tournament among any requests. A load is answered with the tournament
and the events returned until its second query exactly when its first query saw the
same last state and time; the lifecycle is orderly throughout, no expected sequence is
accepted twice, and an ended tournament accepts none. -/
theorem stored_tournament_loads {rulesets : List (String × String)}
    {lexicons : List (String × String × String)} {manifests : List String}
    {earlier : List TournamentRequest} {u : Unit}
    (h : ((tournamentMachine platform).after (.fresh rulesets lexicons manifests)
      earlier).insert platform t = .ok (u, s)) :
    (∀ run : Interleaving,
      (run.reads platform s).load platform t.spec.tournamentId =
          .ok { t with lifecycle := lifecycleAfter platform s t (run.header ++ run.lifecycle) } ↔
        mark (lifecycleAfter platform s t run.header) =
          mark (lifecycleAfter platform s t (run.header ++ run.lifecycle))) ∧
    ∀ requests, Orderly (lifecycleAfter platform s t requests) ∧
      ((accepted platform t.spec.tournamentId s requests).map Prod.fst).Nodup ∧
      ∀ event ∈ lifecycleAfter platform s t requests,
        event.state = .finished ∨ event.state = .cancelled →
        ∀ more, accepted platform t.spec.tournamentId
          ((tournamentMachine platform).after s requests) more = [] := by
  have hKeeps := Keeps.of_insert ((Keyed.fresh _ _ _).after platform earlier) h
  obtain ⟨initial, current, hValid, -⟩ := insert_eq_ok h
  refine ⟨fun run => ?_, fun requests => ⟨?_, ?_, ?_⟩⟩
  · rw [hKeeps.load_among hValid run]
    split
    · rename_i hSame
      exact iff_of_true rfl hSame
    · rename_i hMoved
      exact iff_of_false (fun hOk => by cases hOk) hMoved
  · exact (hKeeps.after platform requests).orderly
  · exact hKeeps.accepted_nodup platform requests
  · intro event hEvent hEnded more
    exact (hKeeps.after platform requests).ended_accepted platform hEvent hEnded more

end Interleaved

section Duel

/-- Two entrants and one game. -/
def duelSpec : TournamentSpec :=
  ⟨formatSchemaVersion, "cup", .roundRobin 1, [⟨"north", 1, none⟩, ⟨"south", 2, none⟩],
    [demoProfile "en"], [demoDigest]⟩

/-- The digest of the format of the duel. -/
def duelDigest : Vector UInt8 32 :=
  #v[237, 223, 141, 115, 65, 170, 143, 157, 70, 187, 243, 224, 217, 172, 71, 119, 88, 89, 157,
    108, 123, 174, 0, 35, 1, 165, 247, 180, 15, 142, 125, 189]

def duelSealed :
    { digest : Vector UInt8 32 //
      basicPlatform.sha256 (Bytes.utf8 duelSpec.formatIdentityInput) = digest } :=
  ⟨duelDigest, by
    rw [Bytes.utf8_eq, basicPlatform_eq]
    decide +kernel⟩

theorem duelDigest_eq :
    basicPlatform.sha256 (Bytes.utf8 duelSpec.formatIdentityInput) = duelDigest :=
  duelSealed.2

def duelSchedule : TournamentSchedule :=
  ⟨scheduleSchemaVersion, "cup", ⟨formatSchemaVersion, Bytes.hexLower duelDigest.toList⟩,
    [⟨"cup-r0001-t0001", 1, 1, "north", "south", ["cup-r0001-t0001-g0001"]⟩],
    [⟨"cup-r0001-t0001-g0001", "cup-r0001-t0001", 0, 1, 1, 1, "north", "south",
      demoProfile "en", demoDigest⟩], []⟩

def duel : StoredTournament :=
  ⟨duelSpec, duelSchedule, none, [⟨lifecycleSchemaVersion, 0, .scheduled, 0⟩]⟩

/-- A database with the rules and the dictionary of the duel. -/
def duelLibrary : TournamentStore :=
  .fresh [("classic", demoDigest)] [("pack", "1.0.0", demoDigest)] []

/-- An insert asks the platform only for the identity of the format. -/
theorem insert_congr {p q : Platform} {s : TournamentStore} {t : StoredTournament}
    (h : t.spec.formatIdentity p = t.spec.formatIdentity q) :
    s.insert p t = s.insert q t := by
  have hExpected : t.expected p = t.expected q := by
    simp only [StoredTournament.expected, TournamentSpec.schedule,
      TournamentSpec.scheduleSwissRound, ScheduleBuilder.new, h]
  simp only [TournamentStore.insert, StoredTournament.validate, hExpected]

def duelRuns :
    { started : Bool //
      (duelLibrary.insert ⟨basicTables, fun _ => duelDigest⟩ duel).toOption.any (fun result =>
        accepted basicPlatform "cup" result.2 [.transition "cup" 0 .running 5] =
          [(0, ⟨lifecycleSchemaVersion, 1, .running, 5⟩)]) = started } :=
  ⟨true, by decide +kernel⟩

/-- The duel is inserted, and it can then be started. -/
theorem duel_inserted : ∃ s, duelLibrary.insert basicPlatform duel = .ok ((), s) ∧
    accepted basicPlatform "cup" s [.transition "cup" 0 .running 5] =
      [(0, ⟨lifecycleSchemaVersion, 1, .running, 5⟩)] := by
  have hSame : duelLibrary.insert basicPlatform duel =
      duelLibrary.insert ⟨basicTables, fun _ => duelDigest⟩ duel := by
    refine insert_congr ?_
    simp only [TournamentSpec.formatIdentity, duel, duelDigest_eq]
  have hRun : (duelLibrary.insert ⟨basicTables, fun _ => duelDigest⟩ duel).toOption.any
      (fun result => accepted basicPlatform "cup" result.2 [.transition "cup" 0 .running 5] =
        [(0, ⟨lifecycleSchemaVersion, 1, .running, 5⟩)]) = true := duelRuns.2
  rw [hSame]
  rcases ok_or_error (duelLibrary.insert ⟨basicTables, fun _ => duelDigest⟩ duel) with
    ⟨⟨_, s⟩, hDone⟩ | ⟨e, hFailed⟩
  · rw [hDone] at hRun
    exact ⟨s, hDone, of_decide_eq_true hRun⟩
  · rw [hFailed] at hRun
    cases hRun

/-- A load with nothing running beside it. -/
def quietLoad : Interleaving := ⟨[], [], [], [], [], []⟩

/-- A load between whose first two queries the duel is started. -/
def overtakenLoad : Interleaving := ⟨[], [.transition "cup" 0 .running 5], [], [], [], []⟩

theorem duel_loads : ∃ s, duelLibrary.insert basicPlatform duel = .ok ((), s) ∧
    (quietLoad.reads basicPlatform s).load basicPlatform "cup" = .ok duel := by
  obtain ⟨s, hInserted, -⟩ := duel_inserted
  have hRun : ((tournamentMachine basicPlatform).after duelLibrary []).insert basicPlatform duel =
      .ok ((), s) := hInserted
  obtain ⟨hLoads, -⟩ := stored_tournament_loads hRun
  exact ⟨s, hInserted, (hLoads quietLoad).mpr rfl⟩

theorem duel_load_overtaken : ∃ s, duelLibrary.insert basicPlatform duel = .ok ((), s) ∧
    accepted basicPlatform "cup" s overtakenLoad.lifecycle =
      [(0, ⟨lifecycleSchemaVersion, 1, .running, 5⟩)] ∧
    (overtakenLoad.reads basicPlatform s).load basicPlatform "cup" = .error .corrupt := by
  obtain ⟨s, hInserted, hStarted⟩ := duel_inserted
  refine ⟨s, hInserted, hStarted, ?_⟩
  have hKeeps := Keeps.of_insert (Keyed.fresh _ _ _) hInserted
  obtain ⟨initial, current, hValid, -⟩ := insert_eq_ok hInserted
  have hLifecycle : lifecycleAfter basicPlatform s duel
      (overtakenLoad.header ++ overtakenLoad.lifecycle) =
      [⟨lifecycleSchemaVersion, 0, .scheduled, 0⟩, ⟨lifecycleSchemaVersion, 1, .running, 5⟩] :=
    congrArg (fun events => duel.lifecycle ++ events.map Prod.snd) hStarted
  have hLoad := hKeeps.load_among hValid overtakenLoad
  rw [hLifecycle, if_neg] at hLoad
  · exact hLoad
  · rw [show lifecycleAfter basicPlatform s duel overtakenLoad.header =
      [⟨lifecycleSchemaVersion, 0, .scheduled, 0⟩] from rfl]
    decide

end Duel

end WordArena.Tournament
