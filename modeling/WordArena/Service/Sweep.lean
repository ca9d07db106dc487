import WordArena.Service.Timeout

/-! Sweeps of due timeouts while players act. A sweep takes most lost races for
what they are and goes on with its batch. It loads a game twice, and a move that
comes between the two loads looks to it like an illegal action of its own. -/
namespace WordArena.Service

open Fallible WordArena.Engine WordArena.Lexicon WordArena.Application

/-! What a sweep has done. -/

/-- The command whose policy move an own commit has stored. -/
def resolvedCommand : ServiceEvent → Option TimeoutCommand
  | ⟨_, _, .commitAction commit, response⟩ =>
      match commit.successor, (response : Except RepositoryError Unit) with
      | some _, .ok () => some ⟨commit.idempotency.gameId, commit.expectedVersion⟩
      | _, _ => none
  | _ => none

/-- The first request of a timeout. -/
def LooksUp (inst : Installation) (command : TimeoutCommand) (event : ServiceEvent) : Prop :=
  ∃ payload, event.request = .loadIdempotency command.gameId
    (inst.platform.sha256 (Bytes.utf8 (timeoutText inst.policy command))) payload

/-- A commit of the policy move of the player to move. -/
def PolicyCommit (inst : Installation) (command : TimeoutCommand) (event : ServiceEvent) : Prop :=
  ∃ commit past g g' moved successor, event.request = .commitAction commit ∧
    Visited inst event.before command.gameId past g ∧
    g.applyMove inst.platform g.state.currentPlayer command.expectedVersion
      inst.policy.timeoutResponse.move = .ok (g', moved) ∧
    commit.successor = some successor ∧ successor.snapshot = g'.snapshot inst.platform

/-- A log in which every command of a batch was tried, and those with an own
commit were collected in their order. -/
structure Swept (inst : Installation) (batch committed : List TimeoutCommand) (log : Log) :
    Prop where
  tried : ∀ command ∈ batch, ∃ event ∈ log, LooksUp inst command event
  collected : committed = log.filterMap resolvedCommand
  sublist : committed.Sublist batch
  moves : ∀ event ∈ log, ∀ command, resolvedCommand event = some command →
    PolicyCommit inst command event

theorem Swept.append {inst : Installation} {batch batch' committed committed' : List TimeoutCommand}
    {log log' : Log} (h : Swept inst batch committed log) (h' : Swept inst batch' committed' log') :
    Swept inst (batch ++ batch') (committed ++ committed') (log ++ log') where
  tried := by
    intro command hCommand
    rcases List.mem_append.mp hCommand with hOld | hNew
    · obtain ⟨event, hEvent, hLooks⟩ := h.tried command hOld
      exact ⟨event, List.mem_append_left _ hEvent, hLooks⟩
    · obtain ⟨event, hEvent, hLooks⟩ := h'.tried command hNew
      exact ⟨event, List.mem_append_right _ hEvent, hLooks⟩
  collected := by rw [List.filterMap_append, ← h.collected, ← h'.collected]
  sublist := h.sublist.append h'.sublist
  moves := by
    intro event hEvent
    rcases List.mem_append.mp hEvent with hOld | hNew
    · exact h.moves event hOld
    · exact h'.moves event hNew

/-- Events without an own commit of a move. -/
theorem Swept.quiet {inst : Installation} {log : Log}
    (h : ∀ event ∈ log, resolvedCommand event = none) : Swept inst [] [] log where
  tried := fun _ hCommand => absurd hCommand List.not_mem_nil
  collected := (List.filterMap_eq_nil_iff.mpr h).symm
  sublist := .slnil
  moves := fun event hEvent command hSome => by
    rw [h event hEvent] at hSome
    cases hSome

/-- A lookup that leads to nothing. -/
theorem Swept.lookup {inst : Installation} {command : TimeoutCommand} {event : ServiceEvent}
    (h : LooksUp inst command event) : Swept inst [command] [] [event] where
  tried := by
    intro other hOther
    rw [List.mem_singleton] at hOther
    exact ⟨event, List.mem_singleton_self _, hOther ▸ h⟩
  collected := by
    obtain ⟨payload, hRequest⟩ := h
    obtain ⟨before, input, request, response⟩ := event
    cases hRequest
    rfl
  sublist := List.nil_sublist _
  moves := by
    intro other hOther command' hSome
    rw [List.mem_singleton] at hOther
    obtain ⟨payload, hRequest⟩ := h
    obtain ⟨before, input, request, response⟩ := event
    cases hRequest
    rw [hOther] at hSome
    cases hSome

/-! What a schedule may do to a sweep. -/

/-- The current turn of a game is one of a seat. -/
def TurnOf (s : Store) (gameId : GameId) (seat : Seat) : Prop :=
  ∃ record deadline, s.game gameId = some record ∧
    (record.deadlines.find? fun d => d.turn = record.version) = some deadline ∧ deadline.seat = seat

/-- No command on a game has used a retry key. -/
def KeyFree (s : Store) (gameId : GameId) (keyDigest : Digest) : Prop :=
  ∀ record, s.game gameId = some record → record.cached keyDigest = none

/-- What a sweep needs in the store when it gets its turn: its keys are free,
the clock is not behind the creation of the game it has loaded, and when it
loads a game again after a deadline has passed, it is still or again the turn
of the seat that was late. -/
def Unhindered (log : Log) (event : ServiceEvent) : Prop :=
  match event.request with
  | .loadIdempotency gameId keyDigest _ => KeyFree event.before gameId keyDigest
  | .commitAction commit =>
      KeyFree event.before commit.idempotency.gameId commit.idempotency.keyDigest
  | .now => ∀ front t input gameId stored,
      log = front ++ [⟨t, input, .load gameId, (.ok stored : Except RepositoryError StoredGame)⟩] →
        stored.createdAt ≤ event.input.clock.toInt
  | .load gameId => ∀ front t input stored u clock now deadline,
      log = front ++ [⟨t, input, .load gameId, (.ok stored : Except RepositoryError StoredGame)⟩,
        ⟨u, clock, .now, (now : UnixMillis)⟩] →
        stored.turnDeadline = some deadline → TurnOf event.before gameId deadline.seat
  | _ => True

/-! One command of a batch. -/

/-- A round ends with the commit of its command, or with a lost race. -/
def RoundEnd (inst : Installation) (command : TimeoutCommand) (start : Log)
    (result : Except ApplicationError GameActionResult) (log : Log) : Prop :=
  ∃ more, log = start ++ more ∧ match result with
    | .ok _ => Swept inst [command] [command] more
    | .error error => error.isRace = true ∧ Swept inst [command] [] more

theorem Swept.commit {inst : Installation} {command : TimeoutCommand} {more : Log}
    {event : ServiceEvent} (h : Swept inst [command] [] more)
    (hResolved : resolvedCommand event = some command) (hMove : PolicyCommit inst command event) :
    Swept inst [command] [command] (more ++ [event]) where
  tried := by
    intro other hOther
    obtain ⟨first, hFirst, hLooks⟩ := h.tried other hOther
    exact ⟨first, List.mem_append_left _ hFirst, hLooks⟩
  collected := by
    rw [List.filterMap_append, ← h.collected, List.nil_append, List.filterMap_cons, hResolved]
    rfl
  sublist := .refl _
  moves := by
    intro other hOther command' hSome
    rcases List.mem_append.mp hOther with hOld | hNew
    · exact h.moves other hOld command' hSome
    · rw [List.mem_singleton] at hNew
      rw [hNew, hResolved, Option.some.injEq] at hSome
      rw [hNew, ← hSome]
      exact hMove

section

variable {inst : Installation} {p : ServicePromise (Except ApplicationError GameActionResult)}
  {command : TimeoutCommand} {start more : Log} {s : Store} {id : CommandIdentity}
  {stored : StoredGame} {past : List Game} {g : Game} {committedAt : UnixMillis}

/-- Events that are no commits resolve nothing. -/
theorem Swept.extend {log : Log} (h : Swept inst [command] [] more)
    (hQuiet : ∀ event ∈ log, resolvedCommand event = none) :
    Swept inst [command] [] (more ++ log) := by
  have hNothing : Swept inst [] [] log := .quiet hQuiet
  have hBoth := h.append hNothing
  rwa [List.append_nil, List.append_nil] at hBoth

/-- A conflict that leaves no row under the key is a lost race. -/
theorem RoundEnd.conflict {log : Log} (h : Swept inst [command] [] more)
    (hQuiet : ∀ event ∈ log, resolvedCommand event = none) :
    RoundEnd inst command start (.error (.repository .conflict)) (start ++ more ++ log) :=
  ⟨more ++ log, List.append_assoc _ _ _, rfl, h.extend hQuiet⟩

/-- The policy move is stored, unless another move was. -/
theorem Keeps.commitPolicy (hOwn : ∀ event u, p.own event u) (hMay : p.may = Unhindered)
    (hPost : ∀ result log t, RoundEnd inst command start result log → p.post result log t)
    (hId : id.Valid) (hGame : id.gameId = command.gameId) (hSwept : Swept inst [command] [] more)
    (hBasis : Basis inst s id.gameId stored past g)
    (hCreated : ∀ t record, Grows s t → t.game id.gameId = some record →
      stored.createdAt = record.createdAt)
    (hTime : stored.createdAt ≤ committedAt) (hWord : committedAt < 2 ^ 63) {g' : Game}
    {moved : GameEvent}
    (hMove : g.applyMove inst.platform g.state.currentPlayer command.expectedVersion
      inst.policy.timeoutResponse.move = .ok (g', moved)) :
    Keeps inst p (Service.commitAttempted id command.expectedVersion committedAt
      (acceptedAttempt inst stored g.state.currentPlayer committedAt g' moved)) (start ++ more) s := by
  have hExpected : command.expectedVersion = g.state.version := (applyMove_eq_ok.mp hMove).1
  refine Keeps.commitAttempted (fun event _ => hOwn event event.before) (hBasis.accepted hMove hWord) ?_ ?_ ?_
  · intro t input u record next hGrows _ _ _ _ _
    refine ⟨hOwn _ u, fun w _ _ => hPost _ _ _ ⟨more ++ [_], List.append_assoc _ _ _, ?_⟩⟩
    refine hSwept.commit ?_ ⟨_, past, g, g', moved, _, rfl, ?_, hMove, rfl, rfl⟩
    · change some (TimeoutCommand.mk id.gameId command.expectedVersion) = some command
      rw [hGame]
    · rw [← hGame]
      exact hBasis.visited.later hGrows
  · intro t input error hGrows hSane hRefused hOther hUnhindered
    rw [hMay] at hUnhindered
    obtain ⟨record, hRecord, -⟩ := (hBasis.visited.later hGrows).stored
    obtain ⟨past', current, hTold, -⟩ := hSane.told id.gameId record hRecord
    by_cases hVersion : g.state.version = current.state.version
    · have hSame := (hBasis.visited.later hGrows).current hRecord hTold hVersion
      rw [← hSame] at hTold
      obtain ⟨u, hStored⟩ := hTold.commit_move hRecord hId (hUnhindered record hRecord) hBasis.gameId
        (hCreated t record hGrows hRecord) (hCreated t record hGrows hRecord ▸ hTime) hMove
      rw [hStored] at hRefused
      cases hRefused
    · have hConflict := hTold.commit_conflict hRecord hBasis.visited.lineage hMove hBasis.gameId hTime
        (hExpected ▸ hVersion)
      rw [hConflict, Except.error.injEq] at hRefused
      exact absurd hRefused.symm hOther
  · intro t input u input' lookup _ _ _ _ _ hLookup _ hUnhindered w _ _
    rw [hMay] at hUnhindered
    rw [lookup_missing_iff.mpr hUnhindered] at hLookup
    subst hLookup
    rw [List.append_assoc (start ++ more)]
    exact hPost _ _ _ (.conflict hSwept fun event hEvent => by
      rcases List.mem_append.mp hEvent with hFirst | hSecond
      · rw [List.mem_singleton.mp hFirst]
        rfl
      · rw [List.mem_singleton.mp hSecond]
        rfl)

/-- A move that came first is answered with a version conflict, which is stored
in turn. -/
theorem Keeps.commitStale (hOwn : ∀ event u, p.own event u) (hMay : p.may = Unhindered)
    (hPost : ∀ result log t, RoundEnd inst command start result log → p.post result log t)
    (hId : id.Valid) (hSwept : Swept inst [command] [] more)
    (hExists : ∃ record, s.game id.gameId = some record) (hTime : 0 ≤ committedAt) :
    Keeps inst p (Service.commitAttempted id command.expectedVersion committedAt
      ⟨.rejected .versionConflict, none, none, none⟩) (start ++ more) s := by
  refine Keeps.commitAttempted (fun event _ => hOwn event event.before) (.stay rfl ⟨.versionConflict, rfl⟩) ?_ ?_ ?_
  · intro t input u record next _ _ _ _ _ _
    refine ⟨hOwn _ u, fun w _ _ => hPost _ _ _ ⟨more ++ [_], List.append_assoc _ _ _, rfl, ?_⟩⟩
    refine hSwept.extend fun event hEvent => ?_
    rw [List.mem_singleton.mp hEvent]
    rfl
  · intro t input error hGrows _ hRefused _ hUnhindered
    rw [hMay] at hUnhindered
    obtain ⟨record, hRecord⟩ := hExists
    obtain ⟨new, hNew, -⟩ := hGrows.games id.gameId record hRecord
    obtain ⟨u, -, hStored, -⟩ := @commit_rejection t new id command.expectedVersion committedAt hNew hId
      (hUnhindered new hNew) hTime .versionConflict
    rw [hStored] at hRefused
    cases hRefused
  · intro t input u input' lookup _ _ _ _ _ hLookup _ hUnhindered w _ _
    rw [hMay] at hUnhindered
    rw [lookup_missing_iff.mpr hUnhindered] at hLookup
    subst hLookup
    rw [List.append_assoc (start ++ more)]
    refine hPost _ _ _ (.conflict hSwept fun event hEvent => ?_)
    rcases List.mem_append.mp hEvent with hFirst | hSecond
    · rw [List.mem_singleton.mp hFirst]
      rfl
    · rw [List.mem_singleton.mp hSecond]
      rfl

/-- The policy move of the turn that was found late. The game is loaded once
more; by then it is still that turn, or again one of the same seat. -/
theorem Keeps.executePolicy {u v : Store} {input clock : Input} {now : UnixMillis}
    {deadline : TurnDeadline} {log : Log} (hOwn : ∀ event u, p.own event u) (hMay : p.may = Unhindered)
    (hPost : ∀ result log t, RoundEnd inst command start result log → p.post result log t)
    (hId : id.Valid) (hGame : id.gameId = command.gameId)
    (hExists : ∃ record, s.game id.gameId = some record)
    (hSwept : Swept inst [command] [] (more ++
      [⟨u, input, .load id.gameId, (.ok stored : Except RepositoryError StoredGame)⟩,
        ⟨v, clock, .now, (now : UnixMillis)⟩]))
    (hDeadline : stored.turnDeadline = some deadline)
    (hLog : log = start ++ more ++
      [⟨u, input, .load id.gameId, (.ok stored : Except RepositoryError StoredGame)⟩,
        ⟨v, clock, .now, (now : UnixMillis)⟩]) :
    Keeps inst p (Service.executeAction inst id command.expectedVersion deadline.seat
      inst.policy.timeoutResponse.move false) log s := by
  obtain ⟨old, hOld⟩ := hExists
  refine Keeps.executeAction (fun event _ => hOwn event event.before) (fun t _ ht _ hNone _ => ?_) ?_
  · obtain ⟨new, hNew, -⟩ := ht.games id.gameId old hOld
    rw [hNew] at hNone
    cases hNone
  intro t input' w clock' record past g loaded ht hSane hRecord hTold hLoaded hUnhindered hw hSane'
    hTime hBasis hWord
  rw [hMay] at hUnhindered hTime
  obtain ⟨record', current, hRecord', hCurrent, hSeat⟩ :=
    hUnhindered (start ++ more) u input stored v clock now deadline hLog hDeadline
  rw [hRecord, Option.some.injEq] at hRecord'
  subst hRecord'
  rw [hTold.version, hTold.deadline, nextDeadline_eq_some] at hCurrent
  obtain ⟨hPhase, rfl⟩ := hCurrent
  have hClock : loaded.createdAt ≤ clock'.clock.toInt := hTime _ _ _ _ _ rfl
  have hCreated : loaded.createdAt = record.createdAt := by rw [hLoaded]
  have hMore : Swept inst [command] [] (more ++
      [⟨u, input, .load id.gameId, (.ok stored : Except RepositoryError StoredGame)⟩,
        ⟨v, clock, .now, (now : UnixMillis)⟩] ++
      [⟨t, input', .load id.gameId, (.ok loaded : Except RepositoryError StoredGame)⟩,
        ⟨w, clock', .now, (clock'.clock.toInt : UnixMillis)⟩]) :=
    hSwept.extend (by simp [resolvedCommand])
  have hAll : log ++ [⟨t, input', .load id.gameId, (.ok loaded : Except RepositoryError StoredGame)⟩] ++
      [⟨w, clock', .now, (clock'.clock.toInt : UnixMillis)⟩] = start ++ (more ++
      [⟨u, input, .load id.gameId, (.ok stored : Except RepositoryError StoredGame)⟩,
        ⟨v, clock, .now, (now : UnixMillis)⟩] ++
      [⟨t, input', .load id.gameId, (.ok loaded : Except RepositoryError StoredGame)⟩,
        ⟨w, clock', .now, (clock'.clock.toInt : UnixMillis)⟩]) := by
    rw [hLog]
    simp only [List.append_assoc, List.cons_append, List.nil_append]
  rw [hAll, ← hSeat]
  change Keeps inst p (attemptAction inst loaded g command.expectedVersion g.state.currentPlayer
    inst.policy.timeoutResponse.move false id.gameId clock'.clock.toInt >>= _) _ w
  refine Keeps.attempt (fun event _ => hOwn event event.before) (fun next moved hMove => ?_) (fun error hError _ => ?_)
    (fun hCount => by cases hCount) fun hCount => by cases hCount
  · refine Keeps.commitPolicy hOwn hMay hPost hId hGame hMore hBasis (fun x other hx hOther => ?_)
      hClock hWord hMove
    obtain ⟨new, hNew, hExtends⟩ := (hw.trans hx).games id.gameId record hRecord
    rw [hNew, Option.some.injEq] at hOther
    rw [hCreated, ← hOther, hExtends.createdAt]
  · have hVersion : command.expectedVersion ≠ g.state.version := by
      intro hSame
      obtain ⟨g', moved, hLegal⟩ := timeoutResponse_legal inst.policy.timeoutResponse
        hTold.lineage.reachable hPhase
      rw [hSame, hLegal] at hError
      cases hError
    rw [applyMove_refused (validateAction_stale hPhase hVersion), Except.error.injEq] at hError
    subst hError
    obtain ⟨new, hNew, -⟩ := hw.games id.gameId record hRecord
    exact Keeps.commitStale hOwn hMay hPost hId hMore ⟨new, hNew⟩
      (Int.le_trans (hCreated ▸ hTold.times.1) hClock)

/-- One command ends with its commit or as a lost race. -/
theorem Keeps.round (hOwn : ∀ event u, p.own event u) (hMay : p.may = Unhindered)
    (hPost : ∀ result log t, RoundEnd inst command start result log → p.post result log t)
    (hExists : ∃ record, s.game command.gameId = some record) :
    Keeps inst p (Service.resolveTimeout inst command) start s := by
  have hIdle : Idles p := fun event _ => hOwn event event.before
  obtain ⟨old, hOld⟩ := hExists
  obtain ⟨key, hKey, hText⟩ := timeoutKey_ok inst.policy command
  unfold Service.resolveTimeout
  rw [hKey]
  refine Keeps.value (Keeps.cached (command.identity inst key) hIdle
    fun t ht _ input lookup hLookup hUnhindered => ?_)
  rw [hMay] at hUnhindered
  rw [lookup_missing_iff.mpr hUnhindered] at hLookup
  subst hLookup
  have hFirst : Swept inst [command] [] [⟨t, input, .loadIdempotency
      (command.identity inst key).gameId (command.identity inst key).keyDigest
      (command.identity inst key).payloadSha256, .missing⟩] :=
    .lookup ⟨_, by rw [← hText]; rfl⟩
  obtain ⟨found, hFound, -⟩ := ht.games command.gameId old hOld
  refine Keeps.load hIdle (fun u hu _ _ _ hNone => ?_)
    fun u hu _ input' record past g stored _ hRecord _ _ => ?_
  · obtain ⟨new, hNew, -⟩ := hu.games command.gameId found hFound
    rw [hNew] at hNone
    cases hNone
  have hSecond : Swept inst [command] [] ([⟨t, input, .loadIdempotency
      (command.identity inst key).gameId (command.identity inst key).keyDigest
      (command.identity inst key).payloadSha256, .missing⟩] ++
      [⟨u, input', .load command.gameId, (.ok stored : Except RepositoryError StoredGame)⟩]) :=
    hFirst.extend (by simp [resolvedCommand])
  refine Keeps.due hIdle (fun more hNow v => hPost _ _ _ ⟨_ ++ more, ?_, rfl, hSecond.extend ?_⟩)
    fun deadline v clock hDeadline _ hv _ _ _ => ?_
  · simp only [List.append_assoc]
  · rintro ⟨_, _, request, _⟩ hEvent
    have hRequest := hNow _ hEvent
    cases hRequest
    rfl
  obtain ⟨new, hNew, -⟩ := hv.games command.gameId record hRecord
  have hThird : Swept inst [command] [] ([⟨t, input, .loadIdempotency
      (command.identity inst key).gameId (command.identity inst key).keyDigest
      (command.identity inst key).payloadSha256, .missing⟩] ++
      [⟨u, input', .load command.gameId, (.ok stored : Except RepositoryError StoredGame)⟩,
        ⟨v, clock, .now, (clock.clock.toInt : UnixMillis)⟩]) :=
    hFirst.extend (by simp [resolvedCommand])
  refine Keeps.executePolicy hOwn hMay hPost (TimeoutCommand.identity_valid _ _ _) rfl ⟨new, hNew⟩
    hThird hDeadline ?_
  simp only [List.append_assoc, List.cons_append, List.nil_append]
  rfl

end

/-! Whole sweeps. -/

/-- What a sweep has done when it returns. -/
def SweptAll (inst : Installation) (limit : UInt32)
    (result : Except ApplicationError (List TimeoutCommand)) (log : Log) : Prop :=
  ∃ batch committed, result = .ok committed ∧ Swept inst batch committed log ∧
    ∃ t input now, (⟨t, input, .dueTimeouts now limit, batch⟩ : ServiceEvent) ∈ log

theorem mem_dueTimeouts {s : Store} {now : UnixMillis} {limit : UInt32} {command : TimeoutCommand}
    (h : command ∈ dueTimeouts s now limit) :
    ∃ record ∈ s.games, record.gameId = command.gameId := by
  unfold dueTimeouts at h
  obtain ⟨entry, hEntry, rfl⟩ := List.mem_map.mp h
  have hDue := List.mem_mergeSort.mp (List.mem_of_mem_take hEntry)
  obtain ⟨record, hRecord, hDeadline⟩ := List.mem_flatMap.mp hDue
  obtain ⟨deadline, -, rfl⟩ := List.mem_map.mp hDeadline
  exact ⟨record, hRecord, rfl⟩

theorem mem_dueTimeouts_game {s : Store} {now : UnixMillis} {limit : UInt32}
    {command : TimeoutCommand} (h : command ∈ dueTimeouts s now limit) :
    ∃ record, s.game command.gameId = some record := by
  obtain ⟨record, hRecord, hId⟩ := mem_dueTimeouts h
  cases hFind : s.game command.gameId with
  | none =>
      have hNone := List.find?_eq_none.mp hFind record hRecord
      simp [hId] at hNone
  | some found => exact ⟨found, rfl⟩

/-- Where a sweep stands: part of its batch is tried, and the games of the rest
are there. -/
def Sweeping (inst : Installation) (batch : List TimeoutCommand) (due : ServiceEvent)
    (rest committed : List TimeoutCommand) (log : Log) (s : Store) : Prop :=
  ∃ tried, tried ++ rest = batch ∧ Swept inst tried committed log ∧ due ∈ log ∧
    ∀ command ∈ rest, ∃ record, s.game command.gameId = some record

theorem Keeps.sweep {inst : Installation} {limit : UInt32} {s : Store}
    {p : ServicePromise (Except ApplicationError (List TimeoutCommand))}
    (hOwn : ∀ event u, p.own event u) (hMay : p.may = Unhindered)
    (hPost : ∀ result log t, SweptAll inst limit result log → p.post result log t) :
    Keeps inst p (Service.resolveDueTimeouts inst limit) [] s := by
  have hIdle : Idles p := fun event _ => hOwn event event.before
  refine Keeps.read hIdle trivial (fun _ _ => rfl) fun t _ _ clock _ => ?_
  refine Keeps.read hIdle trivial (fun _ _ => rfl) fun u _ hSane input _ => ?_
  obtain ⟨batch, hBatch⟩ : ∃ batch, dueTimeouts u clock.clock.toInt limit = batch := ⟨_, rfl⟩
  change Keeps inst p ((dueTimeouts u clock.clock.toInt limit).foldlM _ []) ([⟨t, clock, .now, _⟩] ++
    [⟨u, input, .dueTimeouts clock.clock.toInt limit,
      (dueTimeouts u clock.clock.toInt limit : List TimeoutCommand)⟩]) u
  have hGames : ∀ command ∈ batch, ∃ record, u.game command.gameId = some record :=
    fun command hCommand => mem_dueTimeouts_game (hBatch ▸ hCommand)
  rw [hBatch]
  refine Keeps.foldlM (Sweeping inst batch
    ⟨u, input, .dueTimeouts clock.clock.toInt limit, (batch : List TimeoutCommand)⟩) ?_ ?_ hSane
    ⟨[], rfl, .quiet ?_, List.mem_append_right _ (List.mem_singleton_self _), hGames⟩
  · rintro command rest committed log v hv ⟨tried, rfl, hSwept, hDue, hLeft⟩
    have hRound : Keeps inst (p.ending fun result log' _ => RoundEnd inst command log result log')
        (Service.resolveTimeout inst command) log v :=
      Keeps.round (fun _ _ => hOwn _ _) hMay (fun _ _ _ hEnd => hEnd)
        (hLeft command List.mem_cons_self)
    refine Keeps.observe hv ((Meets.grown hRound).weaken fun result log' w _ hEnd => ?_)
    obtain ⟨hGrows, more, rfl, hResult⟩ := hEnd
    have hNext : ∀ x, Grows w x → ∀ other ∈ rest, ∃ record, x.game other.gameId = some record := by
      intro x hx other hOther
      obtain ⟨record, hRecord⟩ := hLeft other (List.mem_cons_of_mem _ hOther)
      obtain ⟨new, hNew, -⟩ := (hGrows.trans hx).games other.gameId record hRecord
      exact ⟨new, hNew⟩
    cases result with
    | ok result =>
        exact Keeps.settle fun x hx _ => ⟨tried ++ [command], List.append_assoc _ _ _,
          hSwept.append hResult, List.mem_append_left _ hDue, hNext x hx⟩
    | error error =>
        obtain ⟨hRace, hNothing⟩ := hResult
        have hBoth := hSwept.append hNothing
        rw [List.append_nil] at hBoth
        change Keeps inst _ (if error.isRace = true then Service.settle (.ok committed)
          else Service.settle (.error error)) _ w
        rw [if_pos hRace]
        exact Keeps.settle fun x hx _ => ⟨tried ++ [command], List.append_assoc _ _ _, hBoth,
          List.mem_append_left _ hDue, hNext x hx⟩
  · rintro committed log v w ⟨tried, hTried, hSwept, hDue, -⟩ _
    rw [List.append_nil] at hTried
    exact hPost _ _ _ ⟨batch, committed, rfl, hTried ▸ hSwept, u, input, _, hDue⟩
  · simp [resolvedCommand]

/-! Sweeps in a pool. -/

section

variable {inst : Installation} {i : Nat} {limit : UInt32}

end

section

variable {actions : List ServiceAction} {s : Store} {record : GameRecord} {g : Game}

/-- The first turn of the table is late after a day. -/
theorem Opened.due (h : Opened 0 actions s record g) :
    dueTimeouts s (86400000 : Int64).toInt 1 = [⟨hookId, record.version⟩] ∧
      nextDeadline hookInstallation.policy g record.updatedAt = some ⟨0, .one, 300000, 1⟩ := by
  have hDeadline : nextDeadline hookInstallation.policy g (0 : Int64).toInt =
      some ⟨0, .one, 300000, 1⟩ := by
    rw [nextDeadline_eq_some, h.version, h.turn]
    exact ⟨h.active, by decide⟩
  have hVersion : record.version = 0 := h.told.version.trans h.version
  have hStatus : record.status = .active := h.told.status.trans h.active
  have hName : record.gameId = hookId := game_gameId h.stored
  have hDeadlines : record.deadlines = [⟨0, .one, 300000, 1⟩] := by
    rw [h.deadlines, hDeadline]
    rfl
  refine ⟨?_, by rw [h.times.2, hDeadline]⟩
  rw [dueTimeouts, h.alone, hVersion]
  simp [hDeadlines, hVersion, hStatus, hName]

end

end WordArena.Service
