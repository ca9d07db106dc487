import WordArena.Service.Calls

/-! Whole runs of the service. However the requests of its calls interleave,
each game is one line of accepted moves, and each creation key makes at most
one game. -/
namespace WordArena.Service

open Fallible WordArena.Engine WordArena.Lexicon WordArena.Application

/-! Histories. -/

/-- The games one creation and single accepted moves lead through, the version
of each being its place. -/
structure Chain (inst : Installation) (gameId : GameId) (games : List Game) : Prop where
  first : ∃ g ruleset validator seed mode playerCount, games.head? = some g ∧
    Game.createWithModeAndPlayers inst.platform gameId.asStr ruleset validator seed mode
      playerCount = .ok g
  next : ∀ n (before after : Game), games[n]? = some before → games[n + 1]? = some after →
    ∃ seat action event, before.applyMove inst.platform seat before.state.version action =
      .ok (after, event)
  place : ∀ n (g : Game), games[n]? = some g → g.state.version.toNat = n

/-- A result reports the move into exactly one version of a chain. -/
structure ReportsOne (inst : Installation) (games : List Game) (result : PersistedActionResult) :
    Prop where
  move : ∃ n before after seat action, games[n]? = some before ∧ games[n + 1]? = some after ∧
    before.applyMove inst.platform seat before.state.version action = .ok (after, result.event) ∧
    result.game = after.seatProjection seat ∧
    ∀ m (other : Game), games[m]? = some other → other.state.version = result.event.sequence → m = n + 1

section

variable {inst : Installation} {gameId : GameId} {past : List Game} {g : Game}

theorem getElem?_prefix {α : Type} {xs : List α} {n : Nat} {a : α} (h : xs[n]? = some a) :
    ∃ before, before.length = n ∧ before ++ [a] <+: xs := by
  obtain ⟨hn, rfl⟩ := List.getElem?_eq_some_iff.mp h
  refine ⟨xs.take n, List.length_take_of_le (Nat.le_of_lt hn), ?_⟩
  rw [← List.take_succ_eq_append_getElem hn]
  exact List.take_prefix _ _

theorem Lineage.place (l : Lineage inst gameId past g) {n : Nat} {h : Game}
    (hGame : (past ++ [g])[n]? = some h) : h.state.version.toNat = n := by
  obtain ⟨before, rfl, hPrefix⟩ := getElem?_prefix hGame
  exact (l.earlier hPrefix).version

theorem Lineage.chain (l : Lineage inst gameId past g) : Chain inst gameId (past ++ [g]) where
  first := by
    induction l with
    | fresh _ created => exact ⟨_, _, _, _, _, _, rfl, created⟩
    | next prior move ih =>
        obtain ⟨g0, ruleset, validator, seed, mode, playerCount, hHead, hCreated⟩ := ih
        refine ⟨g0, ruleset, validator, seed, mode, playerCount, ?_, hCreated⟩
        rw [List.head?_append, hHead]
        rfl
  next n before after hBefore hAfter := by
    obtain ⟨earlier, hLength, hPrefix⟩ := getElem?_prefix hAfter
    cases l.earlier hPrefix with
    | fresh _ _ => cases hLength
    | @next older previous _ seat action event prior move =>
        have hSame : before = previous := by
          have hOlder : older.length = n := by simpa using hLength
          obtain ⟨rest, hRest⟩ := hPrefix
          have hPrevious : (past ++ [g])[n]? = some previous := by simp [← hRest, ← hOlder]
          exact Option.some.inj (hBefore.symm.trans hPrevious)
        subst hSame
        exact ⟨seat, action, event, applyMove_eq_ok.mpr ⟨rfl, move⟩⟩
  place n h hGame := l.place hGame

theorem Reports.one {result : PersistedActionResult} (h : Reports inst (past ++ [g]) result)
    (l : Lineage inst gameId past g) : ReportsOne inst (past ++ [g]) result := by
  obtain ⟨older, before, after, seat, action, hPrefix, hMove, hGame, -⟩ := h.move
  obtain ⟨rest, hRest⟩ := hPrefix
  have hBefore : (past ++ [g])[older.length]? = some before := by simp [← hRest]
  have hAfter : (past ++ [g])[older.length + 1]? = some after := by
    rw [← hRest, List.append_assoc, List.getElem?_append_right (Nat.le_succ _)]
    simp
  refine ⟨older.length, before, after, seat, action, hBefore, hAfter,
    applyMove_eq_ok.mpr ⟨rfl, hMove⟩, hGame, fun m other hOther hVersion => ?_⟩
  rw [← l.place hOther, hVersion, hMove.recorded.1, l.place hAfter]

end

/-- The stored rows of a game are one line of moves: each checkpoint follows
the one before it by one accepted move, and each accepted outcome is the
outcome of the move into one version, no version having two of them. -/
structure Linear (inst : Installation) (gameId : GameId) (record : GameRecord) (games : List Game) :
    Prop where
  chain : Chain inst gameId games
  snapshots : record.snapshots = games.map fun game => game.snapshot inst.platform
  outcomes : ∀ row ∈ record.idempotency, ∀ result, row.outcome = .accepted result →
    ReportsOne inst games result
  once : (record.idempotency.filterMap IdempotencyRecord.acceptedVersion).Nodup

theorem Told.linear {inst : Installation} {gameId : GameId} {record : GameRecord} {past : List Game}
    {g : Game} (h : Told inst record past g) (hId : record.gameId = gameId) :
    Linear inst gameId record (past ++ [g]) where
  chain := hId ▸ h.lineage.chain
  snapshots := h.snapshots
  outcomes row hRow result hResult := (h.outcomes row hRow result hResult).one h.lineage
  once := h.once

/-- The game an action or a timeout is about. -/
def ServiceCall.game? : ServiceCall → Option GameId
  | .act _ command => some command.gameId
  | .timeout command => some command.gameId
  | _ => none

/-- An accepted reply is a stored outcome of the game it is about. -/
theorem Replied.accepted {inst : Installation} {s : Store} {call : ServiceCall}
    {result : GameActionResult} (h : Replied inst s call (.acted (.ok result))) :
    ∃ gameId record row accepted, call.game? = some gameId ∧ s.game gameId = some record ∧
      row ∈ record.idempotency ∧ row.outcome = .accepted accepted ∧
      outcomeResult row.outcome = .ok result := by
  obtain ⟨id, hGame, hAnswered⟩ : ∃ id : CommandIdentity, call.game? = some id.gameId ∧
      Answered s id (.ok result) := by
    cases call with
    | create command => exact h.elim
    | act credential command => exact ⟨_, rfl, h⟩
    | timeout command =>
        obtain ⟨id, hId, hAnswered⟩ := h
        exact ⟨id, congrArg some hId.symm, hAnswered⟩
    | sweep limit => exact h.elim
  obtain ⟨record, row, hRecord, hRow, -, hOutcome⟩ := found_iff.mp (hAnswered
    (.accepted ⟨result.committedAt, result.turnDeadline, result.event, result.game⟩) trivial rfl)
  exact ⟨id.gameId, record, row, _, hGame, hRecord, List.mem_of_find?_eq_some hRow, hOutcome,
    hOutcome ▸ rfl⟩

/-- In every run of the service, whatever calls are started and however their
requests interleave, the stored games are linear, every accepted reply is the
outcome of one of their moves, and what is stored is only added to. -/
theorem stored_games_linear (inst : Installation) (actions later : List ServiceAction) :
    (∀ gameId record, ((service inst).after .empty actions).store.game gameId = some record →
      ∃ games, Linear inst gameId record games) ∧
    (∀ i call result,
      ((service inst).after .empty actions).Returned i call (.acted (.ok result)) →
      ∃ gameId record row accepted, call.game? = some gameId ∧
        ((service inst).after .empty actions).store.game gameId = some record ∧
        row ∈ record.idempotency ∧ row.outcome = .accepted accepted ∧
        outcomeResult row.outcome = .ok result) ∧
    ∀ gameId old, ((service inst).after .empty actions).store.game gameId = some old →
      ∃ new, ((service inst).after .empty (actions ++ later)).store.game gameId = some new ∧
        old.snapshots <+: new.snapshots ∧ old.idempotency <+: new.idempotency := by
  have hSound := (ServicePool.sound_empty inst).after actions
  refine ⟨fun gameId record hRecord => ?_, fun i call result hReturned => ?_,
    fun gameId old hOld => ?_⟩
  · obtain ⟨past, g, hTold, -⟩ := hSound.inv.told gameId record hRecord
    exact ⟨past ++ [g], hTold.linear (game_gameId hRecord)⟩
  · exact (hSound.returned hReturned).accepted
  · rw [Machine.after_append]
    obtain ⟨new, hNew, hExtends⟩ := (hSound.grows_after later).games gameId old hOld
    exact ⟨new, hNew, hExtends.snapshots, hExtends.idempotency⟩

/-! Creations. -/

/-- Games that one step of a creation with a key adds to the store. -/
def insertedBy (inst : Installation) (key : IdempotencyKey) (pool : ServicePool)
    (action : ServiceAction) : List GameId :=
  match action with
  | .start _ => []
  | .advance i _ =>
      match (pool.threads[i]?).map Thread.call with
      | some (.create command) =>
          if command.idempotencyKey = key then
            (((service inst).step pool action).2.store.games.map (·.gameId)).filter fun gameId =>
              gameId ∉ pool.store.games.map (·.gameId)
          else []
      | _ => []

/-- Games that the creations with a key insert in the course of a run. -/
def insertions (inst : Installation) (key : IdempotencyKey) :
    ServicePool → List ServiceAction → List GameId
  | _, [] => []
  | pool, action :: actions =>
      insertedBy inst key pool action ++
        insertions inst key ((service inst).step pool action).2 actions

section

variable {inst : Installation} {key : IdempotencyKey} {origin : Store} {pool : ServicePool}

/-- A step of a creation adds nothing, or the first game under its key. -/
theorem insertedBy_cases (h : pool.Sound inst origin) (action : ServiceAction) :
    insertedBy inst key pool action = [] ∨
      (insertedBy inst key pool action).length ≤ 1 ∧
        pool.store.creation (digestKey inst.platform key) = none ∧
        (((service inst).step pool action).2.store.creation
          (digestKey inst.platform key)).isSome = true := by
  have hSame : ∀ ids : List GameId, (ids.filter fun gameId => gameId ∉ ids) = [] :=
    fun ids => List.filter_eq_nil_iff.mpr fun _ hId => by simpa using hId
  cases action with
  | start call => exact .inl rfl
  | advance i input =>
      cases hThread : pool.threads[i]? with
      | none => exact .inl (by simp [insertedBy, hThread])
      | some thread =>
          cases hCall : thread.call with
          | create command =>
              by_cases hKey : command.idempotencyKey = key
              · have hInserted : insertedBy inst key pool (.advance i input) =
                    (((service inst).step pool (.advance i input)).2.store.games.map
                      (·.gameId)).filter fun gameId => gameId ∉ pool.store.games.map (·.gameId) := by
                  simp [insertedBy, hThread, hCall, hKey]
                rw [hInserted]
                rcases h.allots hThread input with hKept | hAllots
                · exact .inl (hKept ▸ hSame _)
                · rw [hCall] at hAllots
                  rcases hAllots with hKept | hCreates
                  · exact .inl (hKept.1 ▸ hSame _)
                  · refine .inr ⟨?_, hKey ▸ hCreates.unused, hKey ▸ hCreates.used⟩
                    obtain ⟨gameId, hIds⟩ := hCreates.one
                    rw [hIds, List.filter_append, hSame, List.nil_append]
                    exact List.length_filter_le _ _
              · exact .inl (by simp [insertedBy, hThread, hCall, hKey])
          | _ => exact .inl (by simp [insertedBy, hThread, hCall])

/-- A run inserts nothing under a used key and at most one game otherwise. -/
theorem insertions_length (h : pool.Sound inst origin) (actions : List ServiceAction) :
    (insertions inst key pool actions).length ≤
      if (pool.store.creation (digestKey inst.platform key)).isSome = true then 0 else 1 := by
  induction actions generalizing pool with
  | nil => exact Nat.zero_le _
  | cons action actions ih =>
      have hRest := ih (h.step action)
      rw [insertions, List.length_append]
      rcases insertedBy_cases h action with hNone | ⟨hOne, hUnused, hUsed⟩
      · rw [hNone, List.length_nil, Nat.zero_add]
        refine Nat.le_trans hRest ?_
        split
        · exact Nat.zero_le _
        · rename_i hUnused
          rw [if_neg]
          intro hUsed
          obtain ⟨row, hRow⟩ := Option.isSome_iff_exists.mp hUsed
          exact hUnused (Option.isSome_iff_exists.mpr
            ⟨row, (h.grows_after [action]).creation hRow⟩)
      · rw [if_pos hUsed] at hRest
        rw [hUnused, if_neg (by simp)]
        omega

end

/-- Creations with one key insert at most one game in the course of a run,
whatever their payloads are and however they interleave, and those of them that
succeed reply the same. -/
theorem creations_insert_once (inst : Installation) (key : IdempotencyKey)
    (actions : List ServiceAction) :
    (insertions inst key .empty actions).length ≤ 1 ∧
    ∀ i j first second created created',
      first.idempotencyKey = key → second.idempotencyKey = key →
      ((service inst).after .empty actions).Returned i (.create first) (.created (.ok created)) →
      ((service inst).after .empty actions).Returned j (.create second) (.created (.ok created')) →
      created = created' := by
  have hSound := ServicePool.sound_empty inst
  refine ⟨insertions_length hSound actions, ?_⟩
  intro i j first second created created' hFirst hSecond hReturned hReturned'
  obtain ⟨row, hRow, -, rfl⟩ := (hSound.after actions).returned hReturned created rfl
  obtain ⟨row', hRow', -, rfl⟩ := (hSound.after actions).returned hReturned' created' rfl
  rw [hFirst] at hRow
  rw [hSecond, hRow, Option.some.injEq] at hRow'
  rw [hRow']

/-! Every creation has a game of its own. -/

/-- The games of the stored creations exist and are all different. -/
structure Minted (s : Store) : Prop where
  distinct : (s.creations.map (·.result.gameId)).Nodup
  exist : ∀ row ∈ s.creations, row.result.gameId ∈ s.games.map (·.gameId)

theorem Minted.sameGames {s t : Store} (h : Minted s) (hSame : SameGames s t) : Minted t := by
  obtain ⟨hGames, hCreations⟩ := hSame
  exact ⟨hCreations ▸ h.distinct, fun row hRow => hGames ▸ h.exist row (hCreations ▸ hRow)⟩

theorem Minted.inserts {platform : Platform} {s t : Store} {record : StoredGame}
    {creation : CreationIdempotencyRecord} {ruleset : Ruleset} {event : GameEvent} (h : Minted s)
    (hInserts : Inserts platform s t record creation ruleset event) : Minted t := by
  have hIds : t.games.map (·.gameId) = s.games.map (·.gameId) ++ [record.gameId] := by
    rw [hInserts.games, List.map_append]
    rfl
  refine ⟨?_, fun row hRow => ?_⟩
  · rw [hInserts.creations, List.map_append, List.map_singleton, List.nodup_append]
    refine ⟨h.distinct, List.nodup_singleton _, fun gameId hOld other hNew hSame => ?_⟩
    obtain ⟨row, hRow, rfl⟩ := List.mem_map.mp hOld
    obtain ⟨game, hGame, hId⟩ := List.mem_map.mp (h.exist row hRow)
    rw [List.mem_singleton.mp hNew, hInserts.sameGame] at hSame
    exact List.find?_eq_none.mp hInserts.newGame game hGame (decide_eq_true (hId.trans hSame))
  · rw [hIds]
    rw [hInserts.creations] at hRow
    rcases List.mem_append.mp hRow with hOld | hNew
    · exact List.mem_append_left _ (h.exist row hOld)
    · rw [List.mem_singleton.mp hNew, hInserts.sameGame]
      exact List.mem_append_right _ (List.mem_singleton_self _)

theorem Writes.minted {inst : Installation} {event : ServiceEvent} {u : Store} {call : ServiceCall}
    (h : Writes inst event u call) (hMinted : Minted event.before) : Minted u := by
  cases call with
  | create command =>
      rcases h with ⟨-, rfl⟩ | ⟨_, _, _, _, _, -, hInserts, -⟩
      · exact hMinted
      · exact hMinted.inserts hInserts
  | act credential command => exact hMinted.sameGames h.allots
  | timeout command => exact hMinted.sameGames h.allots
  | sweep limit => exact hMinted.sameGames h.allots

theorem Minted.step {inst : Installation} {origin : Store} {pool : ServicePool}
    (h : Minted pool.store) (hSound : pool.Sound inst origin) (action : ServiceAction) :
    Minted ((service inst).step pool action).2.store := by
  cases action with
  | start call => exact h
  | advance i input =>
      cases hThread : pool.threads[i]? with
      | none =>
          have hIdle : ((service inst).step pool (.advance i input)).2 = pool := by
            change pool.step (repository inst) (serve inst) (.advance i input) = pool
            simp only [Pool.step, hThread]
          rw [hIdle]
          exact h
      | some thread =>
          rcases Pool.Sound.own (serve inst) hSound (pool.permits inst (.advance i input)) hThread with
            hKept | ⟨event, hBefore, hWrites⟩
          · change Minted (pool.step (repository inst) (serve inst) (.advance i input)).store
            rw [hKept]
            exact h
          · exact Writes.minted hWrites (hBefore ▸ h)

/-- Replies of creations that name the same game come from the same stored row. -/
theorem CreatedAs.same {inst : Installation} {s : Store} {first second : CreateGameCommand}
    {created created' : CreatedGame} (h : CreatedAs inst first s created)
    (h' : CreatedAs inst second s created') (hMinted : Minted s)
    (hGame : created.gameId = created'.gameId) :
    digestKey inst.platform first.idempotencyKey = digestKey inst.platform second.idempotencyKey ∧
      payloadSha256 inst.platform first.payload.json =
        payloadSha256 inst.platform second.payload.json := by
  obtain ⟨row, hRow, hPayload, rfl⟩ := h
  obtain ⟨row', hRow', hPayload', rfl⟩ := h'
  have hSame : row = row' := List.inj_on_of_nodup_map hMinted.distinct
    (List.mem_of_find?_eq_some hRow) (List.mem_of_find?_eq_some hRow') hGame
  subst hSame
  have hKey := List.find?_some hRow
  have hKey' := List.find?_some hRow'
  simp only [decide_eq_true_eq] at hKey hKey'
  exact ⟨hKey.symm.trans hKey', hPayload.symm.trans hPayload'⟩

end WordArena.Service
