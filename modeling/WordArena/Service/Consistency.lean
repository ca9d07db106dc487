import WordArena.Service.History

/-! The repository keeps the discipline: a commit adds at most one accepted
move to the history of its game, an insert starts one, and nothing that was
stored is lost. A stored game loads as its last checkpoint. -/
namespace WordArena.Service

open Fallible WordArena.Engine WordArena.Lexicon WordArena.Application

section

variable {inst : Installation} {record : GameRecord} {past : List Game} {g : Game}

theorem nextDeadline_eq_some {policy : OperationalPolicy} {since : UnixMillis} {d : TurnDeadline} :
    nextDeadline policy g since = some d ↔ g.state.phase = .active ∧
      d = ⟨g.state.version, g.state.currentPlayer,
        Checked.saturateI64 (since + policy.turnDurationMs), policy.version⟩ := by
  unfold nextDeadline
  split
  · rename_i hPhase
    rw [Option.some.injEq]
    exact ⟨fun h => ⟨hPhase, h.symm⟩, fun h => h.2.symm⟩
  · rename_i hPhase
    exact ⟨nofun, fun h => absurd h.1 hPhase⟩

/-- The checkpoint of the current version is the last one. -/
theorem Told.snapshot (h : Told inst record past g) :
    record.snapshot record.version = some (g.snapshot inst.platform) := by
  have hPast : ∀ old ∈ past, old.state.version ≠ g.state.version := by
    intro old hOld hSame
    obtain ⟨before, after, rfl⟩ := List.append_of_mem hOld
    have hEarlier : Lineage inst record.gameId before old := h.lineage.earlier (by simp)
    have hLength := hEarlier.version
    rw [hSame, h.lineage.version, List.length_append, List.length_cons] at hLength
    omega
  rw [GameRecord.snapshot, h.snapshots, h.version, List.find?_map, List.find?_append]
  have hNone : past.find? ((fun snapshot : GameSnapshot => decide (snapshot.state.version =
      g.state.version)) ∘ fun game => game.snapshot inst.platform) = none :=
    List.find?_eq_none.mpr fun old hOld => by simpa [Game.snapshot] using hPast old hOld
  rw [hNone]
  simp [Game.snapshot]

/-- A reported move is not ahead of the history. -/
theorem Reports.sequence_le {result : PersistedActionResult}
    (h : Reports inst (past ++ [g]) result) {gameId : GameId} (l : Lineage inst gameId past g) :
    result.event.sequence.toNat ≤ g.state.version.toNat := by
  obtain ⟨past', before, after, seat, action, hPrefix, hMove, -⟩ := h.move
  have hLength := hPrefix.length_le
  have hAfter : Lineage inst gameId (past' ++ [before]) after := l.earlier (by simpa using hPrefix)
  rw [hMove.recorded.1, hAfter.version, l.version]
  simp only [List.length_append, List.length_cons, List.length_nil] at hLength ⊢
  omega

theorem Reports.later {result : PersistedActionResult} {games games' : List Game}
    (h : Reports inst games result) (hPrefix : games <+: games') : Reports inst games' result := by
  obtain ⟨past', before, after, seat, action, hGames, hRest⟩ := h.move
  exact ⟨past', before, after, seat, action, hGames.trans hPrefix, hRest⟩

/-- Rows of retry keys after a commit, when the game keeps its history. -/
theorem Told.keys_append (h : Told inst record past g) {row : IdempotencyRecord}
    (hFresh : ∀ other ∈ record.idempotency, row.keyDigest ≠ other.keyDigest) :
    ((record.idempotency ++ [row]).map (·.keyDigest)).Nodup := by
  rw [List.map_append]
  refine List.nodup_append.mpr ⟨h.keys, List.nodup_singleton _, ?_⟩
  intro key hKey last hLast hSame
  obtain ⟨other, hOther, rfl⟩ := List.mem_map.mp hKey
  rw [List.map_singleton, List.mem_singleton] at hLast
  exact hFresh other hOther (hLast.symm.trans hSame.symm)

theorem Told.owned_append (h : Told inst record past g) {row : IdempotencyRecord}
    (hRow : row.gameId = record.gameId) :
    ∀ other ∈ record.idempotency ++ [row], other.gameId = record.gameId := by
  intro other hOther
  rcases List.mem_append.mp hOther with hOld | hNew
  · exact h.owned other hOld
  · rw [List.mem_singleton.mp hNew, hRow]

/-- A stored rejection leaves the history of its game alone. -/
theorem Told.stay (h : Told inst record past g) {commit : ActionCommit} {next : GameRecord}
    (hCommits : Commits commit record next) (hId : commit.idempotency.gameId = record.gameId)
    (hAbsent : commit.successor = none)
    (hRejected : ∃ rejection, commit.idempotency.outcome = .rejected rejection) :
    Told inst next past g := by
  obtain ⟨progress, replay, fresh⟩ := hCommits
  obtain ⟨rejection, hRejection⟩ := hRejected
  cases progress with
  | advance successor _ => exact absurd (hAbsent.symm.trans successor) (by simp)
  | stay _ =>
      refine { h with
        replays := fun row hRow => ?_
        keys := h.keys_append fresh
        owned := h.owned_append hId
        outcomes := fun row hRow result hResult => ?_
        once := ?_ }
      · rcases replay row hRow with hOld | ⟨successor, hSuccessor, -⟩
        · exact h.replays row hOld
        · rw [hAbsent] at hSuccessor
          cases hSuccessor
      · rcases List.mem_append.mp hRow with hOld | hNew
        · exact h.outcomes row hOld result hResult
        · rw [List.mem_singleton.mp hNew, hRejection] at hResult
          cases hResult
      · have hNone : [commit.idempotency].filterMap IdempotencyRecord.acceptedVersion = [] := by
          simp [IdempotencyRecord.acceptedVersion, hRejection]
        rw [List.filterMap_append, hNone, List.append_nil]
        exact h.once

/-- A stored move adds one game to the history. -/
theorem Told.move (h : Told inst record past g) {commit : ActionCommit} {next : GameRecord}
    {g' : Game} {seat : Seat} {action : Move} {event : GameEvent} {successor : StoredGame}
    (hCommits : Commits commit record next) (hId : commit.idempotency.gameId = record.gameId)
    (hMove : Accepted inst.platform g seat action g' event)
    (hSuccessor : commit.successor = some successor)
    (hSnapshot : successor.snapshot = g'.snapshot inst.platform)
    (hDeadline : successor.turnDeadline = nextDeadline inst.policy g' successor.updatedAt)
    (hWord : successor.updatedAt < 2 ^ 63)
    (hOutcome : ∀ result, commit.idempotency.outcome = .accepted result →
      result.event = event ∧ result.game = g'.seatProjection seat ∧
        result.turnDeadline = nextDeadline inst.policy g' result.committedAt) :
    Told inst next (past ++ [g]) g' := by
  have hLineage : Lineage inst record.gameId (past ++ [g]) g' := h.lineage.next hMove
  have hVersion := hMove.version
  have hPrefix : past ++ [g] <+: past ++ [g] ++ [g'] := List.prefix_append _ _
  have hSequence : event.sequence = g'.state.version := hMove.recorded.1
  obtain ⟨progress, replay, fresh⟩ := hCommits
  cases progress with
  | stay absent => exact absurd (absent.symm.trans hSuccessor) (by simp)
  | @advance successor' previous last privateEvents hSame replaces =>
      rw [hSuccessor, Option.some.injEq] at hSame
      subst hSame
      obtain ⟨-, hPrivate, -, -, hLast, -⟩ := validateSuccessor_eq_ok.mp replaces.successor
      have hPrevious : previous = g.snapshot inst.platform := by
        have hStored := replaces.stored
        rw [← replaces.current, h.snapshot, Option.some.injEq] at hStored
        exact hStored.symm
      have hEvent : last = event := by
        rw [hSnapshot] at hLast
        change g'.events.getLast? = _ at hLast
        rw [hMove.recorded.2.1, List.getLast?_concat, Option.some.injEq] at hLast
        exact hLast.symm
      have hAdded : g'.privateEvents = g.privateEvents ++ privateEvents := by
        rw [hPrivate, hPrevious, hSnapshot]
        change g'.privateEvents = g.privateEvents ++ g'.privateEvents.drop g.privateEvents.length
        obtain ⟨c, -, rfl, -⟩ := hMove.commit
        change g.privateEvents ++ c.privateEvents =
          g.privateEvents ++ (g.privateEvents ++ c.privateEvents).drop g.privateEvents.length
        rw [List.drop_left]
      obtain ⟨-, hLexicon, hRulesetId, hRuleset⟩ := hMove.identity
      refine {
        lineage := hLineage
        snapshots := ?_
        version := congrArg (·.state.version) hSnapshot
        status := congrArg (·.state.phase) hSnapshot
        rules := ?_
        pack := ?_
        times := ⟨h.times.1, replaces.times.2, hWord⟩
        publicEvents := ?_
        privateEvents := ?_
        deadline := ?_
        deadlines := ?_
        replays := ?_
        keys := h.keys_append fresh
        owned := h.owned_append hId
        outcomes := ?_
        once := ?_ }
      · change record.snapshots ++ [successor.snapshot] = _
        rw [h.snapshots, hSnapshot, List.map_append, List.map_append, List.map_append]
        rfl
      · rw [hRulesetId, hRuleset]
        exact h.rules
      · rw [hLexicon]
        exact h.pack
      · change record.publicEvents ++ [last] = g'.events
        rw [h.publicEvents, hMove.recorded.2.1, hEvent]
      · change record.privateEvents ++ privateEvents = g'.privateEvents
        rw [h.privateEvents, hAdded]
      · change (record.deadlines ++ successor.turnDeadline.toList).find? _ =
          nextDeadline inst.policy g' successor.updatedAt
        have hOld : (record.deadlines.find? fun d => d.turn = g'.state.version) = none := by
          refine List.find?_eq_none.mpr fun d hd => ?_
          have hTurn := h.deadlines d hd
          intro hSame
          rw [of_decide_eq_true hSame, hVersion] at hTurn
          omega
        rw [List.find?_append, hOld, Option.none_or, hDeadline]
        cases hNext : nextDeadline inst.policy g' successor.updatedAt with
        | none => rfl
        | some d => simp [(nextDeadline_eq_some.mp hNext).2]
      · intro d hd
        rcases List.mem_append.mp hd with hOld | hNew
        · exact Nat.le_trans (h.deadlines d hOld) (by omega)
        · rw [Option.mem_toList, hDeadline] at hNew
          rw [(nextDeadline_eq_some.mp hNew).2]
      · intro row hRow
        rcases replay row hRow with hOld | ⟨other, hOther, hReplay⟩
        · exact Nat.le_trans (h.replays row hOld) (by omega)
        · rw [hSuccessor, Option.mem_some_iff] at hOther
          subst hOther
          rw [hReplay, hSnapshot]
          exact Nat.le_refl _
      · intro row hRow result hResult
        rcases List.mem_append.mp hRow with hOld | hNew
        · exact (h.outcomes row hOld result hResult).later hPrefix
        · rw [List.mem_singleton.mp hNew] at hResult
          obtain ⟨hSameEvent, hGame, hTurn⟩ := hOutcome result hResult
          refine ⟨past, g, g', seat, action, ?_, hSameEvent ▸ hMove, hGame, hTurn⟩
          rw [List.append_assoc]
          exact List.prefix_refl _
      · rw [List.filterMap_append]
        refine List.nodup_append.mpr ⟨h.once, ?_, ?_⟩
        · cases hOut : commit.idempotency.acceptedVersion with
          | none => simp [hOut]
          | some version => simp [hOut]
        · intro version hOld last' hNew hSame
          subst hSame
          obtain ⟨row, hRow, hAccepted⟩ := List.mem_filterMap.mp hOld
          obtain ⟨row', hRow', hAccepted'⟩ := List.mem_filterMap.mp hNew
          rw [List.mem_singleton.mp hRow'] at hAccepted'
          unfold IdempotencyRecord.acceptedVersion at hAccepted hAccepted'
          split at hAccepted
          · rename_i result hResult
            split at hAccepted'
            · rename_i result' hResult'
              have hBound := (h.outcomes row hRow result hResult).sequence_le h.lineage
              rw [Option.some.inj hAccepted, ← Option.some.inj hAccepted',
                (hOutcome result' hResult').1, hSequence, hVersion] at hBound
              omega
            · cases hAccepted'
          · cases hAccepted

end

/-! Stores. -/

section

variable {inst : Installation} {s t : Store} {gameId : GameId}

theorem Shelved.touched {g : Game} {record next : GameRecord} (h : Shelved s g)
    (hTouches : Touches s t gameId record next) : Shelved t g := by
  obtain ⟨hRuleset, hLexicon⟩ := h
  constructor
  · rw [Store.ruleset, hTouches.rulesets]
    exact hRuleset
  · rw [Store.lexicon, hTouches.lexicons]
    exact hLexicon

/-- A game keeps its rules and its dictionary from move to move. -/
theorem Shelved.accepted {g g' : Game} {seat : Seat} {action : Move} {event : GameEvent}
    (h : Shelved s g) (hMove : Accepted inst.platform g seat action g' event) : Shelved s g' := by
  obtain ⟨-, hLexicon, hRulesetId, hRuleset⟩ := hMove.identity
  obtain ⟨c, -, rfl, -⟩ := hMove.commit
  constructor
  · rw [hRulesetId, hRuleset]
    exact h.ruleset
  · rw [hLexicon]
    exact h.lexicon

theorem Sane.touched {record next : GameRecord} {past : List Game} {g : Game} (h : Sane inst s)
    (hTouches : Touches s t gameId record next) (hTold : Told inst next past g)
    (hShelved : Shelved t g) : Sane inst t where
  ids := hTouches.ids ▸ h.ids
  told other row hRow := by
    by_cases hOther : other = gameId
    · subst hOther
      obtain rfl := hTouches.unique hRow
      exact ⟨past, g, hTold, hShelved⟩
    · rw [hTouches.others other hOther] at hRow
      obtain ⟨past', g', hTold', hShelved'⟩ := h.told other row hRow
      exact ⟨past', g', hTold', hShelved'.touched hTouches⟩
  creations := hTouches.creations ▸ h.creations

theorem Grows.touched {record next : GameRecord} (hTouches : Touches s t gameId record next)
    (hExtends : Extends record next) : Grows s t where
  games other old hOld := by
    by_cases hOther : other = gameId
    · subst hOther
      rw [hTouches.before, Option.some.injEq] at hOld
      exact ⟨next, hTouches.after, hOld ▸ hExtends⟩
    · exact ⟨old, (hTouches.others other hOther).trans hOld, .refl old⟩
  creations := hTouches.creations ▸ List.prefix_refl _

/-- Counters are never dropped. -/
theorem Recounts.isSome {attempt : Option InvalidAttemptState} {record next : GameRecord}
    (h : Recounts attempt record next) (turn : UInt64) (seat : Seat)
    (hSome : (record.attempt turn seat).isSome = true) : (next.attempt turn seat).isSome = true := by
  by_cases hHit : ∃ a ∈ attempt, a.turn = turn ∧ a.seat = seat
  · obtain ⟨a, ha, rfl, rfl⟩ := hHit
    rw [(h.counted a ha).1]
    rfl
  · rw [h.others turn seat fun a ha hSame => hHit ⟨a, ha, hSame⟩]
    exact hSome

theorem Commits.extends {commit : ActionCommit} {record next : GameRecord}
    (h : Commits commit record next) : Extends record next := by
  obtain ⟨progress, -, -, counts⟩ := h
  have hAttempts := counts.isSome
  cases progress with
  | stay _ => exact ⟨rfl, List.prefix_refl _, List.prefix_append _ _, hAttempts⟩
  | advance _ _ => exact ⟨rfl, List.prefix_append _ _, List.prefix_append _ _, hAttempts⟩

theorem Commits.cached {commit : ActionCommit} {record next : GameRecord}
    (h : Commits commit record next) :
    next.cached commit.idempotency.keyDigest = some commit.idempotency := by
  obtain ⟨-, -, fresh⟩ := h
  have hNone : (record.idempotency.find? fun row =>
      row.keyDigest = commit.idempotency.keyDigest) = none :=
    List.find?_eq_none.mpr fun row hRow => by simpa using (fresh row hRow).symm
  change (record.idempotency ++ [commit.idempotency]).find? _ = _
  rw [List.find?_append, hNone]
  simp

/-- A sincere commit keeps every stored history. -/
theorem Sane.commit (h : Sane inst s) {commit : ActionCommit}
    (hSincere : Sincere inst s commit) (hCommit : commitActionRecord s commit = .ok t) :
    ∃ record next, Sane inst t ∧ Grows s t ∧
      Touches s t commit.idempotency.gameId record next ∧ Commits commit record next := by
  have hSame : ∀ successor ∈ commit.successor,
      successor.gameId = commit.idempotency.gameId := by
    intro successor hSuccessor
    cases hSincere with
    | stay absent _ =>
        rw [absent] at hSuccessor
        cases hSuccessor
    | move _ _ _ present gameId =>
        rw [present, Option.mem_some_iff] at hSuccessor
        exact hSuccessor ▸ gameId
  obtain ⟨record, next, hTouches, hCommits⟩ := commitActionRecord_touches hCommit hSame
  obtain ⟨past, g, hTold, hShelved⟩ := h.told _ _ hTouches.before
  have hId := (game_gameId hTouches.before).symm
  refine ⟨record, next, ?_, .touched hTouches hCommits.extends, hTouches, hCommits⟩
  cases hSincere with
  | stay absent rejected =>
      exact h.touched hTouches (hTold.stay hCommits hId absent rejected) (hShelved.touched hTouches)
  | @move past' g0 g' seat action event successor visited accepted expected present _ snapshot
      deadline word outcome =>
      have hCurrent : g0 = g := by
        refine visited.current hTouches.before hTold ?_
        rw [← hTold.version, ← expected]
        obtain ⟨progress, -, -⟩ := hCommits
        cases progress with
        | stay absent => exact absurd (absent.symm.trans present) (by simp)
        | advance _ replaces => exact replaces.current.symm
      subst hCurrent
      exact h.touched hTouches
        (hTold.move hCommits hId accepted present snapshot deadline word outcome)
        ((hShelved.accepted accepted).touched hTouches)

/-! Loading. -/

/-- A stored game loads as its last checkpoint. -/
theorem Told.load {record : GameRecord} {past : List Game} {g : Game}
    (h : Told inst record past g) (hShelved : Shelved s g) (hRecord : s.game gameId = some record) :
    loadGame inst.platform s gameId = .ok ⟨gameId, record.createdAt, record.updatedAt,
      g.snapshot inst.platform, nextDeadline inst.policy g record.updatedAt⟩ := by
  have hReachable := h.lineage.reachable
  have hId := game_gameId hRecord
  have hBound := hReachable.version_le_builtin
  obtain ⟨first, created, hFirst, hCreated, -, hSame⟩ := hReachable.annals.first
  obtain ⟨ruleset, hRuleset, hDefinition⟩ := hShelved.ruleset
  obtain ⟨lexicon, hLexicon, hIdentity⟩ := hShelved.lexicon
  rw [← h.rules.1, ← h.rules.2] at hRuleset
  rw [← h.pack.1, ← h.pack.2.1, ← h.pack.2.2] at hLexicon
  have hEvents : record.publicEvents.mergeSort (fun a b => a.sequence ≤ b.sequence) = g.events := by
    rw [h.publicEvents]
    refine List.mergeSort_of_pairwise (hReachable.annals.ordered.imp fun hLess => ?_)
    exact decide_eq_true (UInt64.le_of_lt hLess)
  have hPrivate : record.privateEvents.mergeSort (fun a b => a.sequence < b.sequence ∨
      a.sequence = b.sequence ∧ a.seat.index ≤ b.seat.index) = g.privateEvents := by
    rw [h.privateEvents]
    refine List.mergeSort_of_pairwise (hReachable.chronicle.ordered.imp fun hLess => ?_)
    exact decide_eq_true (.inl hLess)
  refine bind_eq_ok.mpr ⟨record, okOr_eq_ok.mpr hRecord, ?_⟩
  refine bind_eq_ok.mpr ⟨_, okOr_eq_ok.mpr h.snapshot, ?_⟩
  refine bind_eq_ok.mpr ⟨ruleset, okOr_eq_ok.mpr hRuleset, ?_⟩
  refine bind_eq_ok.mpr ⟨lexicon, okOr_eq_ok.mpr hLexicon, ?_⟩
  refine bind_eq_ok.mpr ⟨(), reject_eq_ok.mpr (not_not.mpr rfl), ?_⟩
  refine bind_eq_ok.mpr ⟨(), reject_eq_ok.mpr (not_or.mpr ⟨Int.not_lt.mpr h.times.1,
    Int.not_lt.mpr (Int.le_trans h.times.1 h.times.2.1)⟩), ?_⟩
  refine bind_eq_ok.mpr ⟨(), ?_, ?_⟩
  · refine bind_eq_ok.mpr ⟨(), reject_eq_ok.mpr ?_, reject_eq_ok.mpr ?_⟩
    · simp only [not_or, not_not]
      exact ⟨hId ▸ h.lineage.named, h.version.symm, h.status, h.rules.1, h.rules.2⟩
    · simp only [not_or, not_not]
      exact h.pack
  refine bind_eq_ok.mpr ⟨(), ?_, ?_⟩
  · refine bind_eq_ok.mpr ⟨first, okOr_eq_ok.mpr hFirst, ?_⟩
    refine bind_eq_ok.mpr ⟨created, mapErr_eq_ok.mpr hCreated, reject_eq_ok.mpr ?_⟩
    rw [hDefinition, hSame, not_or, not_not, not_not]
    exact ⟨rfl, rfl⟩
  refine bind_eq_ok.mpr ⟨(), reject_eq_ok.mpr (not_not.mpr hIdentity), ?_⟩
  refine bind_eq_ok.mpr ⟨(), reject_eq_ok.mpr ?_, ?_⟩
  · rw [hEvents, hPrivate, not_or, not_not, not_not]
    exact ⟨rfl, rfl⟩
  refine bind_eq_ok.mpr ⟨nextDeadline inst.policy g record.updatedAt, ?_, rfl⟩
  refine bind_eq_ok.mpr ⟨(), ensureI64_eq_ok.mpr ?_, ?_⟩
  · rw [h.version]
    omega
  rw [h.version, h.deadline]
  cases hNext : nextDeadline inst.policy g record.updatedAt with
  | none => rfl
  | some d =>
      refine bind_eq_ok.mpr ⟨(), reject_eq_ok.mpr ?_, rfl⟩
      rw [(nextDeadline_eq_some.mp hNext).2]
      exact Int.not_lt.mpr (Checked.le_saturateI64 (by decide)
        (Int.add_nonneg (Int.le_trans h.times.1 h.times.2.1)
          (Int.le_of_lt inst.policy.turnDuration_pos)))

/-- Loading in a sane store never reports corruption. -/
theorem Sane.load (h : Sane inst s) (gameId : GameId) :
    (s.game gameId = none ∧ loadGame inst.platform s gameId = .error .notFound) ∨
      ∃ record past g, s.game gameId = some record ∧ Told inst record past g ∧
        loadGame inst.platform s gameId = .ok ⟨gameId, record.createdAt, record.updatedAt,
          g.snapshot inst.platform, nextDeadline inst.policy g record.updatedAt⟩ := by
  cases hRecord : s.game gameId with
  | none =>
      refine .inl ⟨rfl, ?_⟩
      rw [loadGame, hRecord]
      rfl
  | some record =>
      obtain ⟨past, g, hTold, hShelved⟩ := h.told gameId record hRecord
      exact .inr ⟨record, past, g, rfl, hTold, hTold.load hShelved hRecord⟩

/-! Inserting. -/

theorem Inserts.game {platform : Platform} {record : StoredGame}
    {creation : CreationIdempotencyRecord} {ruleset : Ruleset} {event : GameEvent}
    (h : Inserts platform s t record creation ruleset event) (gameId : GameId) :
    t.game gameId = if gameId = record.gameId then some (.created record event)
      else s.game gameId := by
  rw [Store.game, h.games, List.find?_append]
  have hNew := h.newGame
  rw [Store.game] at hNew
  by_cases hSame : gameId = record.gameId
  · subst hSame
    rw [hNew, if_pos rfl]
    simp [GameRecord.created, GameRecord.fresh]
  · rw [if_neg hSame, Store.game]
    cases s.games.find? fun row => decide (row.gameId = gameId) with
    | some row => rfl
    | none => simp [GameRecord.created, GameRecord.fresh, Ne.symm hSame]

/-- The rows of a freshly dealt game tell its one-game history. -/
theorem Told.created {record : StoredGame} {event : GameEvent} {g : Game}
    (hLineage : Lineage inst record.gameId [] g)
    (hSnapshot : record.snapshot = g.snapshot inst.platform)
    (hDeadline : record.turnDeadline = nextDeadline inst.policy g record.updatedAt)
    (hTime : 0 ≤ record.createdAt ∧ record.createdAt ≤ record.updatedAt)
    (hWord : record.updatedAt < 2 ^ 63) (hActive : g.state.phase = .active)
    (hEvents : g.events = [event]) (hPrivate : g.privateEvents = []) :
    Told inst (.created record event) [] g where
  lineage := hLineage
  snapshots := congrArg (fun snapshot => [snapshot]) hSnapshot
  version := (UInt64.toNat_inj.mp hLineage.version).symm
  status := hActive.symm
  rules := ⟨congrArg (·.state.rulesetId) hSnapshot, congrArg (·.state.ruleset.contentSha256) hSnapshot⟩
  pack := ⟨congrArg (·.state.lexicon.packId) hSnapshot,
    congrArg (·.state.lexicon.packVersion) hSnapshot,
    congrArg (·.state.lexicon.contentSha256) hSnapshot⟩
  times := ⟨hTime.1, hTime.2, hWord⟩
  publicEvents := hEvents.symm
  privateEvents := hPrivate.symm
  deadline := by
    change record.turnDeadline.toList.find? _ = nextDeadline inst.policy g record.updatedAt
    rw [hDeadline]
    cases hNext : nextDeadline inst.policy g record.updatedAt with
    | none => rfl
    | some d => simp [(nextDeadline_eq_some.mp hNext).2]
  deadlines := by
    intro d hd
    change d ∈ record.turnDeadline.toList at hd
    rw [Option.mem_toList, hDeadline] at hd
    rw [(nextDeadline_eq_some.mp hd).2]
  replays _ hRow := absurd hRow List.not_mem_nil
  keys := List.nodup_nil
  owned _ hRow := absurd hRow List.not_mem_nil
  outcomes _ hRow := absurd hRow List.not_mem_nil
  once := List.nodup_nil

/-- The rows an insert adds tell the history of a dealt game. -/
theorem Inserts.told {record : StoredGame} {creation : CreationIdempotencyRecord} {ruleset : Ruleset}
    {event : GameEvent} {g : Game} (h : Inserts inst.platform s t record creation ruleset event)
    (hLineage : Lineage inst record.gameId [] g)
    (hSnapshot : record.snapshot = g.snapshot inst.platform)
    (hDeadline : record.turnDeadline = nextDeadline inst.policy g record.updatedAt)
    (hWord : record.updatedAt < 2 ^ 63) :
    Told inst (.created record event) [] g ∧ g.events.head? = some event := by
  obtain ⟨_, hFacts, -⟩ := bind_eq_ok.mp h.initial
  rw [reject_eq_ok] at hFacts
  simp only [not_or, not_not, hSnapshot] at hFacts
  obtain ⟨-, -, hActive, -, -, hOne, hPrivate⟩ := hFacts
  have hHead : g.events.head? = some event := by
    have hFirst := h.first
    rwa [hSnapshot] at hFirst
  have hEvents : g.events = [event] := by
    obtain ⟨only, hOnly⟩ := List.length_eq_one_iff.mp hOne
    change g.events = [only] at hOnly
    rw [hOnly, List.head?_cons, Option.some.injEq] at hHead
    rw [hOnly, hHead]
  exact ⟨.created hLineage hSnapshot hDeadline h.time hWord hActive hEvents hPrivate, hHead⟩

/-- A new game starts a history of its own. -/
theorem Sane.insert (h : Sane inst s) {record : StoredGame} {creation : CreationIdempotencyRecord}
    {g : Game} (hLineage : Lineage inst record.gameId [] g)
    (hSnapshot : record.snapshot = g.snapshot inst.platform)
    (hDeadline : record.turnDeadline = nextDeadline inst.policy g record.updatedAt)
    (hWord : record.updatedAt < 2 ^ 63)
    (hInsert : insertGame inst.platform s record creation = .ok t) :
    Sane inst t ∧ Grows s t ∧ t.creations = s.creations ++ [creation] ∧
      (∀ other ∈ s.creations, creation.keyDigest ≠ other.keyDigest) ∧
      t.games.map (·.gameId) = s.games.map (·.gameId) ++ [record.gameId] := by
  obtain ⟨ruleset, event, hInserts⟩ := insertGame_ok hInsert
  have hGame := hInserts.game
  have hReachable := hLineage.reachable
  obtain ⟨hTold, hHead⟩ := hInserts.told hLineage hSnapshot hDeadline hWord
  have hRuleset : ruleset = g.ruleset := by
    obtain ⟨first, created, hFirst, hCreated, -, hSame⟩ := hReachable.annals.first
    rw [hHead, Option.some.injEq] at hFirst
    subst hFirst
    obtain ⟨created', hCreated', hRuleset⟩ := hInserts.created
    rw [hCreated, Except.ok.injEq] at hCreated'
    rw [← hRuleset, ← hCreated', hSame]
  have hIdentified := hReachable.identified
  have hShelved : Shelved t g := by
    constructor
    · rw [hIdentified.rulesetId, hIdentified.ruleset, ← hRuleset]
      exact hInserts.rules
    · have hPack := hInserts.pack
      rw [hSnapshot] at hPack
      exact hPack
  refine ⟨⟨?_, fun gameId row hRow => ?_, ?_⟩, ⟨fun gameId old hOld => ?_, ?_⟩,
    hInserts.creations, hInserts.newKey, by rw [hInserts.games, List.map_append]; rfl⟩
  · rw [hInserts.games, List.map_append]
    refine List.nodup_append.mpr ⟨h.ids, List.nodup_singleton _, ?_⟩
    intro id hId last hLast hSame
    obtain ⟨row, hRow, rfl⟩ := List.mem_map.mp hId
    rw [List.map_singleton, List.mem_singleton] at hLast
    refine absurd (List.find?_eq_none.mp hInserts.newGame row hRow) (not_not.mpr ?_)
    exact decide_eq_true (hSame.trans hLast)
  · rw [hGame] at hRow
    split at hRow
    · cases hRow
      exact ⟨[], g, hTold, hShelved⟩
    · obtain ⟨past, g', hTold', hShelved'⟩ := h.told gameId row hRow
      obtain ⟨rules, hRules, hDefinition⟩ := hShelved'.ruleset
      obtain ⟨pack, hPack, hIdentity⟩ := hShelved'.lexicon
      exact ⟨past, g', hTold', ⟨rules, hInserts.rulesets _ _ _ hRules, hDefinition⟩,
        ⟨pack, hInserts.lexicons _ _ _ _ hPack, hIdentity⟩⟩
  · rw [hInserts.creations, List.map_append]
    refine List.nodup_append.mpr ⟨h.creations, List.nodup_singleton _, ?_⟩
    intro key hKey last hLast hSame
    obtain ⟨row, hRow, rfl⟩ := List.mem_map.mp hKey
    rw [List.map_singleton, List.mem_singleton] at hLast
    exact hInserts.newKey row hRow (hLast.symm.trans hSame.symm)
  · refine ⟨old, ?_, .refl old⟩
    rw [hGame, if_neg]
    · exact hOld
    · rintro rfl
      exact absurd (hInserts.newGame.symm.trans hOld) (by simp)
  · rw [hInserts.creations]
    exact List.prefix_append _ _

end

end WordArena.Service
