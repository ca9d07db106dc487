import WordArena.Service.Contract

/-! When the repository goes along: an accepted move of the current game is
committed unless its retry key is taken, a move of an older game is a conflict,
and a rejection needs a free key only. -/
namespace WordArena.Service

open Fallible WordArena.Engine WordArena.Lexicon WordArena.Application

/-- Parts of a command that the repository checks before it stores them. -/
structure CommandIdentity.Valid (id : CommandIdentity) : Prop where
  kind : id.commandKind ≠ ""
  payload : validSha256 id.payloadSha256 = true

theorem payloadSha256_valid (platform : Platform) (json : String) :
    validSha256 (payloadSha256 platform json) = true :=
  validSha256_hexLower _

theorem GameActionCommand.identity_valid (platform : Platform) (command : GameActionCommand) :
    (command.identity platform).Valid :=
  ⟨(by decide : "game_action" ≠ ""), payloadSha256_valid _ _⟩

theorem TimeoutCommand.identity_valid (inst : Installation) (command : TimeoutCommand)
    (key : IdempotencyKey) : (command.identity inst key).Valid :=
  ⟨(by decide : "turn_timeout" ≠ ""), payloadSha256_valid _ _⟩

section

variable {inst : Installation} {s t : Store} {record : GameRecord} {past : List Game} {g g' : Game}
  {seat : Seat} {action : Move} {event : GameEvent}

/-- The snapshot after an accepted move is a valid successor. -/
theorem validateSuccessor_accepted (h : Accepted inst.platform g seat action g' event) :
    validateSuccessor (g.snapshot inst.platform) (g'.snapshot inst.platform) =
      .ok (event, g'.privateEvents.drop g.privateEvents.length) := by
  have hVersion := h.version
  have hWord := g'.state.version.toNat_lt
  obtain ⟨hSequence, hEvents, hPrivate⟩ := h.recorded
  obtain ⟨-, hLexicon, -, -⟩ := h.identity
  obtain ⟨c, -, hGame, -⟩ := h.commit
  have hAdded : g.privateEvents <+: g'.privateEvents ∧
      (g'.privateEvents.drop g.privateEvents.length).length ≤ 1 ∧
      ∀ e ∈ g'.privateEvents.drop g.privateEvents.length, e.sequence = g'.state.version := by
    rcases hPrivate with ⟨-, hSame⟩ | ⟨reason, transition, -, hTransition, hMore⟩
    · rw [hSame, List.drop_length]
      exact ⟨List.prefix_refl _, Nat.zero_le _, fun _ hMem => absurd hMem List.not_mem_nil⟩
    · rw [hMore, List.drop_left]
      refine ⟨List.prefix_append _ _, Nat.le_refl _, fun e he => ?_⟩
      rw [List.mem_singleton.mp he, hTransition, hSequence]
  refine validateSuccessor_eq_ok.mpr ⟨⟨rfl, rfl, ?_, ?_, hLexicon, ?_, ?_, ?_, hAdded.1⟩, rfl,
    hAdded.2.1, hAdded.2.2, ?_, hSequence⟩
  · rw [hGame]
    rfl
  · rw [hGame]
  · change g'.state.version.toNat = min (g.state.version.toNat + 1) _
    omega
  · change g'.events.length = g.events.length + 1
    rw [hEvents, List.length_append, List.length_singleton]
  · change g.events <+: g'.events
    rw [hEvents]
    exact List.prefix_append _ _
  · change g'.events.getLast? = some event
    rw [hEvents, List.getLast?_concat]

/-- The game after an accepted move replaces the checkpoint before it. -/
theorem Told.replaces (h : Told inst record past g) {stored : StoredGame} {committedAt : UnixMillis}
    (hMove : Accepted inst.platform g seat action g' event)
    (hId : stored.gameId = record.gameId) (hCreated : stored.createdAt = record.createdAt)
    (hTime : record.createdAt ≤ committedAt) :
    Replaces g.state.version record (successorRecord inst stored g' committedAt)
      (g.snapshot inst.platform) event (g'.privateEvents.drop g.privateEvents.length) := by
  have hVersion := hMove.version
  have hLineage : Lineage inst record.gameId (past ++ [g]) g' := h.lineage.next hMove
  have hBound := hLineage.reachable.version_le_builtin
  have hLess : ∀ old ∈ past ++ [g], old.state.version ≠ g'.state.version := by
    intro old hOld hSame
    obtain ⟨before, after, hSplit⟩ := List.append_of_mem hOld
    have hEarlier : Lineage inst record.gameId before old := by
      refine h.lineage.earlier ?_
      rw [hSplit]
      exact ⟨after, by simp⟩
    have hLength := hEarlier.version
    have hWhole := congrArg List.length hSplit
    rw [hSame, hLineage.version] at hLength
    simp only [List.length_append, List.length_cons, List.length_nil] at hLength hWhole
    omega
  have hSuccessor := validateSuccessor_accepted hMove
  obtain ⟨-, -, -, hPrivate, -, hSequence⟩ := validateSuccessor_eq_ok.mp hSuccessor
  change event.sequence = g'.state.version at hSequence
  have hPast : ∀ version : UInt64, version ≤ g.state.version → g'.state.version ≠ version := by
    rintro version hLe rfl
    have := UInt64.le_iff_toNat_le.mp hLe
    omega
  exact {
    version := hVersion
    word := by
      change g'.state.version.toNat < _
      omega
    current := h.version
    name := hLineage.named.trans (congrArg GameId.asStr hId.symm)
    times := ⟨hCreated ▸ hTime, hTime⟩
    stored := h.version ▸ h.snapshot
    successor := hSuccessor
    newEvent := fun other hOther => by
      rw [h.publicEvents] at hOther
      rw [hSequence]
      exact hPast _ (h.lineage.reachable.annals.past other hOther)
    newPrivate := fun e he => by
      have hSame : e.sequence = g'.state.version := hPrivate e he
      rw [hSame]
      refine ⟨UInt64.lt_iff_toNat_lt.mpr (by rw [hVersion]; exact Nat.succ_pos _), fun other hOther => ?_⟩
      rw [h.privateEvents] at hOther
      exact fun hBoth => hPast _ (h.lineage.reachable.chronicle.past other hOther) hBoth.1
    newSnapshot := ⟨(by decide : 0 < snapshotSchemaVersion), fun other hOther => by
      rw [h.snapshots] at hOther
      obtain ⟨old, hOld, rfl⟩ := List.mem_map.mp hOther
      exact (hLess old hOld).symm⟩
    newDeadline := fun d hd => by
      obtain ⟨-, rfl⟩ := nextDeadline_eq_some.mp hd
      refine ⟨by change g'.state.version.toNat < _; omega, ?_, inst.policy.version_pos, fun other hOther => ?_⟩
      · exact Checked.le_saturateI64 (by decide) (Int.add_nonneg (Int.le_trans h.times.1 hTime)
          (Int.le_of_lt inst.policy.turnDuration_pos))
      · exact hPast _ (UInt64.le_iff_toNat_le.mpr (h.deadlines other hOther)) }

theorem cached_eq_none {keyDigest : Digest} :
    record.cached keyDigest = none ↔ ∀ row ∈ record.idempotency, keyDigest ≠ row.keyDigest := by
  rw [GameRecord.cached, List.find?_eq_none]
  refine forall₂_congr fun row _ => ?_
  rw [decide_eq_true_eq, ne_comm]

/-- The last part of a commit needs the game and a free key only. -/
theorem insertIdempotency_succeeds {row : IdempotencyRecord}
    (hRecord : s.game row.gameId = some record) (hFree : record.cached row.keyDigest = none)
    (hVersion : row.digestVersion ≠ 0) (hKind : row.commandKind ≠ "")
    (hPayload : validSha256 row.payloadSha256 = true) (hTime : 0 ≤ row.createdAt) :
    insertIdempotency s row =
      .ok (s.put { record with idempotency := record.idempotency ++ [row] }) :=
  insertIdempotency_eq_ok.mpr ⟨record, hRecord, ⟨hVersion, hKind, hPayload, hTime⟩,
    cached_eq_none.mp hFree, rfl⟩

variable {id : CommandIdentity} {expected : UInt64} {committedAt : UnixMillis} {stored : StoredGame}

/-- A rejection is stored under a free key, and nothing else is. -/
theorem commit_rejection (hRecord : s.game id.gameId = some record) (hId : id.Valid)
    (hFree : record.cached id.keyDigest = none) (hTime : 0 ≤ committedAt)
    (rejection : ActionRejection) :
    ∃ t row, commitActionRecord s (actionCommit id expected committedAt
        ⟨.rejected rejection, none, none, none⟩) = .ok t ∧
      Touches s t id.gameId record { record with idempotency := record.idempotency ++ [row] } := by
  have hName : record.gameId = id.gameId := game_gameId hRecord
  refine ⟨_, _, bind_eq_ok.mpr ⟨s, ?_, bind_eq_ok.mpr ⟨s, rfl, bind_eq_ok.mpr ⟨s, rfl,
    insertIdempotency_succeeds hRecord hFree (by decide : idempotencyDigestVersion ≠ 0) hId.kind
      hId.payload hTime⟩⟩⟩, .put hRecord hName⟩
  refine bind_eq_ok.mpr ⟨(), reject_eq_ok.mpr ?_, rfl⟩
  change s.game id.gameId ≠ none
  rw [hRecord]
  exact Option.some_ne_none _

/-- A finished game gets its replay row with its last move. -/
theorem commitReplay_succeeds {commit : ActionCommit} {successor : StoredGame}
    (hSuccessor : commit.successor = some successor)
    (hRecord : s.game successor.gameId = some record)
    (hWord : successor.snapshot.state.version.toNat < 2 ^ 63) (hTime : 0 ≤ successor.updatedAt)
    (hReplay : ∀ replay ∈ commit.replay, replay.schemaVersion ≠ 0)
    (hFresh : ∀ row ∈ record.replays, successor.snapshot.state.version ≠ row.version) :
    ∃ t, commitReplay s commit = .ok t := by
  unfold commitReplay
  split
  · exact ⟨s, rfl⟩
  · rename_i replay hSome
    refine ⟨s.put { record with replays := record.replays ++
      [⟨successor.snapshot.state.version, replay⟩] }, ?_⟩
    refine bind_eq_ok.mpr ⟨successor, okOr_eq_ok.mpr hSuccessor, ?_⟩
    refine bind_eq_ok.mpr ⟨record, okOr_eq_ok.mpr hRecord, ?_⟩
    refine bind_eq_ok.mpr ⟨(), ensureI64_eq_ok.mpr hWord, ?_⟩
    refine bind_eq_ok.mpr ⟨(), reject_eq_ok.mpr ?_, ?_⟩
    · rw [not_or, Int.not_lt]
      exact ⟨hReplay replay hSome, hTime⟩
    · refine bind_eq_ok.mpr ⟨_, okOr_eq_ok.mpr (Table.insert_eq_some.mpr ⟨rfl, ?_, rfl⟩), rfl⟩
      exact fun row hRow => decide_eq_false (hFresh row hRow)

theorem replayBundle_schema {platform : Platform} {replay : ReplayBundle}
    (h : g.replayBundle platform = some replay) : replay.schemaVersion ≠ 0 := by
  unfold Game.replayBundle at h
  split at h
  · cases h
    exact (by decide : replaySchemaVersion ≠ 0)
  · cases h

/-- A move of the current game is stored under a free key. -/
theorem Told.commit_move (h : Told inst record past g) (hRecord : s.game id.gameId = some record)
    (hId : id.Valid) (hFree : record.cached id.keyDigest = none)
    (hStored : stored.gameId = id.gameId) (hCreated : stored.createdAt = record.createdAt)
    (hTime : record.createdAt ≤ committedAt)
    (hMove : g.applyMove inst.platform seat expected action = .ok (g', event)) :
    ∃ t, commitActionRecord s (actionCommit id expected committedAt
      (acceptedAttempt inst stored seat committedAt g' event)) = .ok t := by
  obtain ⟨rfl, hAccepted⟩ := applyMove_eq_ok.mp hMove
  have hName := game_gameId hRecord
  have hVersion := hAccepted.version
  have hLineage : Lineage inst record.gameId (past ++ [g]) g' := h.lineage.next hAccepted
  have hBound := hLineage.reachable.version_le_builtin
  have hNow : 0 ≤ committedAt := Int.le_trans h.times.1 hTime
  have hReplaces : Replaces g.state.version record (successorRecord inst stored g' committedAt)
      (g.snapshot inst.platform) event (g'.privateEvents.drop g.privateEvents.length) :=
    h.replaces hAccepted (hStored.trans hName.symm) hCreated hTime
  have hTouches : Touches s _ id.gameId record (record.advanced
      (successorRecord inst stored g' committedAt) event
      (g'.privateEvents.drop g.privateEvents.length)) := .put hRecord hName
  generalize hCommit : actionCommit id g.state.version committedAt
    (acceptedAttempt inst stored seat committedAt g' event) = commit
  have hSuccessor : commit.successor = some (successorRecord inst stored g' committedAt) := by
    rw [← hCommit]
    rfl
  obtain ⟨t, hReplay⟩ : ∃ t, commitReplay (s.put (record.advanced
      (successorRecord inst stored g' committedAt) event
      (g'.privateEvents.drop g.privateEvents.length))) commit = .ok t := by
    refine commitReplay_succeeds hSuccessor (hStored ▸ hTouches.after) ?_ hNow ?_ ?_
    · change g'.state.version.toNat < _
      omega
    · rw [← hCommit]
      exact fun replay hSome => replayBundle_schema hSome
    · intro row hRow hSame
      have hLe := h.replays row hRow
      change g'.state.version = _ at hSame
      rw [← hSame] at hLe
      omega
  obtain ⟨replays, hReplays, -⟩ := commitReplay_touches hReplay hTouches.after fun other hOther => by
    rw [hSuccessor, Option.mem_some_iff] at hOther
    rw [← hOther]
    exact hStored
  subst hCommit
  obtain ⟨u, hInserted⟩ : ∃ u, insertIdempotency t (actionCommit id g.state.version committedAt
      (acceptedAttempt inst stored seat committedAt g' event)).idempotency = .ok u :=
    ⟨_, insertIdempotency_succeeds hReplays.after hFree
      (by decide : idempotencyDigestVersion ≠ 0) hId.kind hId.payload hNow⟩
  exact ⟨u, bind_eq_ok.mpr ⟨_, replace_eq_ok.mpr ⟨record, _, _, _, hStored ▸ hRecord, hReplaces, rfl⟩,
    bind_eq_ok.mpr ⟨_, rfl, bind_eq_ok.mpr ⟨t, hReplay, hInserted⟩⟩⟩⟩

/-- A move of an older game is a conflict, whatever else is stored. -/
theorem Told.commit_conflict (h : Told inst record past g) (hRecord : s.game id.gameId = some record)
    {older : List Game} {old : Game} (hOld : Lineage inst id.gameId older old)
    (hMove : old.applyMove inst.platform seat expected action = .ok (g', event))
    (hStored : stored.gameId = id.gameId) (hTime : stored.createdAt ≤ committedAt)
    (hVersion : expected ≠ g.state.version) :
    commitActionRecord s (actionCommit id expected committedAt
      (acceptedAttempt inst stored seat committedAt g' event)) = .error .conflict := by
  obtain ⟨rfl, hAccepted⟩ := applyMove_eq_ok.mp hMove
  have hNext := hAccepted.version
  have hLineage : Lineage inst id.gameId (older ++ [old]) g' := hOld.next hAccepted
  have hBound := hLineage.reachable.version_le_builtin
  refine bind_eq_error.mpr (.inl ?_)
  change replaceInTransaction s old.state.version (successorRecord inst stored g' committedAt) = _
  refine bind_eq_error.mpr (.inr ⟨g'.state.version,
    okOr_eq_ok.mpr (Checked.addU64_eq_some.mpr hNext), ?_⟩)
  refine bind_eq_error.mpr (.inr ⟨(), reject_eq_ok.mpr ?_, ?_⟩)
  · rw [not_or, not_or, not_not, not_not, Int.not_lt]
    exact ⟨rfl, hTime, hLineage.named.trans (congrArg GameId.asStr hStored.symm)⟩
  refine bind_eq_error.mpr (.inr ⟨(), ensureI64_eq_ok.mpr (by omega), ?_⟩)
  refine bind_eq_error.mpr (.inr ⟨record, okOr_eq_ok.mpr (hStored ▸ hRecord), ?_⟩)
  refine bind_eq_error.mpr (.inl (reject_eq_error.mpr ⟨?_, rfl⟩))
  rw [h.version]
  exact hVersion.symm

end

/-! Creation in an empty store. -/

/-- The dictionaries that rulesets pin can be registered. -/
theorem builtin_lexicon_registers (id : RulesetId) {installedAt : UnixMillis}
    (hTime : 0 ≤ installedAt) :
    ¬ (validSha256 (Ruleset.builtin id).lexicon.contentSha256 = false ∨
      (Ruleset.builtin id).lexicon.formatVersion = 0 ∨
      (Ruleset.builtin id).lexicon.normalization.version = 0 ∨
      (Ruleset.builtin id).lexicon.locale.length < 2 ∨ 35 < (Ruleset.builtin id).lexicon.locale.length ∨
      installedAt < 0) := by
  simp only [not_or, Int.not_lt]
  have hPacks : ∀ id, validSha256 (fixtureOf id).lexiconContentSha256 = true ∧
      (fixtureOf id).packFormatVersion ≠ 0 ∧ normalizationVersion ≠ 0 ∧
      2 ≤ (fixtureOf id).locale.length ∧ (fixtureOf id).locale.length ≤ 35 := by
    intro id
    cases id <;> decide +kernel
  obtain ⟨hDigest, hFormat, hNormal, hLow, hHigh⟩ := hPacks id
  rw [(builtin_pins id).2]
  exact ⟨by rw [hDigest]; decide, hFormat, hNormal, Nat.not_lt.mpr hLow, Nat.not_lt.mpr hHigh, hTime⟩

theorem registerRuleset_new (platform : Platform) (id : RulesetId) {createdAt : UnixMillis}
    (hTime : 0 ≤ createdAt) :
    ∃ t, registerRuleset platform .empty (Ruleset.builtin id) createdAt = .ok t ∧
      t.lexicons = [] := by
  refine ⟨_, bind_eq_ok.mpr ⟨(), reject_eq_ok.mpr ?_, rfl⟩, rfl⟩
  simp only [not_or, Int.not_lt, Bool.not_eq_false]
  refine ⟨?_, validSha256_hexLower _, hTime⟩
  change (Ruleset.builtin id).schemaVersion ≠ 0
  rw [(builtin_pins id).1]
  cases id <;> decide

theorem registerLexicon_new {s : Store} (id : RulesetId) {installedAt : UnixMillis}
    (hTime : 0 ≤ installedAt) (hNone : s.lexicons = []) :
    ∃ t, registerLexicon s (Ruleset.builtin id).lexicon installedAt = .ok t := by
  have hRow : s.lexicon (Ruleset.builtin id).lexicon.packId (Ruleset.builtin id).lexicon.packVersion
      (Ruleset.builtin id).lexicon.contentSha256 = none := by
    rw [Store.lexicon, hNone]
    rfl
  unfold registerLexicon
  rw [hRow]
  exact ⟨_, bind_eq_ok.mpr ⟨(), reject_eq_ok.mpr (builtin_lexicon_registers id hTime), rfl⟩⟩

/-- The first rows of a game can be inserted. -/
theorem created_rows (record : StoredGame) (event : GameEvent) (hSequence : event.sequence = 0)
    (hVersion : record.snapshot.state.version = 0)
    (hSchema : 0 < record.snapshot.schemaVersion)
    (hDeadline : ∀ d ∈ record.turnDeadline, d.turn = 0 ∧ 0 ≤ d.deadlineAt ∧ 0 < d.policyVersion) :
    ∃ game1 game2 game3, (GameRecord.fresh record).insertPublicEvent event = .ok game1 ∧
      game1.insertSnapshot record.snapshot = .ok game2 ∧
      game2.insertDeadline record.turnDeadline = .ok game3 := by
  have hZero : (0 : UInt64).toNat < 2 ^ 63 := by decide
  refine ⟨_, _, _, insertPublicEvent_eq_ok.mpr ⟨hSequence ▸ hZero, ?_, rfl⟩,
    insertSnapshot_eq_ok.mpr ⟨hVersion ▸ hZero, hSchema, ?_, rfl⟩,
    insertDeadline_eq_ok.mpr ⟨fun d hd => ?_, rfl⟩⟩
  · exact fun _ hMem => absurd hMem List.not_mem_nil
  · exact fun _ hMem => absurd hMem List.not_mem_nil
  · obtain ⟨hTurn, hTime, hPolicy⟩ := hDeadline d hd
    exact ⟨hTurn ▸ hZero, hTime, hPolicy, fun _ hMem => absurd hMem List.not_mem_nil⟩

/-- A dealt game can be inserted into an empty store. -/
theorem insertGame_empty {inst : Installation} {command : CreateGameCommand} {id : RulesetId}
    {validator : WordValidator} {seed : GameSeed} {g : Game} {createdAt : UnixMillis}
    (hCreated : Game.createWithModeAndPlayers inst.platform command.gameId.asStr (Ruleset.builtin id)
      (some validator) seed command.mode command.playerCount.toNat = .ok g) (hTime : 0 ≤ createdAt) :
    ∃ t, insertGame inst.platform .empty (creationRecordOf inst command g createdAt)
      (creationIdempotencyOf inst command g createdAt) = .ok t := by
  obtain ⟨d, -, hValid, rfl⟩ := createWithModeAndPlayers_eq_ok.mp hCreated
  have hLexicon : (Ruleset.builtin id).lexicon = d.validator.identity := hValid.lexicon
  have hInitial : initialRuleset inst.platform (creationRecordOf inst command
      (d.game inst.platform command.gameId.asStr (Ruleset.builtin id) seed command.mode
        command.playerCount.toNat) createdAt) = .ok (Ruleset.builtin id) := by
    refine bind_eq_ok.mpr ⟨(), reject_eq_ok.mpr ?_, ?_⟩
    · simp only [not_or, not_not]
      exact ⟨rfl, rfl, rfl, rfl, rfl, rfl, rfl⟩
    refine bind_eq_ok.mpr ⟨d.event command.gameId.asStr (Ruleset.builtin id) command.mode, rfl, ?_⟩
    refine bind_eq_ok.mpr ⟨_, rfl, bind_eq_ok.mpr ⟨(), reject_eq_ok.mpr ?_, rfl⟩⟩
    simp only [not_or, not_not]
    exact ⟨rfl, rfl, rfl, hLexicon⟩
  obtain ⟨s1, hRules, hNone⟩ := registerRuleset_new inst.platform id hTime
  obtain ⟨s2, hPack⟩ := registerLexicon_new id hTime hNone
  have hRegisters := (registerRuleset_ok hRules).1.trans (registerLexicon_ok hPack).1
  have hNoGame : s2.game command.gameId = none := by
    rw [Store.game, hRegisters.games]
    rfl
  rw [hLexicon] at hPack
  have hFirst : ∀ deadline, nextDeadline inst.policy (d.game inst.platform command.gameId.asStr
      (Ruleset.builtin id) seed command.mode command.playerCount.toNat) createdAt = some deadline →
      deadline.turn = 0 ∧ 0 ≤ deadline.deadlineAt ∧ 0 < deadline.policyVersion := by
    intro deadline hd
    obtain ⟨-, rfl⟩ := nextDeadline_eq_some.mp hd
    exact ⟨rfl, Checked.le_saturateI64 (by decide) (Int.add_nonneg hTime
      (Int.le_of_lt inst.policy.turnDuration_pos)), inst.policy.version_pos⟩
  obtain ⟨game1, game2, game3, hEvent, hSnapshot, hDeadline⟩ := created_rows
    (creationRecordOf inst command (d.game inst.platform command.gameId.asStr (Ruleset.builtin id) seed
      command.mode command.playerCount.toNat) createdAt)
    (d.event command.gameId.asStr (Ruleset.builtin id) command.mode) rfl rfl
    (by decide : 0 < snapshotSchemaVersion) hFirst
  refine ⟨_, bind_eq_ok.mpr ⟨(), reject_eq_ok.mpr ?_, bind_eq_ok.mpr ⟨_, hInitial, bind_eq_ok.mpr
    ⟨s1, hRules, bind_eq_ok.mpr ⟨s2, hPack, bind_eq_ok.mpr ⟨(), reject_eq_ok.mpr ?_, bind_eq_ok.mpr
      ⟨(), reject_eq_ok.mpr ?_, bind_eq_ok.mpr ⟨_, rfl, bind_eq_ok.mpr ⟨game1, hEvent, bind_eq_ok.mpr
        ⟨game2, hSnapshot, bind_eq_ok.mpr ⟨game3, hDeadline,
          insertCreationIdempotency_eq_ok.mpr ⟨?_, ?_, rfl⟩⟩⟩⟩⟩⟩⟩⟩⟩⟩⟩⟩
  · simp only [not_or, not_not]
    exact ⟨rfl, rfl, rfl, rfl⟩
  · rw [not_or, Int.not_lt, Int.not_lt]
    exact ⟨hTime, Int.le_refl _⟩
  · change ¬ (s2.game command.gameId).isSome = true
    rw [hNoGame]
    exact Bool.false_ne_true
  · exact ⟨(by decide : idempotencyDigestVersion ≠ 0), payloadSha256_valid _ _, hTime⟩
  · intro other hOther
    change other ∈ s2.creations at hOther
    rw [hRegisters.creations] at hOther
    exact absurd hOther List.not_mem_nil

end WordArena.Service
