import WordArena.Service.UseCases

/-! What one repository operation does to the store, and exactly when it goes
through. Later modules cite these facts and never unfold an operation. -/
namespace WordArena.Service

open Fallible WordArena.Engine WordArena.Lexicon WordArena.Application

/-! One game in a store. -/

section

variable {s t r : Store} {gameId other : GameId} {record next : GameRecord}

theorem game_gameId (h : s.game gameId = some record) : record.gameId = gameId := by
  simpa using List.find?_some h

theorem game_put_of_ne (h : other ≠ record.gameId) : (s.put record).game other = s.game other := by
  simp only [Store.game, Store.put, Table.update, List.find?_map]
  have hSame : ((fun row : GameRecord => decide (row.gameId = other)) ∘ fun row =>
      if decide (row.gameId = record.gameId) = true then record else row) =
      fun row => decide (row.gameId = other) := by
    funext row
    simp only [Function.comp_apply, decide_eq_true_eq]
    split
    · rename_i hRow
      rw [hRow]
    · rfl
  rw [hSame]
  cases hFind : s.games.find? fun row => decide (row.gameId = other) with
  | none => rfl
  | some row =>
      have hRow : row.gameId = other := by simpa using List.find?_some hFind
      simp [hRow, h]

theorem game_put (h : s.game record.gameId = some next) :
    (s.put record).game record.gameId = some record := by
  simp only [Store.game, Store.put, Table.update, List.find?_map]
  have hSame : ((fun row : GameRecord => decide (row.gameId = record.gameId)) ∘ fun row =>
      if decide (row.gameId = record.gameId) = true then record else row) =
      fun row => decide (row.gameId = record.gameId) := by
    funext row
    simp only [Function.comp_apply, decide_eq_true_eq]
    split
    · rename_i hRow
      rw [hRow]
    · rfl
  have hGame := h
  rw [Store.game] at hGame
  rw [hSame, hGame]
  simp [game_gameId h]

/-- Exactly one game changed, and no other table. -/
structure Touches (s t : Store) (gameId : GameId) (record next : GameRecord) : Prop where
  before : s.game gameId = some record
  after : t.game gameId = some next
  others : ∀ other, other ≠ gameId → t.game other = s.game other
  ids : t.games.map (·.gameId) = s.games.map (·.gameId)
  rulesets : t.rulesets = s.rulesets
  lexicons : t.lexicons = s.lexicons
  creations : t.creations = s.creations

theorem Touches.refl (h : s.game gameId = some record) : Touches s s gameId record record :=
  ⟨h, h, fun _ _ => rfl, rfl, rfl, rfl, rfl⟩

theorem Touches.trans {middle : GameRecord} (left : Touches s t gameId record middle)
    (right : Touches t r gameId middle next) : Touches s r gameId record next where
  before := left.before
  after := right.after
  others other h := (right.others other h).trans (left.others other h)
  ids := right.ids.trans left.ids
  rulesets := right.rulesets.trans left.rulesets
  lexicons := right.lexicons.trans left.lexicons
  creations := right.creations.trans left.creations

theorem Touches.put (h : s.game gameId = some record) (hSame : next.gameId = gameId) :
    Touches s (s.put next) gameId record next := by
  subst hSame
  refine ⟨h, game_put h, fun other hOther => game_put_of_ne hOther, ?_, rfl, rfl, rfl⟩
  rw [Store.put, Table.update, List.map_map]
  refine List.map_congr_left fun row _ => ?_
  simp only [Function.comp_apply, decide_eq_true_eq]
  split
  · rename_i hRow
    exact hRow.symm
  · rfl

theorem Touches.unique {record' : GameRecord} (h : Touches s t gameId record next)
    (hRecord : t.game gameId = some record') : record' = next :=
  Option.some.inj (hRecord.symm.trans h.after)

end

/-! Inserts. -/

section

variable {record next : GameRecord}

@[simp] theorem ensureI64_eq_ok {value : UInt64} {u : Unit} :
    ensureI64 value = .ok u ↔ value.toNat < 2 ^ 63 := by
  rw [ensureI64, reject_eq_ok, Nat.not_le]

theorem insertPublicEvent_eq_ok {event : GameEvent} :
    record.insertPublicEvent event = .ok next ↔ event.sequence.toNat < 2 ^ 63 ∧
      (∀ other ∈ record.publicEvents, event.sequence ≠ other.sequence) ∧
      next = { record with publicEvents := record.publicEvents ++ [event] } := by
  simp only [GameRecord.insertPublicEvent, bind_eq_ok, ensureI64_eq_ok, okOr_eq_ok,
    Table.insert_eq_some, decide_eq_false_iff_not, pure_eq_ok, true_and]
  constructor
  · rintro ⟨-, hWord, rows, ⟨hFresh, rfl⟩, rfl⟩
    exact ⟨hWord, hFresh, rfl⟩
  · rintro ⟨hWord, hFresh, rfl⟩
    exact ⟨(), hWord, _, ⟨hFresh, rfl⟩, rfl⟩

theorem insertPrivateEvent_eq_ok {event : PrivateGameEvent} :
    record.insertPrivateEvent event = .ok next ↔ event.sequence.toNat < 2 ^ 63 ∧
      0 < event.sequence ∧
      (∀ other ∈ record.privateEvents, ¬ (event.sequence = other.sequence ∧
        event.seat = other.seat)) ∧
      next = { record with privateEvents := record.privateEvents ++ [event] } := by
  simp only [GameRecord.insertPrivateEvent, bind_eq_ok, ensureI64_eq_ok, okOr_eq_ok,
    Table.insert_eq_some, decide_eq_false_iff_not, decide_eq_true_eq, pure_eq_ok]
  constructor
  · rintro ⟨-, hWord, rows, ⟨hCheck, hFresh, rfl⟩, rfl⟩
    exact ⟨hWord, hCheck, hFresh, rfl⟩
  · rintro ⟨hWord, hCheck, hFresh, rfl⟩
    exact ⟨(), hWord, _, ⟨hCheck, hFresh, rfl⟩, rfl⟩

theorem insertSnapshot_eq_ok {snapshot : GameSnapshot} :
    record.insertSnapshot snapshot = .ok next ↔ snapshot.state.version.toNat < 2 ^ 63 ∧
      0 < snapshot.schemaVersion ∧
      (∀ other ∈ record.snapshots, snapshot.state.version ≠ other.state.version) ∧
      next = { record with snapshots := record.snapshots ++ [snapshot] } := by
  simp only [GameRecord.insertSnapshot, bind_eq_ok, ensureI64_eq_ok, okOr_eq_ok,
    Table.insert_eq_some, decide_eq_false_iff_not, decide_eq_true_eq, pure_eq_ok]
  constructor
  · rintro ⟨-, hWord, rows, ⟨hCheck, hFresh, rfl⟩, rfl⟩
    exact ⟨hWord, hCheck, hFresh, rfl⟩
  · rintro ⟨hWord, hCheck, hFresh, rfl⟩
    exact ⟨(), hWord, _, ⟨hCheck, hFresh, rfl⟩, rfl⟩

theorem insertDeadline_eq_ok {deadline : Option TurnDeadline} :
    record.insertDeadline deadline = .ok next ↔
      (∀ d ∈ deadline, d.turn.toNat < 2 ^ 63 ∧ 0 ≤ d.deadlineAt ∧ 0 < d.policyVersion ∧
        ∀ other ∈ record.deadlines, d.turn ≠ other.turn) ∧
      next = { record with deadlines := record.deadlines ++ deadline.toList } := by
  cases deadline with
  | none =>
      simp only [GameRecord.insertDeadline, Except.ok.injEq, Option.mem_def, reduceCtorEq,
        false_implies, implies_true, true_and, Option.toList_none, List.append_nil]
      exact eq_comm
  | some d =>
      simp only [GameRecord.insertDeadline, bind_eq_ok, ensureI64_eq_ok, okOr_eq_ok,
        Table.insert_eq_some, decide_eq_false_iff_not, decide_eq_true_eq, pure_eq_ok,
        Option.mem_some_iff, forall_eq', Option.toList_some]
      constructor
      · rintro ⟨-, hWord, rows, ⟨⟨hTime, hPolicy⟩, hFresh, rfl⟩, rfl⟩
        exact ⟨⟨hWord, hTime, hPolicy, hFresh⟩, rfl⟩
      · rintro ⟨⟨hWord, hTime, hPolicy, hFresh⟩, rfl⟩
        exact ⟨(), hWord, _, ⟨⟨hTime, hPolicy⟩, hFresh, rfl⟩, rfl⟩

end

section

variable {s t : Store}

theorem insertIdempotency_eq_ok {row : IdempotencyRecord} :
    insertIdempotency s row = .ok t ↔ ∃ record, s.game row.gameId = some record ∧
      (row.digestVersion ≠ 0 ∧ row.commandKind ≠ "" ∧ validSha256 row.payloadSha256 = true ∧
        0 ≤ row.createdAt) ∧
      (∀ other ∈ record.idempotency, row.keyDigest ≠ other.keyDigest) ∧
      t = s.put { record with idempotency := record.idempotency ++ [row] } := by
  simp only [insertIdempotency, bind_eq_ok, okOr_eq_ok, reject_eq_ok, Table.insert_eq_some,
    decide_eq_false_iff_not, pure_eq_ok, true_and, not_or, Bool.not_eq_false, not_lt]
  constructor
  · rintro ⟨record, hRecord, -, hCheck, rows, ⟨hFresh, rfl⟩, rfl⟩
    exact ⟨record, hRecord, hCheck, hFresh, rfl⟩
  · rintro ⟨record, hRecord, hCheck, hFresh, rfl⟩
    exact ⟨record, hRecord, (), hCheck, _, ⟨hFresh, rfl⟩, rfl⟩

theorem insertCreationIdempotency_eq_ok {row : CreationIdempotencyRecord} :
    insertCreationIdempotency s row = .ok t ↔
      (row.digestVersion ≠ 0 ∧ validSha256 row.payloadSha256 = true ∧ 0 ≤ row.result.createdAt) ∧
      (∀ other ∈ s.creations, ¬ (row.keyDigest = other.keyDigest ∨
        row.result.gameId = other.result.gameId)) ∧
      t = { s with creations := s.creations ++ [row] } := by
  simp only [insertCreationIdempotency, bind_eq_ok, okOr_eq_ok, reject_eq_ok,
    Table.insert_eq_some, decide_eq_false_iff_not, pure_eq_ok, true_and, not_or,
    Bool.not_eq_false, not_lt]
  constructor
  · rintro ⟨-, hCheck, rows, ⟨hFresh, rfl⟩, rfl⟩
    exact ⟨hCheck, hFresh, rfl⟩
  · rintro ⟨hCheck, hFresh, rfl⟩
    exact ⟨(), hCheck, _, ⟨hFresh, rfl⟩, rfl⟩

/-! Replacing a checkpoint. -/

theorem validateSuccessor_eq_ok {previous next : GameSnapshot} {event : GameEvent}
    {privateEvents : List PrivateGameEvent} :
    validateSuccessor previous next = .ok (event, privateEvents) ↔
      (previous.schemaVersion = snapshotSchemaVersion ∧ next.schemaVersion = snapshotSchemaVersion ∧
        next.ruleset = previous.ruleset ∧ next.rngAlgorithm = previous.rngAlgorithm ∧
        next.state.lexicon = previous.state.lexicon ∧
        next.state.version.toNat = min (previous.state.version.toNat + 1) (2 ^ 64 - 1) ∧
        next.events.length = previous.events.length + 1 ∧ previous.events <+: next.events ∧
        previous.privateEvents <+: next.privateEvents) ∧
      privateEvents = next.privateEvents.drop previous.privateEvents.length ∧
      privateEvents.length ≤ 1 ∧ (∀ e ∈ privateEvents, e.sequence = next.state.version) ∧
      next.events.getLast? = some event ∧ event.sequence = next.state.version := by
  simp only [validateSuccessor, bind_eq_ok, reject_eq_ok, okOr_eq_ok, pure_eq_ok, not_or, not_not,
    Nat.not_lt, Bool.not_eq_false, List.isPrefixOf_iff_prefix, Prod.mk.injEq, List.any_eq_true,
    decide_eq_true_eq, not_exists, not_and, ne_eq]
  constructor
  · rintro ⟨-, hKept, -, ⟨hOne, hSequence⟩, last, hLast, -, hLastSequence, rfl, rfl⟩
    exact ⟨hKept, rfl, hOne, hSequence, hLast, hLastSequence⟩
  · rintro ⟨hKept, rfl, hOne, hSequence, hLast, hLastSequence⟩
    exact ⟨(), hKept, (), ⟨hOne, hSequence⟩, event, hLast, (), hLastSequence, rfl, rfl⟩

/-- The rows a successor adds to its game. -/
def GameRecord.advanced (row : GameRecord) (next : StoredGame) (event : GameEvent)
    (privateEvents : List PrivateGameEvent) : GameRecord :=
  { row with
    version := next.snapshot.state.version
    status := next.snapshot.state.phase
    updatedAt := next.updatedAt
    publicEvents := row.publicEvents ++ [event]
    privateEvents := row.privateEvents ++ privateEvents
    snapshots := row.snapshots ++ [next.snapshot]
    deadlines := row.deadlines ++ next.turnDeadline.toList }

/-- Everything a successor has to satisfy to replace the checkpoint of its game. -/
structure Replaces (expected : UInt64) (row : GameRecord) (next : StoredGame)
    (previous : GameSnapshot) (event : GameEvent) (privateEvents : List PrivateGameEvent) :
    Prop where
  version : next.snapshot.state.version.toNat = expected.toNat + 1
  word : next.snapshot.state.version.toNat < 2 ^ 63
  current : row.version = expected
  name : next.snapshot.state.gameId = next.gameId.asStr
  times : next.createdAt ≤ next.updatedAt ∧ row.createdAt ≤ next.updatedAt
  stored : row.snapshot expected = some previous
  successor : validateSuccessor previous next.snapshot = .ok (event, privateEvents)
  newEvent : ∀ other ∈ row.publicEvents, event.sequence ≠ other.sequence
  newPrivate : ∀ e ∈ privateEvents, 0 < e.sequence ∧
    ∀ other ∈ row.privateEvents, ¬ (e.sequence = other.sequence ∧ e.seat = other.seat)
  newSnapshot : 0 < next.snapshot.schemaVersion ∧
    ∀ other ∈ row.snapshots, next.snapshot.state.version ≠ other.state.version
  newDeadline : ∀ d ∈ next.turnDeadline, d.turn.toNat < 2 ^ 63 ∧ 0 ≤ d.deadlineAt ∧
    0 < d.policyVersion ∧ ∀ other ∈ row.deadlines, d.turn ≠ other.turn

theorem insertPrivateEvents_eq_ok {record next : GameRecord}
    {privateEvents : List PrivateGameEvent} (hOne : privateEvents.length ≤ 1) :
    privateEvents.foldlM GameRecord.insertPrivateEvent record = .ok next ↔
      (∀ e ∈ privateEvents, e.sequence.toNat < 2 ^ 63 ∧ 0 < e.sequence ∧
        ∀ other ∈ record.privateEvents, ¬ (e.sequence = other.sequence ∧ e.seat = other.seat)) ∧
      next = { record with privateEvents := record.privateEvents ++ privateEvents } := by
  match privateEvents, hOne with
  | [], _ =>
      simp only [List.foldlM_nil, pure_eq_ok, List.not_mem_nil, false_implies, implies_true,
        true_and, List.append_nil]
      exact eq_comm
  | [e], _ =>
      simp only [List.foldlM_cons, List.foldlM_nil, bind_eq_ok, pure_eq_ok,
        insertPrivateEvent_eq_ok, List.mem_singleton, forall_eq, and_assoc]
      constructor
      · rintro ⟨row, hWord, hPositive, hFresh, rfl, rfl⟩
        exact ⟨hWord, hPositive, hFresh, rfl⟩
      · rintro ⟨hWord, hPositive, hFresh, rfl⟩
        exact ⟨_, hWord, hPositive, hFresh, rfl, rfl⟩

theorem replace_eq_ok {expected : UInt64} {next : StoredGame} :
    replaceInTransaction s expected next = .ok t ↔ ∃ row previous event privateEvents,
      s.game next.gameId = some row ∧ Replaces expected row next previous event privateEvents ∧
      t = s.put (row.advanced next event privateEvents) := by
  constructor
  · intro h
    obtain ⟨version, hVersion, h⟩ := bind_eq_ok.mp h
    rw [okOr_eq_ok, Checked.addU64_eq_some] at hVersion
    obtain ⟨_, hNext, h⟩ := bind_eq_ok.mp h
    rw [reject_eq_ok, not_or, not_or, not_not, not_not, Int.not_lt] at hNext
    obtain ⟨rfl, hTimes, hName⟩ := hNext
    obtain ⟨_, hWord, h⟩ := bind_eq_ok.mp h
    obtain ⟨row, hRow, h⟩ := bind_eq_ok.mp h
    obtain ⟨_, hCurrent, h⟩ := bind_eq_ok.mp h
    obtain ⟨_, hAfter, h⟩ := bind_eq_ok.mp h
    obtain ⟨previous, hStored, h⟩ := bind_eq_ok.mp h
    obtain ⟨⟨event, privateEvents⟩, hSuccessor, h⟩ := bind_eq_ok.mp h
    obtain ⟨row1, hEvent, h⟩ := bind_eq_ok.mp h
    obtain ⟨row2, hPrivate, h⟩ := bind_eq_ok.mp h
    obtain ⟨row3, hSnapshot, h⟩ := bind_eq_ok.mp h
    obtain ⟨row4, hDeadline, h⟩ := bind_eq_ok.mp h
    rw [reject_eq_ok, not_not] at hCurrent
    rw [reject_eq_ok, Int.not_lt] at hAfter
    obtain ⟨-, hNewEvent, rfl⟩ := insertPublicEvent_eq_ok.mp hEvent
    obtain ⟨hNewPrivate, rfl⟩ := (insertPrivateEvents_eq_ok
      (validateSuccessor_eq_ok.mp hSuccessor).2.2.1).mp hPrivate
    obtain ⟨-, hSchema, hNewSnapshot, rfl⟩ := insertSnapshot_eq_ok.mp hSnapshot
    obtain ⟨hNewDeadline, rfl⟩ := insertDeadline_eq_ok.mp hDeadline
    exact ⟨row, previous, event, privateEvents, okOr_eq_ok.mp hRow, {
      version := hVersion
      word := ensureI64_eq_ok.mp hWord
      current := hCurrent
      name := hName
      times := ⟨hTimes, hAfter⟩
      stored := okOr_eq_ok.mp hStored
      successor := hSuccessor
      newEvent := hNewEvent
      newPrivate := fun e he => (hNewPrivate e he).2
      newSnapshot := ⟨hSchema, hNewSnapshot⟩
      newDeadline := hNewDeadline }, (pure_eq_ok.mp h).symm⟩
  · rintro ⟨row, previous, event, privateEvents, hRow, h, rfl⟩
    obtain ⟨-, -, hOne, hSequence, -, hEvent⟩ := validateSuccessor_eq_ok.mp h.successor
    refine bind_eq_ok.mpr ⟨next.snapshot.state.version,
      okOr_eq_ok.mpr (Checked.addU64_eq_some.mpr h.version), ?_⟩
    refine bind_eq_ok.mpr ⟨(), reject_eq_ok.mpr ?_, ?_⟩
    · rw [not_or, not_or, not_not, not_not, Int.not_lt]
      exact ⟨rfl, h.times.1, h.name⟩
    refine bind_eq_ok.mpr ⟨(), ensureI64_eq_ok.mpr h.word, ?_⟩
    refine bind_eq_ok.mpr ⟨row, okOr_eq_ok.mpr hRow, ?_⟩
    refine bind_eq_ok.mpr ⟨(), reject_eq_ok.mpr (not_not.mpr h.current), ?_⟩
    refine bind_eq_ok.mpr ⟨(), reject_eq_ok.mpr (Int.not_lt.mpr h.times.2), ?_⟩
    refine bind_eq_ok.mpr ⟨previous, okOr_eq_ok.mpr h.stored, ?_⟩
    refine bind_eq_ok.mpr ⟨(event, privateEvents), h.successor, ?_⟩
    refine bind_eq_ok.mpr ⟨_, insertPublicEvent_eq_ok.mpr
      ⟨hEvent ▸ h.word, h.newEvent, rfl⟩, ?_⟩
    refine bind_eq_ok.mpr ⟨_, (insertPrivateEvents_eq_ok hOne).mpr
      ⟨fun e he => ⟨hSequence e he ▸ h.word, h.newPrivate e he⟩, rfl⟩, ?_⟩
    refine bind_eq_ok.mpr ⟨_, insertSnapshot_eq_ok.mpr
      ⟨h.word, h.newSnapshot.1, h.newSnapshot.2, rfl⟩, ?_⟩
    exact bind_eq_ok.mpr ⟨_, insertDeadline_eq_ok.mpr ⟨h.newDeadline, rfl⟩, rfl⟩

/-! Committing an action. -/

/-- What a commit does to the attempt counters: it sets at most one, to one more
than what was stored. -/
structure Recounts (attempt : Option InvalidAttemptState) (record next : GameRecord) : Prop where
  others : ∀ turn seat, (∀ a ∈ attempt, ¬ (a.turn = turn ∧ a.seat = seat)) →
    next.attempt turn seat = record.attempt turn seat
  counted : ∀ a ∈ attempt, next.attempt a.turn a.seat = some a ∧
    ∀ prior, record.attempt a.turn a.seat = some prior → prior.count.toNat + 1 = a.count.toNat

theorem Recounts.refl (record : GameRecord) : Recounts none record record :=
  ⟨fun _ _ _ => rfl, fun _ h => by cases h⟩

theorem Recounts.insert {attempt : InvalidAttemptState}
    (h : record.attempt attempt.turn attempt.seat = none) :
    Recounts (some attempt) record { record with attempts := record.attempts ++ [attempt] } where
  others turn seat hOther := by
    have hNot := hOther attempt rfl
    change (record.attempts ++ [attempt]).find? _ = _
    rw [List.find?_append, List.find?_singleton]
    simp only [decide_eq_true_eq, if_neg hNot, Option.or_none]
    rfl
  counted a ha := by
    obtain rfl := Option.mem_some_iff.mp ha
    refine ⟨?_, fun prior hPrior => ?_⟩
    · change (record.attempts ++ [attempt]).find? _ = _
      rw [List.find?_append]
      rw [GameRecord.attempt] at h
      rw [h, Option.none_or, List.find?_singleton]
      simp
    · rw [h] at hPrior
      cases hPrior

theorem Recounts.update {attempt prior : InvalidAttemptState}
    (h : record.attempt attempt.turn attempt.seat = some prior)
    (hNext : prior.count.toNat + 1 = attempt.count.toNat) :
    Recounts (some attempt) record { record with
      attempts := Table.update (fun old => old.turn = attempt.turn ∧ old.seat = attempt.seat)
        (fun _ => attempt) record.attempts } where
  others turn seat hOther := by
    have hNot := hOther attempt rfl
    refine Table.find?_update_other (fun old hHit => ?_) fun old _ => decide_eq_false hNot
    rw [decide_eq_true_eq] at hHit
    rw [hHit.1, hHit.2]
    exact decide_eq_false hNot
  counted a ha := by
    obtain rfl := Option.mem_some_iff.mp ha
    refine ⟨?_, fun other hOther => ?_⟩
    · have hHit : (Table.update (fun old => old.turn = attempt.turn ∧ old.seat = attempt.seat)
          (fun _ => attempt) record.attempts).find?
            (fun old => old.turn = attempt.turn ∧ old.seat = attempt.seat) =
          (record.attempts.find? fun old => old.turn = attempt.turn ∧ old.seat = attempt.seat).map
            fun _ => attempt :=
        Table.find?_update_hit fun _ _ => decide_eq_true ⟨rfl, rfl⟩
      refine hHit.trans ?_
      rw [GameRecord.attempt] at h
      rw [h]
      rfl
    · rw [h, Option.some.injEq] at hOther
      rw [← hOther]
      exact hNext

theorem commitAttempt_touches {commit : ActionCommit} {record : GameRecord}
    (h : commitAttempt s commit = .ok t)
    (hRecord : s.game commit.idempotency.gameId = some record) :
    ∃ attempts, Touches s t commit.idempotency.gameId record { record with attempts := attempts } ∧
      Recounts commit.invalidAttempt record { record with attempts := attempts } := by
  have hName := game_gameId hRecord
  unfold commitAttempt at h
  split at h
  · rename_i hNone
    cases h
    rw [hNone]
    exact ⟨record.attempts, .refl hRecord, .refl record⟩
  · rename_i attempt hSome
    obtain ⟨-, -, h⟩ := bind_eq_ok.mp h
    obtain ⟨row, hRow, h⟩ := bind_eq_ok.mp h
    obtain ⟨-, -, h⟩ := bind_eq_ok.mp h
    rw [okOr_eq_ok, hRecord, Option.some.injEq] at hRow
    subst hRow
    rw [hSome]
    split at h
    · rename_i hNew
      cases pure_eq_ok.mp h
      exact ⟨_, .put hRecord hName, .insert hNew⟩
    · rename_i prior hPrior
      obtain ⟨_, hCount, h⟩ := bind_eq_ok.mp h
      cases pure_eq_ok.mp h
      exact ⟨_, .put hRecord hName, .update hPrior (not_not.mp (reject_eq_ok.mp hCount))⟩

/-- A replay row is added for the successor's version only. -/
theorem commitReplay_touches {commit : ActionCommit} {record : GameRecord} {gameId : GameId}
    (h : commitReplay s commit = .ok t) (hRecord : s.game gameId = some record)
    (hSame : ∀ successor ∈ commit.successor, successor.gameId = gameId) :
    ∃ replays, Touches s t gameId record { record with replays := replays } ∧
      ∀ row ∈ replays, row ∈ record.replays ∨
        ∃ successor ∈ commit.successor, row.version = successor.snapshot.state.version := by
  have hName := game_gameId hRecord
  unfold commitReplay at h
  split at h
  · cases h
    exact ⟨record.replays, .refl hRecord, fun row hRow => .inl hRow⟩
  · obtain ⟨successor, hSuccessor, h⟩ := bind_eq_ok.mp h
    obtain ⟨row, hRow, h⟩ := bind_eq_ok.mp h
    obtain ⟨-, -, h⟩ := bind_eq_ok.mp h
    obtain ⟨-, -, h⟩ := bind_eq_ok.mp h
    obtain ⟨rows, hRows, h⟩ := bind_eq_ok.mp h
    rw [okOr_eq_ok] at hSuccessor
    rw [okOr_eq_ok, hSame successor hSuccessor, hRecord, Option.some.injEq] at hRow
    subst hRow
    rw [okOr_eq_ok, Table.insert_eq_some] at hRows
    obtain ⟨-, -, rfl⟩ := hRows
    cases pure_eq_ok.mp h
    refine ⟨_, .put hRecord hName, fun row hRow => ?_⟩
    rcases List.mem_append.mp hRow with hOld | hNew
    · exact .inl hOld
    · exact .inr ⟨successor, hSuccessor, by rw [List.mem_singleton.mp hNew]⟩

/-- How a commit moves its game before anything else is written. -/
inductive Progress (commit : ActionCommit) (record : GameRecord) : GameRecord → Prop where
  | stay (absent : commit.successor = none) : Progress commit record record
  | advance {next : StoredGame} {previous : GameSnapshot} {event : GameEvent}
      {privateEvents : List PrivateGameEvent} (successor : commit.successor = some next)
      (replaces : Replaces commit.expectedVersion record next previous event privateEvents) :
      Progress commit record (record.advanced next event privateEvents)

/-- A whole commit of one game. -/
inductive Commits (commit : ActionCommit) (record : GameRecord) : GameRecord → Prop where
  | intro {base : GameRecord} {attempts : List InvalidAttemptState} {replays : List ReplayRow}
      (progress : Progress commit record base)
      (replay : ∀ row ∈ replays, row ∈ record.replays ∨
        ∃ successor ∈ commit.successor, row.version = successor.snapshot.state.version)
      (fresh : ∀ other ∈ record.idempotency, commit.idempotency.keyDigest ≠ other.keyDigest)
      (counts : Recounts commit.invalidAttempt record { record with attempts := attempts }) :
      Commits commit record { base with
        attempts := attempts
        replays := replays
        idempotency := record.idempotency ++ [commit.idempotency] }

theorem commitSuccessor_touches {commit : ActionCommit}
    (h : commitSuccessor s commit = .ok t)
    (hSame : ∀ successor ∈ commit.successor, successor.gameId = commit.idempotency.gameId) :
    ∃ record base, Touches s t commit.idempotency.gameId record base ∧
      Progress commit record base := by
  unfold commitSuccessor at h
  split at h
  · rename_i successor hSuccessor
    obtain ⟨row, previous, event, privateEvents, hRow, hReplaces, rfl⟩ := replace_eq_ok.mp h
    rw [hSame successor hSuccessor] at hRow
    have hName := game_gameId hRow
    exact ⟨row, _, .put hRow hName, .advance hSuccessor hReplaces⟩
  · rename_i hNone
    obtain ⟨_, hExists, h⟩ := bind_eq_ok.mp h
    cases pure_eq_ok.mp h
    obtain ⟨record, hRecord⟩ := Option.ne_none_iff_exists'.mp (reject_eq_ok.mp hExists)
    exact ⟨record, record, .refl hRecord, .stay hNone⟩

theorem commitActionRecord_touches {commit : ActionCommit}
    (h : commitActionRecord s commit = .ok t)
    (hSame : ∀ successor ∈ commit.successor, successor.gameId = commit.idempotency.gameId) :
    ∃ record next, Touches s t commit.idempotency.gameId record next ∧
      Commits commit record next := by
  obtain ⟨s1, h1, h⟩ := bind_eq_ok.mp h
  obtain ⟨s2, h2, h⟩ := bind_eq_ok.mp h
  obtain ⟨s3, h3, h⟩ := bind_eq_ok.mp h
  obtain ⟨record, base, hBase, hProgress⟩ := commitSuccessor_touches h1 hSame
  obtain ⟨attempts, hAttempts, hCounts⟩ := commitAttempt_touches h2 hBase.after
  obtain ⟨replays, hReplays, hRows⟩ := commitReplay_touches h3 hAttempts.after hSame
  obtain ⟨last, hLast, -, hFresh, rfl⟩ := insertIdempotency_eq_ok.mp h
  obtain rfl := hReplays.unique hLast
  have hName := game_gameId hLast
  have hKept : base.idempotency = record.idempotency ∧ base.replays = record.replays ∧
      base.attempts = record.attempts := by
    cases hProgress <;> exact ⟨rfl, rfl, rfl⟩
  have hCounted : Recounts commit.invalidAttempt record { record with attempts := attempts } := by
    have hSame : base.attempt = record.attempt := by
      funext turn seat
      rw [GameRecord.attempt, GameRecord.attempt, hKept.2.2]
    constructor
    · intro turn seat hOther
      rw [← hSame]
      exact hCounts.others turn seat hOther
    · intro a ha
      rw [← hSame]
      exact hCounts.counted a ha
  refine ⟨record, _, hBase.trans (hAttempts.trans (hReplays.trans
    (.put hLast hName))), ?_⟩
  have hCommits : Commits commit record { base with
      attempts := attempts
      replays := replays
      idempotency := record.idempotency ++ [commit.idempotency] } :=
    .intro hProgress (hKept.2.1 ▸ hRows) (hKept.1 ▸ hFresh) hCounted
  rw [← hKept.1] at hCommits
  exact hCommits

/-! Creation. -/

/-- Registered rows stay what lookups find, and no other table changes. -/
structure Registers (s t : Store) : Prop where
  rulesets : ∀ id sha row, s.ruleset id sha = some row → t.ruleset id sha = some row
  lexicons : ∀ id version sha row, s.lexicon id version sha = some row →
    t.lexicon id version sha = some row
  games : t.games = s.games
  creations : t.creations = s.creations

theorem Registers.refl (s : Store) : Registers s s :=
  ⟨fun _ _ _ h => h, fun _ _ _ _ h => h, rfl, rfl⟩

theorem Registers.trans {r : Store} (left : Registers s t) (right : Registers t r) :
    Registers s r where
  rulesets id sha row h := right.rulesets id sha row (left.rulesets id sha row h)
  lexicons id version sha row h := right.lexicons id version sha row (left.lexicons id version sha row h)
  games := right.games.trans left.games
  creations := right.creations.trans left.creations

theorem registerRuleset_ok {platform : Platform} {ruleset : Ruleset} {createdAt : UnixMillis}
    (h : registerRuleset platform s ruleset createdAt = .ok t) : Registers s t ∧
      ∃ row, t.ruleset ruleset.id (ruleset.identity platform).contentSha256 = some row ∧
        row.definition = ruleset := by
  obtain ⟨-, -, h⟩ := bind_eq_ok.mp h
  split at h
  · rename_i stored hStored
    obtain ⟨_, hSame, h⟩ := bind_eq_ok.mp h
    cases pure_eq_ok.mp h
    exact ⟨.refl s, stored, hStored, not_not.mp (reject_eq_ok.mp hSame)⟩
  · rename_i hNone
    cases pure_eq_ok.mp h
    refine ⟨⟨fun id sha row hRow => ?_, fun _ _ _ _ h => h, rfl, rfl⟩,
      ⟨ruleset.id, (ruleset.identity platform).contentSha256, ruleset⟩, ?_, rfl⟩
    · rw [Store.ruleset, List.find?_append]
      exact Option.or_eq_some_iff.mpr (.inl hRow)
    · rw [Store.ruleset, List.find?_append]
      refine Option.or_eq_some_iff.mpr (.inr ⟨hNone, ?_⟩)
      simp

theorem registerLexicon_ok {identity : PackIdentity} {installedAt : UnixMillis}
    (h : registerLexicon s identity installedAt = .ok t) : Registers s t ∧
      ∃ row, t.lexicon identity.packId identity.packVersion identity.contentSha256 = some row ∧
        row.identity = identity := by
  obtain ⟨-, -, h⟩ := bind_eq_ok.mp h
  split at h
  · rename_i stored hStored
    obtain ⟨_, hSame, h⟩ := bind_eq_ok.mp h
    cases pure_eq_ok.mp h
    exact ⟨.refl s, stored, hStored, not_not.mp (reject_eq_ok.mp hSame)⟩
  · rename_i hNone
    cases pure_eq_ok.mp h
    refine ⟨⟨fun _ _ _ h => h, fun id version sha row hRow => ?_, rfl, rfl⟩,
      ⟨identity.packId, identity.packVersion, identity.contentSha256, identity⟩, ?_, rfl⟩
    · rw [Store.lexicon, List.find?_append]
      exact Option.or_eq_some_iff.mpr (.inl hRow)
    · rw [Store.lexicon, List.find?_append]
      refine Option.or_eq_some_iff.mpr (.inr ⟨hNone, ?_⟩)
      simp

/-- The rows of a new game. -/
def GameRecord.created (record : StoredGame) (event : GameEvent) : GameRecord :=
  { GameRecord.fresh record with
    publicEvents := [event]
    snapshots := [record.snapshot]
    deadlines := record.turnDeadline.toList }

/-- What an insert of a game has found and done. -/
structure Inserts (platform : Platform) (s t : Store) (record : StoredGame)
    (creation : CreationIdempotencyRecord) (ruleset : Ruleset) (event : GameEvent) : Prop where
  sameGame : creation.result.gameId = record.gameId
  initial : initialRuleset platform record = .ok ruleset
  first : record.snapshot.events.head? = some event
  created : ∃ created, creationRecord event = .ok created ∧ created.ruleset = ruleset
  time : 0 ≤ record.createdAt ∧ record.createdAt ≤ record.updatedAt
  newGame : s.game record.gameId = none
  newKey : ∀ other ∈ s.creations, creation.keyDigest ≠ other.keyDigest
  rulesets : ∀ id sha row, s.ruleset id sha = some row → t.ruleset id sha = some row
  lexicons : ∀ id version sha row, s.lexicon id version sha = some row →
    t.lexicon id version sha = some row
  rules : ∃ row, t.ruleset ruleset.id (ruleset.identity platform).contentSha256 = some row ∧
    row.definition = ruleset
  pack : ∃ row, t.lexicon record.snapshot.state.lexicon.packId
    record.snapshot.state.lexicon.packVersion record.snapshot.state.lexicon.contentSha256 =
      some row ∧ row.identity = record.snapshot.state.lexicon
  games : t.games = s.games ++ [GameRecord.created record event]
  creations : t.creations = s.creations ++ [creation]

theorem insertGame_ok {platform : Platform} {record : StoredGame}
    {creation : CreationIdempotencyRecord} (h : insertGame platform s record creation = .ok t) :
    ∃ ruleset event, Inserts platform s t record creation ruleset event := by
  obtain ⟨_, hSame, h⟩ := bind_eq_ok.mp h
  obtain ⟨ruleset, hInitial, h⟩ := bind_eq_ok.mp h
  obtain ⟨s1, h1, h⟩ := bind_eq_ok.mp h
  obtain ⟨s2, h2, h⟩ := bind_eq_ok.mp h
  obtain ⟨_, hTime, h⟩ := bind_eq_ok.mp h
  obtain ⟨_, hNew, h⟩ := bind_eq_ok.mp h
  obtain ⟨event, hFirst, h⟩ := bind_eq_ok.mp h
  obtain ⟨game1, hEvent, h⟩ := bind_eq_ok.mp h
  obtain ⟨game2, hSnapshot, h⟩ := bind_eq_ok.mp h
  obtain ⟨game3, hDeadline, h⟩ := bind_eq_ok.mp h
  obtain ⟨hRules, row, hRow, hDefinition⟩ := registerRuleset_ok h1
  obtain ⟨hPacks, hPack⟩ := registerLexicon_ok h2
  have hBoth := hRules.trans hPacks
  rw [reject_eq_ok, not_or] at hSame
  rw [reject_eq_ok, not_or, Int.not_lt, Int.not_lt] at hTime
  rw [okOr_eq_ok] at hFirst
  obtain ⟨-, -, rfl⟩ := insertPublicEvent_eq_ok.mp hEvent
  obtain ⟨-, -, -, rfl⟩ := insertSnapshot_eq_ok.mp hSnapshot
  obtain ⟨-, rfl⟩ := insertDeadline_eq_ok.mp hDeadline
  obtain ⟨-, hNewKey, rfl⟩ := insertCreationIdempotency_eq_ok.mp h
  refine ⟨ruleset, event, {
    sameGame := not_not.mp hSame.1
    initial := hInitial
    first := hFirst
    created := ?_
    time := hTime
    newGame := ?_
    newKey := fun other hOther hSame => ?_
    rulesets := hBoth.rulesets
    lexicons := hBoth.lexicons
    rules := ⟨row, hPacks.rulesets _ _ _ hRow, hDefinition⟩
    pack := hPack
    games := congrArg (· ++ _) hBoth.games
    creations := congrArg (· ++ _) hBoth.creations }⟩
  · obtain ⟨_, -, hRest⟩ := bind_eq_ok.mp hInitial
    obtain ⟨first, hHead, hRest⟩ := bind_eq_ok.mp hRest
    obtain ⟨created, hCreated, hRest⟩ := bind_eq_ok.mp hRest
    obtain ⟨_, _, hLast⟩ := bind_eq_ok.mp hRest
    rw [okOr_eq_ok, hFirst, Option.some.injEq] at hHead
    subst hHead
    exact ⟨created, mapErr_eq_ok.mp hCreated, pure_eq_ok.mp hLast⟩
  · rw [reject_eq_ok, Bool.not_eq_true, Option.isSome_eq_false_iff, Option.isNone_iff_eq_none] at hNew
    rw [Store.game, ← hBoth.games]
    exact hNew
  · exact hNewKey other (hBoth.creations.symm ▸ hOther) (.inl hSame)

end

end WordArena.Service
