import Mathlib.Data.Set.Card
import WordArena.Service.Timeout

/-! Counters of invalid attempts. Every stored rejection of an invalid action of
a player has raised the counter of its turn and seat by one, whatever the calls
that raced for it. -/
namespace WordArena.Service

open Fallible WordArena.Engine WordArena.Lexicon WordArena.Application

/-- A call has made a commit. -/
def Committed (pool : ServicePool) (call : ServiceCall) (commit : ActionCommit) : Prop :=
  ∃ before input, pool.Logs call
    ⟨before, input, .commitAction commit, (.ok () : Except RepositoryError Unit)⟩

/-- A commit that was made for an action with an expected version and a seat. -/
def CommittedFor (pool : ServicePool) (gameId : GameId) (turn : UInt64) (seat : Seat)
    (commit : ActionCommit) : Prop :=
  ∃ credential command, command.gameId = gameId ∧ command.expectedVersion = turn ∧
    command.turn.seat = seat ∧ Committed pool (.act credential command) commit

/-- The stored rejections of invalid actions of a seat in a turn. -/
def invalidRows (pool : ServicePool) (gameId : GameId) (record : GameRecord) (turn : UInt64)
    (seat : Seat) : Set IdempotencyRecord :=
  {row | row ∈ record.idempotency ∧ row.commandKind = "game_action" ∧ row.outcome.Invalid ∧
    ∃ commit, CommittedFor pool gameId turn seat commit ∧ commit.idempotency = row}

/-- What the logs of all calls say about the stored counters. -/
structure Tallied (pool : ServicePool) : Prop where
  stored : ∀ call commit, Committed pool call commit →
    ∃ record, pool.store.game commit.idempotency.gameId = some record ∧
      commit.idempotency ∈ record.idempotency
  marked : ∀ gameId turn seat commit, CommittedFor pool gameId turn seat commit →
    commit.idempotency.outcome.Invalid → ∃ attempt, commit.invalidAttempt = some attempt ∧
      ∃ record, pool.store.game gameId = some record ∧
        attempt.count.toNat ≤ record.counter turn seat
  distinct : ∀ gameId turn seat commit commit', CommittedFor pool gameId turn seat commit →
    CommittedFor pool gameId turn seat commit' → commit.idempotency.outcome.Invalid →
    commit'.idempotency.outcome.Invalid → commit.idempotency ≠ commit'.idempotency →
    commit.invalidAttempt.map InvalidAttemptState.count ≠
      commit'.invalidAttempt.map InvalidAttemptState.count
  counter : ∀ gameId record turn seat, pool.store.game gameId = some record →
    record.counter turn seat = (invalidRows pool gameId record turn seat).ncard

section

variable {pool pool' : ServicePool} {call : ServiceCall} {event : ServiceEvent} {u : Store}

theorem Tallied.empty : Tallied ServicePool.empty := by
  have hNone : ∀ call commit, ¬ Committed ServicePool.empty call commit := by
    rintro call commit ⟨before, input, j, log, rest, hThread, -⟩
    cases hThread
  refine ⟨fun call commit h => absurd h (hNone _ _), ?_, ?_, ?_⟩
  · rintro gameId turn seat commit ⟨_, _, -, -, -, h⟩
    exact absurd h (hNone _ _)
  · rintro gameId turn seat commit _ ⟨_, _, -, -, -, h⟩
    exact absurd h (hNone _ _)
  · intro gameId record turn seat hRecord
    cases hRecord

/-- Pools with the same commits and the same rows. -/
theorem Tallied.same (h : Tallied pool) (hCommits : ∀ call commit, Committed pool' call commit ↔
      Committed pool call commit) (hStore : pool'.store = pool.store) : Tallied pool' := by
  have hFor : ∀ gameId turn seat commit, CommittedFor pool' gameId turn seat commit ↔
      CommittedFor pool gameId turn seat commit := by
    intro gameId turn seat commit
    simp only [CommittedFor, hCommits]
  constructor
  · simpa only [hCommits, hStore] using h.stored
  · simpa only [hFor, hStore] using h.marked
  · simpa only [hFor] using h.distinct
  · simpa only [hStore, invalidRows, hFor] using h.counter

/-- A new game has no rows and no counters. -/
theorem Tallied.inserted {platform : Platform} {record : StoredGame}
    {creation : CreationIdempotencyRecord} {ruleset : Ruleset} {first : GameEvent} (h : Tallied pool)
    (hCommits : ∀ call commit, Committed pool' call commit ↔ Committed pool call commit)
    (hInserts : Inserts platform pool.store pool'.store record creation ruleset first) :
    Tallied pool' := by
  have hFor : ∀ gameId turn seat commit, CommittedFor pool' gameId turn seat commit ↔
      CommittedFor pool gameId turn seat commit := by
    intro gameId turn seat commit
    simp only [CommittedFor, hCommits]
  have hKept : ∀ gameId old, pool.store.game gameId = some old →
      pool'.store.game gameId = some old := by
    intro gameId old hOld
    rw [hInserts.game, if_neg, hOld]
    rintro rfl
    rw [hInserts.newGame] at hOld
    cases hOld
  constructor
  · intro call commit hCommitted
    obtain ⟨row, hRow, hMem⟩ := h.stored call commit ((hCommits call commit).mp hCommitted)
    exact ⟨row, hKept _ row hRow, hMem⟩
  · intro gameId turn seat commit hCommitted hInvalid
    obtain ⟨attempt, hAttempt, row, hRow, hCount⟩ :=
      h.marked gameId turn seat commit ((hFor ..).mp hCommitted) hInvalid
    exact ⟨attempt, hAttempt, row, hKept gameId row hRow, hCount⟩
  · simpa only [hFor] using h.distinct
  · intro gameId row turn seat hRow
    rw [hInserts.game] at hRow
    split at hRow
    · cases hRow
      have hNoRows : invalidRows pool' gameId (GameRecord.created record first) turn seat = ∅ :=
        Set.eq_empty_of_forall_notMem fun _ hMem => absurd hMem.1 List.not_mem_nil
      rw [hNoRows, Set.ncard_empty]
      rfl
    · rw [h.counter gameId row turn seat hRow]
      simp only [invalidRows, hFor]

end

/-! Commits. -/

section

variable {commit : ActionCommit} {record next : GameRecord} {turn : UInt64} {seat : Seat}

theorem Commits.recounts (h : Commits commit record next) :
    Recounts commit.invalidAttempt record next := by
  obtain ⟨-, -, -, counts⟩ := h
  exact ⟨counts.others, counts.counted⟩

theorem Commits.rows (h : Commits commit record next) :
    next.idempotency = record.idempotency ++ [commit.idempotency] ∧
      ∀ other ∈ record.idempotency, commit.idempotency ≠ other := by
  obtain ⟨-, -, fresh, -⟩ := h
  exact ⟨rfl, fun other hOther hSame => fresh other hOther (congrArg _ hSame)⟩

theorem Recounts.counter_hit {attempt : InvalidAttemptState} (h : Recounts (some attempt) record next) :
    next.counter attempt.turn attempt.seat = attempt.count.toNat := by
  rw [GameRecord.counter, (h.counted attempt rfl).1]
  rfl

theorem Recounts.counter_other {attempt : Option InvalidAttemptState} (h : Recounts attempt record next)
    (hOther : ∀ a ∈ attempt, ¬ (a.turn = turn ∧ a.seat = seat)) :
    next.counter turn seat = record.counter turn seat := by
  rw [GameRecord.counter, GameRecord.counter, h.others turn seat hOther]

end

/-- What an issued commit counts. -/
structure Tally (commit : ActionCommit) (record next : GameRecord) (expected : UInt64) (seat : Seat)
    (counted : Prop) : Prop where
  hit : counted → next.counter expected seat = record.counter expected seat + 1 ∧
    ∃ attempt, commit.invalidAttempt = some attempt ∧
      attempt.count.toNat = next.counter expected seat
  miss : ∀ turn other, ¬ (counted ∧ turn = expected ∧ other = seat) →
    next.counter turn other = record.counter turn other

theorem CountsOne.tally {id : CommandIdentity} {expected : UInt64} {seat : Seat} {countInvalid : Bool}
    {committedAt : UnixMillis} {attempt : Attempt} {record next : GameRecord}
    (h : CountsOne record expected seat countInvalid attempt)
    (hCommits : Commits (actionCommit id expected committedAt attempt) record next) :
    Tally (actionCommit id expected committedAt attempt) record next expected seat
      (countInvalid = true ∧ attempt.outcome.Invalid) := by
  have hRecounts : Recounts attempt.invalidAttempt record next := hCommits.recounts
  constructor
  · intro hCounted
    obtain ⟨counted, hAttempt, rfl, rfl, hCount⟩ := h.1 hCounted
    rw [hAttempt] at hRecounts
    rw [hRecounts.counter_hit, hCount]
    exact ⟨rfl, counted, hAttempt, hCount⟩
  · intro turn other hNot
    refine hRecounts.counter_other fun a ha hSame => ?_
    by_cases hCounted : countInvalid = true ∧ attempt.outcome.Invalid
    · obtain ⟨counted, hAttempt, hTurn, hSeat, -⟩ := h.1 hCounted
      rw [hAttempt, Option.mem_some_iff] at ha
      subst ha
      exact hNot ⟨hCounted, hSame.1.symm.trans hTurn, hSame.2.symm.trans hSeat⟩
    · rw [h.2 hCounted] at ha
      cases ha

/-- A step of a pool that commits. `player` says that it was made for an action,
and then its game, version and seat are those of the action. -/
structure CommitStep (pool pool' : ServicePool) (commit : ActionCommit) (record next : GameRecord)
    (gameId : GameId) (expected : UInt64) (seat : Seat) (player : Prop) : Prop where
  all : ∀ call other, Committed pool' call other → Committed pool call other ∨ other = commit
  actions : ∀ id turn other c, CommittedFor pool' id turn other c ↔
    CommittedFor pool id turn other c ∨
      player ∧ id = gameId ∧ turn = expected ∧ other = seat ∧ c = commit
  game : commit.idempotency.gameId = gameId
  kind : player → commit.idempotency.commandKind = "game_action"
  touches : Touches pool.store pool'.store gameId record next
  commits : Commits commit record next
  tally : Tally commit record next expected seat (player ∧ commit.idempotency.outcome.Invalid)

namespace CommitStep

variable {pool pool' : ServicePool} {commit : ActionCommit} {record next : GameRecord}
  {gameId : GameId} {expected : UInt64} {seat : Seat} {player : Prop}

/-- Rows stay and counters do not fall. -/
theorem kept (step : CommitStep pool pool' commit record next gameId expected seat player)
    {id : GameId} {old : GameRecord} (hOld : pool.store.game id = some old) :
    ∃ new, pool'.store.game id = some new ∧ (∀ row ∈ old.idempotency, row ∈ new.idempotency) ∧
      ∀ turn other, old.counter turn other ≤ new.counter turn other := by
  by_cases hId : id = gameId
  · subst hId
    rw [step.touches.before, Option.some.injEq] at hOld
    subst hOld
    refine ⟨next, step.touches.after, fun row hRow => ?_, fun turn other => ?_⟩
    · rw [step.commits.rows.1]
      exact List.mem_append_left _ hRow
    · by_cases hHit : (player ∧ commit.idempotency.outcome.Invalid) ∧ turn = expected ∧ other = seat
      · obtain ⟨hCounted, rfl, rfl⟩ := hHit
        exact (step.tally.hit hCounted).1 ▸ Nat.le_succ _
      · exact Nat.le_of_eq (step.tally.miss turn other hHit).symm
  · exact ⟨old, (step.touches.others id hId).trans hOld, fun _ hRow => hRow, fun _ _ => Nat.le_refl _⟩

/-- The row is new, so that no earlier commit has stored it. -/
theorem unstored (step : CommitStep pool pool' commit record next gameId expected seat player)
    (h : Tallied pool) {id : GameId} {turn : UInt64} {other : Seat} {c : ActionCommit}
    (hCommitted : CommittedFor pool id turn other c) : c.idempotency ≠ commit.idempotency := by
  intro hSame
  obtain ⟨credential, command, -, -, -, hLogged⟩ := hCommitted
  obtain ⟨old, hOld, hMem⟩ := h.stored _ c hLogged
  rw [hSame, step.game, step.touches.before, Option.some.injEq] at hOld
  subst hOld
  exact step.commits.rows.2 _ hMem hSame.symm

/-- The rows that count are the old ones and possibly the new one. -/
theorem mem_invalidRows (step : CommitStep pool pool' commit record next gameId expected seat player)
    (h : Tallied pool) {turn : UInt64} {other : Seat} {row : IdempotencyRecord} :
    row ∈ invalidRows pool' gameId next turn other ↔ row ∈ invalidRows pool gameId record turn other ∨
      row = commit.idempotency ∧ (player ∧ commit.idempotency.outcome.Invalid) ∧ turn = expected ∧
        other = seat := by
  have hRows := step.commits.rows.1
  constructor
  · rintro ⟨hMem, hKind, hInvalid, c, hCommitted, rfl⟩
    rcases (step.actions ..).mp hCommitted with hOld | ⟨hPlayer, -, rfl, rfl, rfl⟩
    · rw [hRows, List.mem_append, List.mem_singleton] at hMem
      exact .inl ⟨hMem.resolve_right (step.unstored h hOld), hKind, hInvalid, c, hOld, rfl⟩
    · exact .inr ⟨rfl, ⟨hPlayer, hInvalid⟩, rfl, rfl⟩
  · rintro (⟨hMem, hKind, hInvalid, c, hOld, rfl⟩ | ⟨rfl, ⟨hPlayer, hInvalid⟩, rfl, rfl⟩)
    · exact ⟨hRows ▸ List.mem_append_left _ hMem, hKind, hInvalid, c, (step.actions ..).mpr (.inl hOld), rfl⟩
    · exact ⟨hRows ▸ List.mem_append_right _ (List.mem_singleton_self _), step.kind hPlayer, hInvalid,
        commit, (step.actions ..).mpr (.inr ⟨hPlayer, rfl, rfl, rfl, rfl⟩), rfl⟩

/-- An earlier commit has a count up to the counter, and the new one the next. -/
theorem counts_ne (step : CommitStep pool pool' commit record next gameId expected seat player)
    (h : Tallied pool) {c : ActionCommit} (hOld : CommittedFor pool gameId expected seat c)
    (hInvalid : c.idempotency.outcome.Invalid) (hPlayer : player)
    (hNew : commit.idempotency.outcome.Invalid) :
    c.invalidAttempt.map InvalidAttemptState.count ≠
      commit.invalidAttempt.map InvalidAttemptState.count := by
  intro hSame
  obtain ⟨attempt, hAttempt, old, hRecord, hCount⟩ := h.marked _ _ _ c hOld hInvalid
  obtain ⟨hNext, latest, hLatest, hLast⟩ := step.tally.hit ⟨hPlayer, hNew⟩
  rw [step.touches.before, Option.some.injEq] at hRecord
  subst hRecord
  rw [hAttempt, hLatest, Option.map_some, Option.map_some, Option.some.injEq] at hSame
  rw [hSame] at hCount
  omega

theorem counter_eq (step : CommitStep pool pool' commit record next gameId expected seat player)
    (h : Tallied pool) (turn : UInt64) (other : Seat) :
    next.counter turn other = (invalidRows pool' gameId next turn other).ncard := by
  have hCounter := h.counter gameId record turn other step.touches.before
  by_cases hHit : (player ∧ commit.idempotency.outcome.Invalid) ∧ turn = expected ∧ other = seat
  · have hSet : invalidRows pool' gameId next turn other =
        insert commit.idempotency (invalidRows pool gameId record turn other) := by
      ext row
      rw [step.mem_invalidRows h, Set.mem_insert_iff, or_comm]
      exact or_congr_left ⟨And.left, fun hRow => ⟨hRow, hHit⟩⟩
    have hNew : commit.idempotency ∉ invalidRows pool gameId record turn other :=
      fun hMem => step.commits.rows.2 _ hMem.1 rfl
    have hFinite : (invalidRows pool gameId record turn other).Finite :=
      (List.finite_toSet record.idempotency).subset fun _ hMem => hMem.1
    obtain ⟨hCounted, rfl, rfl⟩ := hHit
    rw [(step.tally.hit hCounted).1, hCounter, hSet, Set.ncard_insert_of_notMem hNew hFinite]
  · have hSet : invalidRows pool' gameId next turn other =
        invalidRows pool gameId record turn other := by
      ext row
      rw [step.mem_invalidRows h]
      exact or_iff_left fun hRow => hHit hRow.2
    rw [step.tally.miss turn other hHit, hCounter, hSet]

theorem tallied (step : CommitStep pool pool' commit record next gameId expected seat player)
    (h : Tallied pool) : Tallied pool' where
  stored := by
    intro call other hOther
    rcases step.all call other hOther with hOld | rfl
    · obtain ⟨old, hRecord, hMem⟩ := h.stored call other hOld
      obtain ⟨new, hNew, hAll, -⟩ := step.kept hRecord
      exact ⟨new, hNew, hAll _ hMem⟩
    · refine ⟨next, step.game ▸ step.touches.after, ?_⟩
      rw [step.commits.rows.1]
      exact List.mem_append_right _ (List.mem_singleton_self _)
  marked := by
    intro id turn other c hCommitted hInvalid
    rcases (step.actions ..).mp hCommitted with hOld | ⟨hPlayer, rfl, rfl, rfl, rfl⟩
    · obtain ⟨attempt, hAttempt, old, hRecord, hCount⟩ := h.marked id turn other c hOld hInvalid
      obtain ⟨new, hNew, -, hLe⟩ := step.kept hRecord
      exact ⟨attempt, hAttempt, new, hNew, Nat.le_trans hCount (hLe turn other)⟩
    · obtain ⟨-, attempt, hAttempt, hCount⟩ := step.tally.hit ⟨hPlayer, hInvalid⟩
      exact ⟨attempt, hAttempt, next, step.touches.after, Nat.le_of_eq hCount⟩
  distinct := by
    intro id turn other c c' hc hc' hInvalid hInvalid' hDiffer
    rcases (step.actions ..).mp hc with hOld | ⟨hPlayer, rfl, rfl, rfl, rfl⟩
    · rcases (step.actions ..).mp hc' with hOld' | ⟨hPlayer, rfl, rfl, rfl, rfl⟩
      · exact h.distinct id turn other c c' hOld hOld' hInvalid hInvalid' hDiffer
      · exact step.counts_ne h hOld hInvalid hPlayer hInvalid'
    · rcases (step.actions ..).mp hc' with hOld' | ⟨-, -, -, -, rfl⟩
      · exact (step.counts_ne h hOld' hInvalid' hPlayer hInvalid).symm
      · exact absurd rfl hDiffer
  counter := by
    intro id row turn other hRow
    by_cases hId : id = gameId
    · subst hId
      rw [step.touches.after, Option.some.injEq] at hRow
      subst hRow
      exact step.counter_eq h turn other
    · rw [step.touches.others id hId] at hRow
      rw [h.counter id row turn other hRow]
      simp only [invalidRows, step.actions, hId, false_and, and_false, or_false]

end CommitStep

/-! Runs. -/

/-- An event that is a successful commit. -/
def Stores (event : ServiceEvent) (commit : ActionCommit) : Prop :=
  ∃ before input, ⟨before, input, .commitAction commit, (.ok () : Except RepositoryError Unit)⟩ = event

theorem Quiet.stores_nothing {event : ServiceEvent} (h : Quiet event) (commit : ActionCommit) :
    ¬ Stores event commit := by
  rintro ⟨before, input, rfl⟩
  rcases h with hReads | ⟨_, _, _, _, hRefused⟩ | ⟨_, _, _, _, _, hRefused⟩
  · exact hReads
  · cases hRefused
  · cases hRefused

theorem Opens.stores_nothing {inst : Installation} {command : CreateGameCommand}
    {event : ServiceEvent} {u : Store} (h : Opens inst command event u) (commit : ActionCommit) :
    ¬ Stores event commit := by
  rintro ⟨before, input, rfl⟩
  obtain ⟨_, _, _, _, _, hInsert, -⟩ := h
  cases hInsert

section

variable {inst : Installation} {pool pool' : ServicePool} {served : ServiceCall}
  {event : ServiceEvent}

/-- Pools that differ by one event of a call. -/
def Adds (pool pool' : ServicePool) (served : ServiceCall) (event : ServiceEvent) : Prop :=
  ∀ call commit, Committed pool' call commit ↔ Committed pool call commit ∨
    call = served ∧ Stores event commit

theorem Adds.nothing (h : Adds pool pool' served event)
    (hNothing : ∀ commit, ¬ Stores event commit) (call : ServiceCall) (commit : ActionCommit) :
    Committed pool' call commit ↔ Committed pool call commit := by
  rw [h call commit]
  exact or_iff_left fun hStores => hNothing commit hStores.2

theorem Stores.unique {commit commit' : ActionCommit} (h : Stores event commit)
    (h' : Stores event commit') : commit = commit' := by
  obtain ⟨_, _, rfl⟩ := h
  obtain ⟨_, _, hSame⟩ := h'
  cases hSame
  rfl

/-- A commit of a command is a step of the tally. -/
theorem Issued.tallied {id : CommandIdentity} {expected : UInt64} {seat : Seat} {countInvalid : Bool}
    (hIssued : Issued id expected seat countInvalid event pool'.store)
    (hBefore : event.before = pool.store) (hAdds : Adds pool pool' served event)
    (hPlayer : countInvalid = true → id.commandKind = "game_action" ∧ ∃ credential command,
      served = .act credential command ∧ command.gameId = id.gameId ∧
      command.expectedVersion = expected ∧ command.turn.seat = seat)
    (hOther : ∀ credential command, served = .act credential command → countInvalid = true)
    (h : Tallied pool) : Tallied pool' := by
  obtain ⟨input, committedAt, attempt, record, next, hEvent, hTouches, hCommits, hCounts⟩ := hIssued
  have hStores : Stores event (actionCommit id expected committedAt attempt) :=
    ⟨event.before, input, hEvent.symm⟩
  have hTally := hCounts.tally hCommits
  rw [hBefore] at hTouches
  have hStep : CommitStep pool pool' (actionCommit id expected committedAt attempt) record next
      id.gameId expected seat (countInvalid = true) := by
    refine ⟨?_, ?_, rfl, fun hTrue => (hPlayer hTrue).1, hTouches, hCommits, hTally⟩
    · intro call other hCommitted
      rcases (hAdds call other).mp hCommitted with hOld | ⟨-, hNew⟩
      · exact .inl hOld
      · exact .inr (hNew.unique hStores)
    · intro gameId turn other c
      constructor
      · rintro ⟨credential, command, hGame, hTurn, hSeat, hCommitted⟩
        rcases (hAdds _ c).mp hCommitted with hOld | ⟨hCall, hNew⟩
        · exact .inl ⟨credential, command, hGame, hTurn, hSeat, hOld⟩
        · have hTrue := hOther credential command hCall.symm
          obtain ⟨-, credential', command', hServed, hGame', hTurn', hSeat'⟩ := hPlayer hTrue
          cases hCall.trans hServed
          exact .inr ⟨hTrue, hGame.symm.trans hGame', hTurn.symm.trans hTurn', hSeat.symm.trans hSeat',
            hNew.unique hStores⟩
      · rintro (⟨credential, command, hGame, hTurn, hSeat, hOld⟩ | ⟨hTrue, rfl, rfl, rfl, rfl⟩)
        · exact ⟨credential, command, hGame, hTurn, hSeat, (hAdds ..).mpr (.inl hOld)⟩
        · obtain ⟨-, credential, command, hServed, hGame, hTurn, hSeat⟩ := hPlayer hTrue
          exact ⟨credential, command, hGame, hTurn, hSeat, (hAdds ..).mpr (.inr ⟨hServed.symm, hStores⟩)⟩
  exact hStep.tallied h

/-- Whatever a call writes, the tally stays right. -/
theorem Writes.tallied (hWrites : Writes inst event pool'.store served)
    (hBefore : event.before = pool.store) (hAdds : Adds pool pool' served event)
    (h : Tallied pool) : Tallied pool' := by
  have hRest : Quiet event ∧ pool'.store = event.before → Tallied pool' := by
    rintro ⟨hQuiet, hSame⟩
    exact h.same (hAdds.nothing hQuiet.stores_nothing) (hSame.trans hBefore)
  cases served with
  | create command =>
      rcases hWrites with hQuiet | hOpens
      · exact hRest hQuiet
      · have hNothing := hOpens.stores_nothing
        obtain ⟨_, _, _, _, _, -, hInserts, -⟩ := hOpens
        exact h.inserted (hAdds.nothing hNothing) (hBefore ▸ hInserts)
  | act credential command =>
      rcases hWrites with hQuiet | hIssued
      · exact hRest hQuiet
      · exact hIssued.tallied hBefore hAdds
          (fun _ => ⟨rfl, credential, command, rfl, rfl, rfl, rfl⟩) (fun _ _ _ => rfl) h
  | timeout command =>
      rcases hWrites with hQuiet | ⟨key, seat, hIssued⟩
      · exact hRest hQuiet
      · exact hIssued.tallied hBefore hAdds (fun hNever => by cases hNever)
          (fun _ _ hNever => by cases hNever) h
  | sweep limit =>
      rcases hWrites with hQuiet | ⟨command, key, seat, hIssued⟩
      · exact hRest hQuiet
      · exact hIssued.tallied hBefore hAdds (fun hNever => by cases hNever)
          (fun _ _ hNever => by cases hNever) h

/-- Every step of a run keeps the tally. -/
theorem Tallied.step {origin : Store} (hSound : pool.Sound inst origin) (h : Tallied pool)
    (action : ServiceAction) : Tallied ((service inst).step pool action).2 := by
  change Tallied (pool.step (repository inst) (serve inst) action)
  cases action with
  | start call =>
      refine h.same (fun other commit => ?_) rfl
      simp only [Committed, Pool.logs_start]
  | advance i input =>
      cases hThread : pool.threads[i]? with
      | none =>
          have hSame : pool.step (repository inst) (serve inst) (.advance i input) = pool := by
            simp only [Pool.step, hThread]
          rwa [hSame]
      | some thread =>
          obtain ⟨call, log, rest⟩ := thread
          cases rest with
          | done reply =>
              rwa [Pool.step_done (repository inst) (serve inst) hThread]
          | query request next =>
              obtain ⟨-, -, hOwn, -⟩ := hSound.request (pool.permits inst (.advance i input)) hThread
              have hWrites : Writes inst ⟨pool.store, input, request,
                  ((repository inst).perform input pool.store request).1⟩
                  (pool.step (repository inst) (serve inst) (.advance i input)).store call := by
                simp only [Pool.step, hThread]
                exact hOwn
              refine hWrites.tallied rfl (fun other commit => ?_) h
              simp only [Committed, Pool.logs_advance hThread, exists_or, exists_and_left, Stores]

end

theorem Tallied.after (inst : Installation) (actions : List ServiceAction) :
    Tallied ((service inst).after .empty actions) := by
  suffices hBoth : ∀ pool : ServicePool, pool.Sound inst .empty → Tallied pool →
      Tallied ((service inst).after pool actions) from
    hBoth .empty (ServicePool.sound_empty inst) .empty
  induction actions with
  | nil => exact fun _ _ h => h
  | cons action actions ih =>
      exact fun pool hSound h => ih _ (hSound.step action) (h.step hSound action)

/-- In every store that a run of calls leads to, however they interleave, the
counter of a turn and a seat is the number of stored rejections of actions with
that version and seat that are no version conflicts, and no two of them were
committed with the same count. -/
theorem counter_counts_invalid_rows (inst : Installation) (actions : List ServiceAction)
    (gameId : GameId) (record : GameRecord) (turn : UInt64) (seat : Seat)
    (hRecord : ((service inst).after .empty actions).store.game gameId = some record) :
    record.counter turn seat =
        (invalidRows ((service inst).after .empty actions) gameId record turn seat).ncard ∧
      ∀ commit commit', CommittedFor ((service inst).after .empty actions) gameId turn seat commit →
        CommittedFor ((service inst).after .empty actions) gameId turn seat commit' →
        commit.idempotency.outcome.Invalid → commit'.idempotency.outcome.Invalid →
        commit.idempotency ≠ commit'.idempotency →
        ∃ attempt attempt', commit.invalidAttempt = some attempt ∧
          commit'.invalidAttempt = some attempt' ∧ attempt.count ≠ attempt'.count := by
  have hTallied := Tallied.after inst actions
  refine ⟨hTallied.counter gameId record turn seat hRecord, ?_⟩
  intro commit commit' hFirst hSecond hInvalid hInvalid' hDiffer
  obtain ⟨attempt, hAttempt, -⟩ := hTallied.marked gameId turn seat commit hFirst hInvalid
  obtain ⟨attempt', hAttempt', -⟩ := hTallied.marked gameId turn seat commit' hSecond hInvalid'
  have hCounts := hTallied.distinct gameId turn seat commit commit' hFirst hSecond hInvalid hInvalid'
    hDiffer
  rw [hAttempt, hAttempt', Option.map_some, Option.map_some] at hCounts
  exact ⟨attempt, attempt', hAttempt, hAttempt', fun hSame => hCounts (congrArg some hSame)⟩

/-- The table after its first player has passed. -/
theorem passed_counter_counts : ∃ actions record,
    ((service hookInstallation).after .empty actions).store.game hookId = some record ∧
    record.counter 0 .one =
      (invalidRows ((service hookInstallation).after .empty actions) hookId record 0 .one).ncard := by
  obtain ⟨actions, s, record, past, g, hPassed⟩ := exists_passed retryKey 0 (by decide)
  have hStored := hPassed.stored
  rw [← hPassed.store_eq] at hStored
  exact ⟨actions, record, hStored,
    (counter_counts_invalid_rows hookInstallation actions hookId record 0 .one hStored).1⟩

end WordArena.Service
