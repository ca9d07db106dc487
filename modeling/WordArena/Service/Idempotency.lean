import WordArena.Service.Solo

/-! Retries of actions. Once a key has an outcome, every later action under it
is answered from the stored row and changes nothing. -/
namespace WordArena.Service

open Fallible WordArena.Engine WordArena.Lexicon WordArena.Application

/-- The row stored for a retry key of a game. -/
def Recorded (s : Store) (gameId : GameId) (keyDigest : Digest) (row : IdempotencyRecord) : Prop :=
  ∃ record, s.game gameId = some record ∧ record.cached keyDigest = some row

section

variable {s t : Store} {gameId : GameId} {keyDigest : Digest} {row : IdempotencyRecord}

theorem Recorded.later (h : Recorded s gameId keyDigest row) (hGrows : Grows s t) :
    Recorded t gameId keyDigest row := by
  obtain ⟨record, hRecord, hRow⟩ := h
  obtain ⟨new, hNew, hExtends⟩ := hGrows.games gameId record hRecord
  exact ⟨new, hNew, hExtends.cached hRow⟩

/-- A row answers every lookup of its key. -/
theorem Recorded.reply (h : Recorded s gameId keyDigest row) (payload : String) :
    lookupReply (lookupIdempotency s gameId keyDigest payload) =
      some (if row.payloadSha256 ≠ payload then .error (.actionRejected .idempotencyConflict)
        else outcomeResult row.outcome) := by
  obtain ⟨record, hRecord, hRow⟩ := h
  rw [lookupIdempotency, hRecord, Option.bind_some, hRow]
  change lookupReply (if row.payloadSha256 ≠ payload then _ else _) = _
  by_cases hOther : row.payloadSha256 ≠ payload
  · rw [if_pos hOther, if_pos hOther]
    rfl
  · rw [if_neg hOther, if_neg hOther]
    rfl

end

/-- The reply to an action whose key has a row. What fails the checks of `act`
never reaches the row. -/
def retryReply (inst : Installation) (row : IdempotencyRecord)
    (credential : CompetitiveSeatCredential) (command : GameActionCommand) :
    Except ApplicationError GameActionResult :=
  match ensureAuthority credential command with
  | .error error => .error error
  | .ok () =>
      if row.payloadSha256 ≠ payloadSha256 inst.platform command.payload.json then
        .error (.actionRejected .idempotencyConflict)
      else outcomeResult row.outcome

section

variable {inst : Installation} {row : IdempotencyRecord} {credential : CompetitiveSeatCredential}
  {command : GameActionCommand} {pool : ServicePool} {j : Nat} {input : Input}

/-- A retry that has not returned yet is still to be started. -/
def Waits (inst : Installation) (row : IdempotencyRecord) (credential : CompetitiveSeatCredential)
    (command : GameActionCommand) (rest : Program Request Request.Response Reply) : Prop :=
  rest = serve inst (.act credential command) ∨
    rest = .done (.acted (retryReply inst row credential command))

/-- One turn of a retry reads the row at most, and then it has returned. -/
theorem Waits.turn {rest : Program Request Request.Response Reply}
    (h : Waits inst row credential command rest) {s : Store}
    (hRow : Recorded s command.gameId (digestKey inst.platform command.idempotencyKey) row)
    (input : Input) : rest = .done (.acted (retryReply inst row credential command)) ∨
      ∃ request next, rest = .query request next ∧ (perform inst input s request).2 = s ∧
        next (perform inst input s request).1 =
          .done (.acted (retryReply inst row credential command)) := by
  rcases h with rfl | hDone
  · cases hAuthority : ensureAuthority credential command with
    | error error =>
        left
        simp only [serve, act, retryReply, hAuthority]
        rfl
    | ok u =>
        right
        obtain ⟨answer, hAnswer, hAct⟩ : ∃ answer : Option _ → Task GameActionResult,
            (∀ reply, answer (some reply) = settle reply) ∧ act inst credential command =
              settle (ensureAuthority credential command) >>= fun _ =>
                cachedOutcome command.gameId (digestKey inst.platform command.idempotencyKey)
                  (payloadSha256 inst.platform command.payload.json) >>= answer :=
          ⟨_, fun _ => rfl, rfl⟩
        simp only [serve, hAct, hAuthority]
        refine ⟨_, _, rfl, rfl, ?_⟩
        change ExceptT.run (answer (lookupReply (lookupIdempotency s command.gameId
          (digestKey inst.platform command.idempotencyKey)
          (payloadSha256 inst.platform command.payload.json)))) >>= _ = _
        rw [hRow.reply, hAnswer, retryReply, hAuthority]
        rfl
  · exact .inl hDone

/-- Every retry that was started after some thread waits or has returned. -/
def Retries (inst : Installation) (gameId : GameId) (keyDigest : Digest) (row : IdempotencyRecord)
    (start : Nat) (pool : ServicePool) : Prop :=
  ∀ j credential command log rest, start ≤ j → command.gameId = gameId →
    digestKey inst.platform command.idempotencyKey = keyDigest →
    pool.threads[j]? = some (⟨.act credential command, log, rest⟩ : ServiceThread) →
    Waits inst row credential command rest

variable {gameId : GameId} {keyDigest : Digest} {start : Nat}

theorem Retries.step (h : Retries inst gameId keyDigest row start pool)
    (hRow : Recorded pool.store gameId keyDigest row) (action : ServiceAction) :
    Retries inst gameId keyDigest row start ((service inst).step pool action).2 := by
  intro j credential command log rest hStart hGame hKey hThread
  cases action with
  | start call =>
      rcases Nat.lt_or_ge j pool.threads.length with hj | hj
      · exact h j credential command log rest hStart hGame hKey
          ((List.getElem?_append_left hj).symm.trans hThread)
      · have hLast := (List.getElem?_append_right hj).symm.trans hThread
        rw [List.getElem?_singleton] at hLast
        split at hLast
        · cases hLast
          exact .inl rfl
        · cases hLast
  | advance i input =>
      change (pool.step (repository inst) (serve inst) (.advance i input)).threads[j]? = _ at hThread
      simp only [Pool.step] at hThread
      split at hThread
      · rename_i call log' request next hOther
        by_cases hSame : i = j
        · subst hSame
          obtain ⟨hi, -⟩ := List.getElem?_eq_some_iff.mp hOther
          rw [List.getElem?_set_self hi, Option.some.injEq, Thread.mk.injEq] at hThread
          obtain ⟨rfl, -, rfl⟩ := hThread
          have hWaits := h i credential command log' _ hStart hGame hKey hOther
          rcases hWaits.turn (hGame ▸ hKey ▸ hRow) input with hDone | ⟨_, _, hQuery, -, hNext⟩
          · cases hDone
          · cases hQuery
            exact .inr hNext
        · rw [List.getElem?_set_ne hSame] at hThread
          exact h j credential command log rest hStart hGame hKey hThread
      · exact h j credential command log rest hStart hGame hKey hThread

theorem ServicePool.Sound.retries {origin : Store} (h : pool.Sound inst origin)
    (hRow : Recorded pool.store gameId keyDigest row) (actions : List ServiceAction) :
    Recorded ((service inst).after pool actions).store gameId keyDigest row ∧
      Retries inst gameId keyDigest row pool.threads.length ((service inst).after pool actions) := by
  have hStart : Retries inst gameId keyDigest row pool.threads.length pool := by
    intro j _ _ _ _ hj _ _ hThread
    obtain ⟨hLess, -⟩ := List.getElem?_eq_some_iff.mp hThread
    omega
  obtain ⟨hSound, hRetries⟩ := (service inst).after_invariant
    (fun reached action (hReached : ServicePool.Sound inst pool.store reached ∧
      Retries inst gameId keyDigest row pool.threads.length reached) =>
        ⟨hReached.1.step action, hReached.2.step (hRow.later hReached.1.grows) action⟩)
    ⟨⟨h.inv, .refl _, h.threads⟩, hStart⟩ actions
  exact ⟨hRow.later hSound.grows, hRetries⟩

/-- One turn of a retry leaves the store alone and has it return the reply. -/
theorem Retries.turn (h : Retries inst gameId keyDigest row start pool)
    (hRow : Recorded pool.store gameId keyDigest row) (hStart : start ≤ j)
    (hGame : command.gameId = gameId)
    (hKey : digestKey inst.platform command.idempotencyKey = keyDigest)
    (hThread : (pool.threads[j]?).map Thread.call = some (.act credential command)) (input : Input) :
    ((service inst).step pool (.advance j input)).2.store = pool.store ∧
      ((service inst).step pool (.advance j input)).2.Returned j (.act credential command)
        (.acted (retryReply inst row credential command)) := by
  obtain ⟨⟨call, log, rest⟩, hAt, rfl⟩ := Option.map_eq_some_iff.mp hThread
  obtain ⟨hj, -⟩ := List.getElem?_eq_some_iff.mp hAt
  have hWaits := h j credential command log rest hStart hGame hKey hAt
  change (pool.step (repository inst) (serve inst) (.advance j input)).store = _ ∧
    ServicePool.Returned (pool.step (repository inst) (serve inst) (.advance j input)) _ _ _
  rcases hWaits.turn (hGame ▸ hKey ▸ hRow) input with rfl | ⟨request, next, rfl, hStore, hNext⟩
  · simp only [Pool.step, hAt]
    exact ⟨trivial, log, hAt⟩
  · simp only [Pool.step, hAt]
    refine ⟨hStore, log ++ [⟨pool.store, input, request, (perform inst input pool.store request).1⟩], ?_⟩
    rw [← hNext]
    exact List.getElem?_set_self hj

end

/-- What an action has to be answered with after the outcome of another one
under its key is known. -/
def repeatReply (outcome : ActionOutcome) (first : GameActionCommand)
    (credential : CompetitiveSeatCredential) (command : GameActionCommand) :
    Except ApplicationError GameActionResult :=
  match ensureAuthority credential command with
  | .error error => .error error
  | .ok () =>
      if command.payload = first.payload then outcomeResult outcome
      else .error (.actionRejected .idempotencyConflict)

/-- Once an action has returned an accepted result or a recorded rejection,
every later action with its key on its game is answered by one lookup and never
changes the store. One that fails the checks of `act` gets that failure, one
with the same payload the same outcome, and any other one a conflict. -/
theorem later_actions_answered (inst : Installation) (actions later : List ServiceAction) (i j : Nat)
    (first command : GameActionCommand) (granted credential : CompetitiveSeatCredential)
    (outcome : ActionOutcome) (hFinal : outcome.Final)
    (hReturned : ((service inst).after .empty actions).Returned i (.act granted first)
      (.acted (outcomeResult outcome)))
    (hGame : command.gameId = first.gameId)
    (hKey : command.idempotencyKey = first.idempotencyKey)
    (hDigests : payloadSha256 inst.platform command.payload.json =
      payloadSha256 inst.platform first.payload.json → command.payload = first.payload)
    (hLater : ((service inst).after .empty actions).threads.length ≤ j)
    (hThread : (((service inst).after .empty (actions ++ later)).threads[j]?).map Thread.call =
      some (.act credential command)) (input : Input) :
    ((service inst).after .empty (actions ++ later ++ [.advance j input])).store =
        ((service inst).after .empty (actions ++ later)).store ∧
      ((service inst).after .empty (actions ++ later ++ [.advance j input])).Returned j
        (.act credential command) (.acted (repeatReply outcome first credential command)) := by
  have hSound := (ServicePool.sound_empty inst).after actions
  obtain ⟨record, row, hRecord, hRow, hPayload, hOutcome⟩ :=
    found_iff.mp (hSound.returned hReturned outcome hFinal rfl)
  obtain ⟨hStored, hRetries⟩ := hSound.retries ⟨record, hRecord, hRow⟩ later
  have hReply : retryReply inst row credential command =
      repeatReply outcome first credential command := by
    rw [retryReply, repeatReply]
    cases ensureAuthority credential command with
    | error error => rfl
    | ok u =>
        change (if _ then _ else _) = if _ then _ else _
        by_cases hSame : command.payload = first.payload
        · rw [if_pos hSame, if_neg, hOutcome]
          rw [hSame, not_not]
          exact hPayload
        · rw [if_neg hSame, if_pos]
          intro hDigest
          exact hSame (hDigests (hDigest.symm.trans hPayload))
  have hTurn := hRetries.turn hStored hLater hGame (congrArg (digestKey inst.platform) hKey)
    (by rw [← Machine.after_append]; exact hThread) input
  rw [hReply, ← Machine.after_append] at hTurn
  rw [Machine.after_append (service inst) .empty (actions ++ later)]
  exact hTurn

/-! A table with retries. -/

def retryKey : IdempotencyKey := ⟨"retry", by decide⟩

/-- The pass of the table with a turn number that is not its expected version. -/
def skewedPass : GameActionCommand := ⟨hookId, 0, ⟨1, .one⟩, retryKey, .pass⟩

theorem Passed.returned {key : IdempotencyKey} {clock : Int64} {actions : List ServiceAction}
    {s : Store} {record : GameRecord} {past : List Game} {g : Game}
    (h : Passed key clock actions s record past g) :
    ((service hookInstallation).after .empty actions).threads.length = 2 ∧
      ∃ result, ((service hookInstallation).after .empty actions).Returned 1
        (.act hookSeat (hookPass key)) (.acted (.ok result)) := by
  obtain ⟨created, result, log, log', hReached⟩ := h.reached
  rw [hReached]
  exact ⟨rfl, result, log', rfl⟩

/-- After the pass has been accepted, the same command under the other seat's
credential and a skewed command under the same key are both refused before
anything is looked up. -/
theorem retry_checked_first : ∃ actions result,
    ((service hookInstallation).after .empty actions).Returned 1 (.act hookSeat (hookPass retryKey))
      (.acted (.ok result)) ∧
    ((service hookInstallation).after .empty (actions ++
      [.start (.act ⟨hookId, .two⟩ (hookPass retryKey)), .start (.act hookSeat skewedPass)])).Returned 2
        (.act ⟨hookId, .two⟩ (hookPass retryKey)) (.acted (.error (.wrongSeatAuthority .two .one))) ∧
    ((service hookInstallation).after .empty (actions ++
      [.start (.act ⟨hookId, .two⟩ (hookPass retryKey)), .start (.act hookSeat skewedPass)])).Returned 3
        (.act hookSeat skewedPass) (.acted (.error (.turnVersionMismatch 1 0))) ∧
    payloadSha256 basicPlatform skewedPass.payload.json ≠
      payloadSha256 basicPlatform (hookPass retryKey).payload.json := by
  obtain ⟨actions, s, record, past, g, hPassed⟩ := exists_passed retryKey 0 (by decide)
  obtain ⟨-, result, hReturned⟩ := hPassed.returned
  obtain ⟨created, first, log, log', hReached⟩ := hPassed.reached
  refine ⟨actions, result, hReturned, ⟨[], ?_⟩, ⟨[], ?_⟩, by
    rw [basicPlatform_eq]
    decide +kernel⟩
  · rw [Machine.after_append, hReached]
    rfl
  · rw [Machine.after_append, hReached]
    rfl

/-- The same command again, under its own credential. -/
theorem retry_of_pass_answered : ∃ actions result,
    ((service hookInstallation).after .empty actions).Returned 1 (.act hookSeat (hookPass retryKey))
      (.acted (.ok result)) ∧
    ((service hookInstallation).after .empty (actions ++ [.start (.act hookSeat (hookPass retryKey))] ++
      [.advance 2 (standing 0 0)])).Returned 2 (.act hookSeat (hookPass retryKey))
        (.acted (.ok result)) := by
  obtain ⟨actions, s, record, past, g, hPassed⟩ := exists_passed retryKey 0 (by decide)
  obtain ⟨hLength, result, hReturned⟩ := hPassed.returned
  have hStarted : (((service hookInstallation).after .empty (actions ++
      [.start (.act hookSeat (hookPass retryKey))])).threads[2]?).map Thread.call =
        some (.act hookSeat (hookPass retryKey)) := by
    obtain ⟨created, first, log, log', hReached⟩ := hPassed.reached
    rw [Machine.after_append, hReached]
    rfl
  exact ⟨actions, result, hReturned, (later_actions_answered hookInstallation actions
    [.start (.act hookSeat (hookPass retryKey))] 1 2 (hookPass retryKey) (hookPass retryKey) hookSeat
    hookSeat (.accepted ⟨result.committedAt, result.turnDeadline, result.event, result.game⟩) trivial
    hReturned rfl rfl (fun _ => rfl) (Nat.le_of_eq hLength) hStarted (standing 0 0)).2⟩

end WordArena.Service
