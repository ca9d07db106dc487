import WordArena.Service.Attempts

/-! Actions with a version that is not the current one. The seat to move gets a
version conflict. Any other seat is told that it is not its turn, and that counts
as an invalid attempt. -/
namespace WordArena.Service

open Fallible WordArena.Engine WordArena.Lexicon WordArena.Application

/-- The seat to move in a stored game. -/
def GameRecord.mover (record : GameRecord) : Option Seat :=
  (record.snapshot record.version).map fun snapshot => snapshot.state.currentPlayer

/-- An action left alone is answered with a version conflict, and nothing but this
answer is stored. The game and all counters of invalid attempts stay as they are. -/
def OnlyConflicts (inst : Installation) (inputs : Nat → Input) (s : Store) (record : GameRecord)
    (credential : CompetitiveSeatCredential) (command : GameActionCommand) : Prop :=
  ∃ t row, Runs inst inputs (act inst credential command) s
      (.error (.actionRejected .versionConflict)) t ∧
    Touches s t command.gameId record { record with idempotency := record.idempotency ++ [row] }

section

variable {inst : Installation} {inputs : Nat → Input} {s t u : Store} {id : CommandIdentity}
  {expected : UInt64} {seat : Seat} {action : Move} {record : GameRecord} {past : List Game}
  {g : Game}

theorem Told.mover (h : Told inst record past g) : record.mover = some g.state.currentPlayer := by
  have hSnapshot := h.snapshot
  rw [GameRecord.mover, hSnapshot]
  rfl

theorem Runs.unique {α : Type} {task : Task α} {result result' : Except ApplicationError α}
    (h : Runs inst inputs task s result t) (h' : Runs inst inputs task s result' u) :
    result = result' ∧ t = u := by
  rw [Runs, h] at h'
  exact Prod.mk.inj h'

/-- A commit under a free key ends with the outcome decided or with a failure of the
repository. -/
theorem Runs.commitAnyway (inputs : Nat → Input) (expected : UInt64) (committedAt : UnixMillis)
    (attempt : Attempt) (hRecord : s.game id.gameId = some record)
    (hFree : record.cached id.keyDigest = none) :
    ∃ result t, Runs inst inputs (Service.commitAttempted id expected committedAt attempt) s result t ∧
      (result = outcomeResult attempt.outcome ∨ ∃ error, result = .error (.repository error)) := by
  cases hCommit : commitActionRecord s (actionCommit id expected committedAt attempt) with
  | ok t => exact ⟨_, t, Runs.commitAttempted hCommit, .inl rfl⟩
  | error error =>
      have hPerform : perform inst (inputs 0) s
          (.commitAction (actionCommit id expected committedAt attempt)) = (.error error, s) := by
        rw [perform, commitOr, hCommit]
        rfl
      refine ⟨.error (.repository error), s, Runs.ask ?_, .inr ⟨error, rfl⟩⟩
      rw [hPerform]
      cases error with
      | conflict => exact Runs.unanswered id hRecord hFree Runs.settle
      | notFound => exact Runs.settle
      | alreadyExists => exact Runs.settle
      | corrupt => exact Runs.settle
      | incompatibleSchema => exact Runs.settle
      | incompatiblePack => exact Runs.settle
      | unavailable => exact Runs.settle

/-- A counted attempt keeps its rejection, and fails only where the forced move does. -/
theorem countedAttempt_outcome {stored : StoredGame} {committedAt : UnixMillis}
    {rejection : ActionRejection} {prior : Option InvalidAttemptState} :
    (∀ attempt, countedAttempt inst stored expected seat committedAt rejection prior = .ok attempt →
      attempt.outcome = .rejected rejection) ∧
    Avoids (fun e => ∃ r, e = ApplicationError.actionRejected r)
      (countedAttempt inst stored expected seat committedAt rejection prior) := by
  constructor
  · intro attempt h
    obtain ⟨forced, -, h⟩ := bind_eq_ok.mp h
    cases h
    rfl
  · refine Avoids.bind ?_ fun _ _ => avoids_pure _
    unfold policyResponse
    split
    · split
      · exact Avoids.of_ok rfl
      · refine Avoids.bind ?_ fun _ _ => Avoids.bind (avoids_mapErr nofun) fun _ _ => avoids_pure _
        exact (avoids_okOr nofun).bind fun _ _ => avoids_mapErr nofun
    · exact Avoids.of_ok rfl

theorem attemptAction_illegal {stored : StoredGame} {gameId : GameId} {committedAt : UnixMillis}
    {error : GameError} (hMove : g.applyMove inst.platform seat expected action = .error error)
    (hIllegal : rejectionFromEngine inst.quote error ≠ .versionConflict) :
    attemptAction inst stored g expected seat action true gameId committedAt =
      (do
        let prior ← checked (← ask (.loadInvalidAttempt gameId expected seat))
        settle (countedAttempt inst stored expected seat committedAt
          (rejectionFromEngine inst.quote error) prior)) := by
  have hCounted : true = true ∧ rejectionFromEngine inst.quote error ≠ .versionConflict :=
    ⟨rfl, hIllegal⟩
  unfold attemptAction
  rw [hMove]
  exact if_pos hCounted

/-- An illegal action of a player is never answered with a version conflict. -/
theorem Runs.executeIllegal (inputs : Nat → Input) (hTold : Told inst record past g)
    (hShelved : Shelved s g) (hRecord : s.game id.gameId = some record)
    (hFree : record.cached id.keyDigest = none) {error : GameError}
    (hMove : g.applyMove inst.platform seat expected action = .error error)
    (hIllegal : rejectionFromEngine inst.quote error ≠ .versionConflict) :
    ∃ result t, Runs inst inputs (Service.executeAction inst id expected seat action true) s result t ∧
      result ≠ .error (.actionRejected .versionConflict) := by
  generalize hStored : (⟨id.gameId, record.createdAt, record.updatedAt, g.snapshot inst.platform,
    nextDeadline inst.policy g record.updatedAt⟩ : StoredGame) = stored
  obtain ⟨result, t, hRun, hNe⟩ : ∃ result t, Runs inst (fun n => inputs (n + 1 + 1))
      (attemptAction inst stored g expected seat action true id.gameId (inputs 1).clock.toInt >>=
        Service.commitAttempted id expected (inputs 1).clock.toInt) s result t ∧
      result ≠ .error (.actionRejected .versionConflict) := by
    rw [attemptAction_illegal hMove hIllegal]
    obtain ⟨hOutcome, hAvoids⟩ := @countedAttempt_outcome inst expected seat stored
      (inputs 1).clock.toInt (rejectionFromEngine inst.quote error)
      (((s.game id.gameId).bind fun record => record.attempt expected seat))
    cases hWord : ensureI64 expected with
    | error failure =>
        refine ⟨.error (.repository failure), s, Runs.ask_bind ?_, nofun⟩
        rw [perform, loadInvalidAttempt, hWord]
        exact Runs.settle
    | ok u =>
        cases hAttempt : countedAttempt inst stored expected seat (inputs 1).clock.toInt
            (rejectionFromEngine inst.quote error)
            ((s.game id.gameId).bind fun record => record.attempt expected seat) with
        | error failure =>
            refine ⟨.error failure, s, Runs.ask_bind ?_, ?_⟩
            · rw [perform, loadInvalidAttempt, hWord]
              change Runs inst _ (Service.settle (countedAttempt inst stored expected seat _ _ _) >>= _) s
                (.error failure) s
              rw [hAttempt]
              exact Runs.settle
            · intro hSame
              cases hSame
              exact hAvoids _ hAttempt ⟨_, rfl⟩
        | ok attempt =>
            obtain ⟨result, t, hRun, hResult⟩ := Runs.commitAnyway (fun n => inputs (n + 1 + 1 + 1))
              expected (inputs 1).clock.toInt attempt hRecord hFree
            refine ⟨result, t, Runs.ask_bind ?_, ?_⟩
            · rw [perform, loadInvalidAttempt, hWord]
              change Runs inst _ (Service.settle (countedAttempt inst stored expected seat _ _ _) >>= _) s
                result t
              rw [hAttempt]
              exact Runs.value hRun
            · rw [hOutcome attempt hAttempt] at hResult
              rcases hResult with rfl | ⟨failure, rfl⟩
              · intro hSame
                injection hSame with hSame
                injection hSame with hSame
                exact hIllegal hSame
              · nofun
  refine ⟨result, t, Runs.load hTold hShelved hRecord ?_, hNe⟩
  rw [hStored, hTold.lineage.resume (by rw [← hStored])]
  exact Runs.value (Runs.ask hRun)

/-- A call that fails the authority check does nothing else. -/
theorem Runs.unauthorised {credential : CompetitiveSeatCredential} {command : GameActionCommand}
    {error : ApplicationError} (h : ensureAuthority credential command = .error error) :
    Runs inst inputs (act inst credential command) s (.error error) s := by
  rw [act, h]
  exact Runs.settle

/-- An authorised action under a free key is executed. -/
theorem Runs.act {credential : CompetitiveSeatCredential} {command : GameActionCommand}
    {result : Except ApplicationError GameActionResult}
    (hAuthority : ensureAuthority credential command = .ok ())
    (hRecord : s.game command.gameId = some record)
    (hFree : record.cached (digestKey inst.platform command.idempotencyKey) = none)
    (h : Runs inst (fun n => inputs (n + 1)) (Service.executeAction inst
      (command.identity inst.platform) command.expectedVersion credential.seat command.action true) s result t) :
    Runs inst inputs (Service.act inst credential command) s result t := by
  rw [Service.act, hAuthority]
  exact Runs.value (Runs.unanswered (command.identity inst.platform) hRecord hFree h)

/-- A counted rejection is stored when the counter can be raised by one. -/
theorem commit_counted {committedAt : UnixMillis} (hRecord : s.game id.gameId = some record)
    (hId : id.Valid) (hFree : record.cached id.keyDigest = none) (hTime : 0 ≤ committedAt)
    (expected : UInt64) (rejection : ActionRejection) {counted : InvalidAttemptState}
    (hWord : counted.turn.toNat < 2 ^ 63) (hPolicy : counted.policyVersion ≠ 0)
    (hCount : counted.count.toNat = record.counter counted.turn counted.seat + 1) :
    ∃ t next, commitActionRecord s (actionCommit id expected committedAt
        ⟨.rejected rejection, none, some counted, none⟩) = .ok t ∧
      Touches s t id.gameId record next ∧
      next.counter counted.turn counted.seat = record.counter counted.turn counted.seat + 1 := by
  have hName : record.gameId = id.gameId := game_gameId hRecord
  have hNonzero : counted.count ≠ 0 := by
    intro hZero
    rw [hZero] at hCount
    cases hCount
  generalize hCommit : actionCommit id expected committedAt
    ⟨.rejected rejection, none, some counted, none⟩ = commit
  have hGame : commit.idempotency.gameId = id.gameId := by rw [← hCommit]; rfl
  obtain ⟨attempts, hRaised⟩ : ∃ attempts, commitAttempt s commit =
      .ok (s.put { record with attempts := attempts }) := by
    subst hCommit
    have hChecked : ¬ (counted.policyVersion = 0 ∨ counted.count = 0 ∨ committedAt < 0) := by
      rw [not_or, not_or, Int.not_lt]
      exact ⟨hPolicy, hNonzero, hTime⟩
    cases hPrior : record.attempt counted.turn counted.seat with
    | none =>
        refine ⟨record.attempts ++ [counted], bind_eq_ok.mpr ⟨(), ensureI64_eq_ok.mpr hWord,
          bind_eq_ok.mpr ⟨record, okOr_eq_ok.mpr hRecord,
            bind_eq_ok.mpr ⟨(), reject_eq_ok.mpr hChecked, ?_⟩⟩⟩⟩
        rw [hPrior]
        rfl
    | some prior =>
        refine ⟨Table.update (fun old => old.turn = counted.turn ∧ old.seat = counted.seat)
          (fun _ => counted) record.attempts, bind_eq_ok.mpr ⟨(), ensureI64_eq_ok.mpr hWord,
          bind_eq_ok.mpr ⟨record, okOr_eq_ok.mpr hRecord,
            bind_eq_ok.mpr ⟨(), reject_eq_ok.mpr hChecked, ?_⟩⟩⟩⟩
        rw [GameRecord.counter, hPrior] at hCount
        rw [hPrior]
        exact bind_eq_ok.mpr ⟨(), reject_eq_ok.mpr (not_not.mpr hCount.symm), rfl⟩
  have hRow : Touches s (s.put { record with attempts := attempts }) id.gameId record
    { record with attempts := attempts } := .put hRecord hName
  obtain ⟨t, hStored⟩ : ∃ t, commitActionRecord s commit = .ok t := by
    subst hCommit
    refine ⟨_, bind_eq_ok.mpr ⟨s, ?_, bind_eq_ok.mpr ⟨_, hRaised, bind_eq_ok.mpr ⟨_, rfl,
      insertIdempotency_succeeds hRow.after hFree (by decide : idempotencyDigestVersion ≠ 0) hId.kind
        hId.payload hTime⟩⟩⟩⟩
    refine bind_eq_ok.mpr ⟨(), reject_eq_ok.mpr ?_, rfl⟩
    change s.game id.gameId ≠ none
    rw [hRecord]
    exact Option.some_ne_none _
  obtain ⟨old, next, hTouches, hCommits⟩ := commitActionRecord_touches hStored fun successor hSome => by
    rw [← hCommit] at hSome
    cases hSome
  rw [hGame] at hTouches
  obtain rfl := Option.some.inj (hTouches.before.symm.trans hRecord)
  have hRecounts : Recounts (some counted) old next := by
    have hAttempt : commit.invalidAttempt = some counted := by rw [← hCommit]; rfl
    exact hAttempt ▸ hCommits.recounts
  exact ⟨t, next, hStored, hTouches, hRecounts.counter_hit.trans hCount⟩

/-- An illegal action of a player is counted, below the limit of the policy. -/
theorem Runs.executeCounted (inputs : Nat → Input) (hTold : Told inst record past g)
    (hShelved : Shelved s g) (hRecord : s.game id.gameId = some record) (hId : id.Valid)
    (hFree : record.cached id.keyDigest = none) (hTime : 0 ≤ (inputs 1).clock.toInt)
    {error : GameError} (hMove : g.applyMove inst.platform seat expected action = .error error)
    (hIllegal : rejectionFromEngine inst.quote error ≠ .versionConflict)
    (hWord : expected.toNat < 2 ^ 63)
    (hLimit : record.counter expected seat + 1 < inst.policy.invalidAttemptLimit.toNat) :
    ∃ t next, Runs inst inputs (Service.executeAction inst id expected seat action true) s
        (.error (.actionRejected (rejectionFromEngine inst.quote error))) t ∧
      Touches s t id.gameId record next ∧
      next.counter expected seat = record.counter expected seat + 1 := by
  generalize hStored : (⟨id.gameId, record.createdAt, record.updatedAt, g.snapshot inst.platform,
    nextDeadline inst.policy g record.updatedAt⟩ : StoredGame) = stored
  have hCount : (nextCount (record.attempt expected seat)).toNat = record.counter expected seat + 1 := by
    have hRange := inst.policy.invalidAttemptLimit.toNat_lt
    have hPrior : (((record.attempt expected seat).map InvalidAttemptState.count).getD 0).toNat =
        record.counter expected seat := by
      rw [GameRecord.counter]
      cases record.attempt expected seat <;> rfl
    rw [nextCount, hPrior, Nat.min_eq_left (by omega)]
    exact Nat.mod_eq_of_lt (by omega)
  have hPolicy : policyResponse inst stored expected seat
      (nextCount (record.attempt expected seat)) = .ok none := by
    rw [policyResponse, if_neg]
    rw [UInt32.le_iff_toNat_le, hCount]
    omega
  have hVersion : inst.policy.version ≠ 0 := by
    intro hZero
    have hPositive := inst.policy.version_pos
    rw [hZero] at hPositive
    cases hPositive
  obtain ⟨t, next, hCommit, hTouches, hRaised⟩ := @commit_counted s id record (inputs 1).clock.toInt
    hRecord hId hFree hTime expected (rejectionFromEngine inst.quote error)
    ⟨expected, seat, inst.policy.version, nextCount (record.attempt expected seat)⟩ hWord hVersion hCount
  refine ⟨t, next, Runs.load hTold hShelved hRecord ?_, hTouches, hRaised⟩
  rw [hStored, hTold.lineage.resume (by rw [← hStored])]
  refine Runs.value (Runs.ask ?_)
  change Runs inst _ (attemptAction inst stored g expected seat action true id.gameId
    (inputs 1).clock.toInt >>= Service.commitAttempted id expected (inputs 1).clock.toInt) s _ t
  rw [attemptAction_illegal hMove hIllegal]
  refine Runs.ask_bind ?_
  have hFits : ensureI64 expected = .ok () := ensureI64_eq_ok.mpr hWord
  rw [perform, loadInvalidAttempt, hFits, hRecord]
  change Runs inst _ (Service.settle (countedAttempt inst stored expected seat _ _
    (record.attempt expected seat)) >>= _) s _ t
  rw [countedAttempt, hPolicy]
  exact Runs.value (Runs.commitAttempted hCommit)

theorem ensureAuthority_rejects (credential : CompetitiveSeatCredential)
    (command : GameActionCommand) :
    Avoids (fun e => ∃ r, e = ApplicationError.actionRejected r)
      (ensureAuthority credential command) :=
  (avoids_reject nofun).bind fun _ _ => (avoids_reject nofun).bind fun _ _ => avoids_reject nofun

end

/-- In every store that calls lead to, an action under a fresh key whose version is
not that of the active game leaves nothing but a version conflict if and only if it
is authorised and its seat is the one to move. -/
theorem stale_conflicts_iff (inst : Installation) (actions : List ServiceAction)
    (inputs : Nat → Input) (hClock : ∀ n, 0 ≤ (inputs n).clock.toInt)
    (credential : CompetitiveSeatCredential) (command : GameActionCommand) (record : GameRecord)
    (hRecord : ((service inst).after .empty actions).store.game command.gameId = some record)
    (hActive : record.status = .active) (hStale : command.expectedVersion ≠ record.version)
    (hFresh : record.cached (digestKey inst.platform command.idempotencyKey) = none) :
    OnlyConflicts inst inputs ((service inst).after .empty actions).store record credential command ↔
      ensureAuthority credential command = .ok () ∧ record.mover = some credential.seat := by
  generalize hStore : ((service inst).after .empty actions).store = s at hRecord
  have hSane : Sane inst s := hStore ▸ ((ServicePool.sound_empty inst).after actions).inv
  obtain ⟨past, g, hTold, hShelved⟩ := hSane.told command.gameId record hRecord
  have hPhase : g.state.phase = .active := hTold.status.symm.trans hActive
  have hVersion : command.expectedVersion ≠ g.state.version := fun hSame =>
    hStale (hSame.trans hTold.version.symm)
  rw [hTold.mover]
  constructor
  · rintro ⟨t, row, hRun, -⟩
    cases hAuthority : ensureAuthority credential command with
    | error error =>
        cases ((Runs.unauthorised hAuthority).unique hRun).1
        exact absurd ⟨_, rfl⟩ (ensureAuthority_rejects credential command _ hAuthority)
    | ok u =>
        refine ⟨rfl, Classical.byContradiction fun hOther => ?_⟩
        have hWrong : g.validateAction credential.seat command.expectedVersion =
            .error (.wrongPlayer g.state.currentPlayer credential.seat) := by
          have hSeat : credential.seat ≠ g.state.currentPlayer := fun hSame =>
            hOther (congrArg some hSame.symm)
          simp [Game.validateAction, bind_eq_error, hPhase, hSeat]
        obtain ⟨result, u, hIllegal, hNe⟩ := @Runs.executeIllegal inst s (command.identity inst.platform)
          command.expectedVersion credential.seat command.action record past g
          (fun n => inputs (n + 1)) hTold hShelved hRecord hFresh _ (applyMove_refused hWrong _)
          (fun hSame => by cases hSame)
        exact hNe ((Runs.act hAuthority hRecord hFresh hIllegal).unique hRun).1
  · rintro ⟨hAuthority, hSeat⟩
    have hSeat : credential.seat = g.state.currentPlayer := (Option.some.inj hSeat).symm
    have hRefused := validateAction_stale hPhase hVersion
    rw [← hSeat] at hRefused
    obtain ⟨t, row, hRun, hTouches⟩ := @Runs.executeRejected inst s (command.identity inst.platform)
      command.expectedVersion credential.seat command.action record past g
      (fun n => inputs (n + 1)) true hTold hShelved hRecord
      (GameActionCommand.identity_valid _ _) hFresh (hClock _) _ (applyMove_refused hRefused _)
      fun _ => rfl
    exact ⟨t, row, Runs.act hAuthority hRecord hFresh hRun, hTouches⟩

/-! Late requests. -/

def lateKey : IdempotencyKey := ⟨"late", by decide⟩

theorem Passed.free {actions : List ServiceAction} {s : Store} {record : GameRecord}
    {past : List Game} {g : Game} (h : Passed retryKey 0 actions s record past g) :
    record.cached (digestKey hookInstallation.platform lateKey) = none := by
  obtain ⟨row, hRow, hKey⟩ := h.idempotency
  refine cached_eq_none.mpr fun other hOther => ?_
  rw [hRow, List.mem_singleton] at hOther
  rw [hOther, hKey]
  decide +kernel

/-- The second player of the table moves with the version before the first pass. -/
theorem late_second_conflicts : ∃ actions record,
    OnlyConflicts hookInstallation (standing 0) ((service hookInstallation).after .empty actions).store
      record ⟨hookId, .two⟩ ⟨hookId, 0, ⟨0, .two⟩, lateKey, .pass⟩ := by
  obtain ⟨actions, s, record, past, g, hPassed⟩ := exists_passed retryKey 0 (by decide)
  have hStored := hPassed.stored
  rw [← hPassed.store_eq] at hStored
  have hStale : (0 : UInt64) ≠ record.version := by
    rw [hPassed.told.version, hPassed.version]
    decide
  have hMover : record.mover = some .two := by rw [hPassed.told.mover, hPassed.turn]
  have hClock : ∀ n, 0 ≤ (standing 0 n).clock.toInt := fun _ => Int.le_refl 0
  have hAuthority : ensureAuthority ⟨hookId, .two⟩ ⟨hookId, 0, ⟨0, .two⟩, lateKey, .pass⟩ = .ok () := rfl
  exact ⟨actions, record, (stale_conflicts_iff hookInstallation actions (standing 0) hClock
    ⟨hookId, .two⟩ ⟨hookId, 0, ⟨0, .two⟩, lateKey, .pass⟩ record hStored
    (hPassed.told.status.trans hPassed.active) hStale hPassed.free).mpr ⟨hAuthority, hMover⟩⟩

/-- The first player of the table has passed and passes once more with the old
version. This is counted as an invalid attempt. -/
theorem late_pass_counted : ∃ actions s record t next message,
    ((service hookInstallation).after .empty actions).store = s ∧
    s.game hookId = some record ∧ record.status = .active ∧
    (hookPass lateKey).expectedVersion ≠ record.version ∧
    record.cached (digestKey hookInstallation.platform lateKey) = none ∧
    Runs hookInstallation (standing 0) (act hookInstallation hookSeat (hookPass lateKey)) s
      (.error (.actionRejected (.illegalAction message))) t ∧
    t.game hookId = some next ∧ next.counter 0 .one = record.counter 0 .one + 1 := by
  obtain ⟨actions, s, record, past, g, hPassed⟩ := exists_passed retryKey 0 (by decide)
  have hStore := hPassed.store_eq
  have hShelved := hPassed.sane.shelved hPassed.stored hPassed.told
  have hLimit : record.counter 0 .one + 1 < 3 := by
    have hTallied := Tallied.after hookInstallation actions
    have hStored := hPassed.stored
    rw [← hStore] at hStored
    rw [hTallied.counter hookId record 0 .one hStored]
    obtain ⟨row, hRow, -⟩ := hPassed.idempotency
    have hRows : invalidRows ((service hookInstallation).after .empty actions) hookId record 0 .one ⊆
        {row} := by
      intro other hOther
      have hMem := hOther.1
      rw [hRow] at hMem
      exact List.mem_singleton.mp hMem
    have hOne := Set.ncard_le_ncard hRows
    rw [Set.ncard_singleton] at hOne
    omega
  have hWrong : g.applyMove basicPlatform .one 0 .pass = .error (.wrongPlayer .two .one) := by
    refine applyMove_refused ?_ _
    simp [Game.validateAction, bind_eq_error, hPassed.active, hPassed.turn]
  obtain ⟨t, next, hRun, hTouches, hRaised⟩ := @Runs.executeCounted hookInstallation s
    ((hookPass lateKey).identity basicPlatform) 0 .one .pass record past g
    (fun n => standing 0 (n + 1)) hPassed.told hShelved hPassed.stored
    (GameActionCommand.identity_valid _ _) hPassed.free (by decide) _ hWrong
    (fun hSame => by cases hSame) (by decide) hLimit
  refine ⟨actions, s, record, t, next, _, hStore, hPassed.stored, hPassed.told.status.trans hPassed.active,
    ?_, hPassed.free, Runs.act rfl hPassed.stored hPassed.free hRun, hTouches.after, hRaised⟩
  rw [hPassed.told.version, hPassed.version]
  decide

end WordArena.Service
