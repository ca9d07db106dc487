import WordArena.Service.Idempotency

/-! Timeouts. A due timeout that runs alone commits the policy move exactly when
its retry key is free. The keys of timeouts lie in the same table as the keys
players choose, so a player can take one. -/
namespace WordArena.Service

open Fallible WordArena.Engine WordArena.Lexicon WordArena.Application

/-! Retry keys of timeouts. -/

def timeoutText (policy : OperationalPolicy) (command : TimeoutCommand) : String :=
  s!"timeout:{command.gameId.asStr}:{command.expectedVersion}:{policy.version}"

theorem printable_iff {maximum : Nat} {value : String} : printable maximum value = true ↔
    value ≠ "" ∧ value.utf8ByteSize ≤ maximum ∧
      ∀ c ∈ value.toList, 0x21 ≤ c.toNat ∧ c.toNat ≤ 0x7e := by
  simp [printable, and_assoc]

/-- Texts whose characters are all visible. -/
def Visible (maximum : Nat) (value : String) : Prop :=
  value.utf8ByteSize ≤ maximum ∧ ∀ c ∈ value.toList, 0x21 ≤ c.toNat ∧ c.toNat ≤ 0x7e

/-- A closed text is checked character by character. -/
theorem Visible.of_all {m : Nat} {value : String} (hSize : value.utf8ByteSize ≤ m)
    (hAll : value.toList.all (fun c => decide (0x21 ≤ c.toNat ∧ c.toNat ≤ 0x7e)) = true) :
    Visible m value :=
  ⟨hSize, fun c hc => of_decide_eq_true (List.all_eq_true.mp hAll c hc)⟩

theorem Visible.append {m n : Nat} {a b : String} (ha : Visible m a) (hb : Visible n b) :
    Visible (m + n) (a ++ b) := by
  refine ⟨?_, fun c hc => ?_⟩
  · rw [String.utf8ByteSize_append]
    exact Nat.add_le_add ha.1 hb.1
  · rw [String.toList_append] at hc
    rcases List.mem_append.mp hc with hLeft | hRight
    · exact ha.2 c hLeft
    · exact hb.2 c hRight

/-- Decimal digits are visible, and a bounded number has few of them. -/
theorem Visible.repr {n k : Nat} (h : n < 10 ^ k) (hk : 0 < k) : Visible k n.repr := by
  have hDigits : ∀ c ∈ n.repr.toList, '0'.toNat ≤ c.toNat ∧ c.toNat ≤ '9'.toNat := by
    intro c hc
    rw [Nat.repr_eq_ofList_toDigits, String.toList_ofList] at hc
    exact Char.isDigit_iff_toNat.mp (Nat.isDigit_of_mem_toDigits (by decide) (by decide) hc)
  refine ⟨?_, fun c hc => ?_⟩
  · rw [Bytes.utf8ByteSize_of_basic fun c hc => Nat.lt_of_le_of_lt (hDigits c hc).2 (by decide)]
    exact (Nat.length_repr_le_iff hk).mpr h
  · obtain ⟨hLow, hHigh⟩ := hDigits c hc
    exact ⟨Nat.le_trans (by decide) hLow, Nat.le_trans hHigh (by decide)⟩

/-- A timeout always has a retry key. -/
theorem timeoutKey_ok (policy : OperationalPolicy) (command : TimeoutCommand) :
    ∃ key, timeoutKey policy command = .ok key ∧ key.asStr = timeoutText policy command := by
  have hId := printable_iff.mp command.gameId.valid
  have hVersion : command.expectedVersion.toNat < 10 ^ 20 :=
    Nat.lt_trans command.expectedVersion.toNat_lt (by decide)
  have hPolicy : policy.version.toNat < 10 ^ 10 :=
    Nat.lt_trans policy.version.toNat_lt (by decide)
  have hText : Visible 168 (timeoutText policy command) :=
    ((((Visible.append (a := "timeout:") (m := 8) (.of_all (by decide) (by decide)) ⟨hId.2.1, hId.2.2⟩).append
      (b := ":") (n := 1) (.of_all (by decide) (by decide))).append (Visible.repr hVersion (by decide))).append
        (b := ":") (n := 1) (.of_all (by decide) (by decide))).append (Visible.repr hPolicy (by decide))
  have hPrintable : printable 256 (timeoutText policy command) = true := by
    refine printable_iff.mpr ⟨?_, Nat.le_trans hText.1 (by decide), hText.2⟩
    intro hEmpty
    simp only [timeoutText, String.append_eq_empty_iff] at hEmpty
    exact absurd hEmpty.1.1.1.1.1 (by decide)
  exact ⟨⟨_, hPrintable⟩, dif_pos hPrintable, rfl⟩

/-! Policy moves. -/

/-- The policy move of the player to move is always legal. -/
theorem timeoutResponse_legal (response : TimeoutResponse) {platform : Platform} {g : Game}
    (h : Reachable platform g) (hActive : g.state.phase = .active) :
    ∃ g' event, g.applyMove platform g.state.currentPlayer g.state.version response.move =
      .ok (g', event) := by
  cases response with
  | pass =>
      obtain ⟨d, valid⟩ := h.pass_valid hActive
      exact ⟨_, _, applyMove_eq_ok.mpr ⟨rfl, .pass d valid⟩⟩
  | resign =>
      obtain ⟨d, valid⟩ := h.resign_valid hActive
      exact ⟨_, _, applyMove_eq_ok.mpr ⟨rfl, .resign d valid⟩⟩

section

variable {inst : Installation} {inputs : Nat → Input} {s t : Store}

theorem Gets.due {α : Type} {stored : StoredGame} {expected : UInt64} {deadline : TurnDeadline}
    {f : TurnDeadline → Task α} (hDeadline : stored.turnDeadline = some deadline)
    (hTurn : deadline.turn = expected) (hClock : deadline.deadlineAt ≤ (inputs 0).clock.toInt) :
    Gets inst inputs 1 (dueDeadline stored expected >>= f) s (f deadline) s := by
  unfold dueDeadline
  rw [hDeadline]
  change Gets inst inputs 1 ((if deadline.turn ≠ expected then _ else _) >>= f) s _ s
  rw [if_neg (not_not.mpr hTurn)]
  refine Gets.ask_bind.trans (m := 0) ?_
  change Gets inst _ 0 ((if (inputs 0).clock.toInt < deadline.deadlineAt then _ else _) >>= f) s _ s
  rw [if_neg (Int.not_lt.mpr hClock)]
  rfl

/-- A due timeout with a free key gets to its policy move. -/
theorem Gets.policy {gameId : GameId} {record : GameRecord} {past : List Game} {g : Game}
    {deadline : TurnDeadline} {key : IdempotencyKey} (hTold : Told inst record past g)
    (hShelved : Shelved s g) (hRecord : s.game gameId = some record)
    (hKey : timeoutKey inst.policy ⟨gameId, record.version⟩ = .ok key)
    (hFree : record.cached (digestKey inst.platform key) = none)
    (hDeadline : nextDeadline inst.policy g record.updatedAt = some deadline)
    (hClock : deadline.deadlineAt ≤ (inputs 2).clock.toInt) :
    Gets inst inputs 3 (resolveTimeout inst ⟨gameId, record.version⟩) s
      (executeAction inst (TimeoutCommand.identity inst ⟨gameId, record.version⟩ key)
        record.version deadline.seat inst.policy.timeoutResponse.move false) s := by
  unfold resolveTimeout
  rw [hKey]
  refine Gets.trans (n := 1) (m := 2) (Gets.unanswered
    (TimeoutCommand.identity inst ⟨gameId, record.version⟩ key) hRecord hFree) ?_
  refine Gets.trans (n := 1) (m := 1) (Gets.load hTold hShelved hRecord) ?_
  refine Gets.due hDeadline ?_ hClock
  rw [(nextDeadline_eq_some.mp hDeadline).2]
  exact hTold.version.symm

end

/-- A timeout returns a result and commits the policy move of the player to move
as the successor of one version. -/
def ResolvesTimeout (inst : Installation) (inputs : Nat → Input) (gameId : GameId)
    (version : UInt64) (s : Store) : Prop :=
  ∃ result t record next, ∃ g g' : Game, ∃ event,
    (resolveTimeout inst ⟨gameId, version⟩).run.alone (repository inst) inputs s = (.ok result, t) ∧
    s.game gameId = some record ∧ t.game gameId = some next ∧
    record.snapshot version = some (g.snapshot inst.platform) ∧
    g.applyMove inst.platform g.state.currentPlayer version inst.policy.timeoutResponse.move =
      .ok (g', event) ∧
    next.snapshots = record.snapshots ++ [g'.snapshot inst.platform] ∧ result.event = event

section

variable {inst : Installation} {inputs : Nat → Input} {s : Store} {gameId : GameId}
  {record : GameRecord} {deadline : TurnDeadline}

/-- A row under the retry key of a timeout keeps it from committing anything. -/
theorem not_resolves_of_recorded {version : UInt64} {row : IdempotencyRecord}
    (h : Recorded s gameId
      (inst.platform.sha256 (Bytes.utf8 (timeoutText inst.policy ⟨gameId, version⟩))) row) :
    ¬ ResolvesTimeout inst inputs gameId version s := by
  rintro ⟨result, t, record, next, g, g', event, hRun, hRecord, hNext, -, -, hSnapshots, -⟩
  obtain ⟨key, hKey, hText⟩ := timeoutKey_ok inst.policy ⟨gameId, version⟩
  have hAnswered : ∃ reply, Runs inst inputs (resolveTimeout inst ⟨gameId, version⟩) s reply s := by
    rw [← hText] at h
    unfold resolveTimeout
    rw [hKey]
    exact ⟨_, Runs.value (Runs.answered
      (TimeoutCommand.identity inst ⟨gameId, version⟩ key) (h.reply _))⟩
  obtain ⟨reply, hReply⟩ := hAnswered
  obtain ⟨-, rfl⟩ := Prod.mk.inj (hReply.symm.trans hRun)
  rw [hRecord, Option.some.injEq] at hNext
  rw [← hNext] at hSnapshots
  have hLength := congrArg List.length hSnapshots
  rw [List.length_append, List.length_singleton] at hLength
  omega

/-- With its retry key free, a due timeout commits the policy move. -/
theorem resolves_of_free (hSane : Sane inst s) (hRecord : s.game gameId = some record)
    (hActive : record.status = .active)
    (hDeadline : (record.deadlines.find? fun d => d.turn = record.version) = some deadline)
    (hClock : ∀ n, deadline.deadlineAt ≤ (inputs n).clock.toInt)
    (hFree : record.cached
      (inst.platform.sha256 (Bytes.utf8 (timeoutText inst.policy ⟨gameId, record.version⟩))) = none) :
    ResolvesTimeout inst inputs gameId record.version s := by
  obtain ⟨key, hKey, hText⟩ := timeoutKey_ok inst.policy ⟨gameId, record.version⟩
  obtain ⟨past, g, hTold, hShelved⟩ := hSane.told gameId record hRecord
  rw [← hText] at hFree
  have hPhase : g.state.phase = .active := hTold.status ▸ hActive
  obtain ⟨g', event, hMove⟩ := timeoutResponse_legal inst.policy.timeoutResponse
    hTold.lineage.reachable hPhase
  rw [← hTold.version] at hMove
  rw [hTold.version, hTold.deadline] at hDeadline
  obtain ⟨-, rfl⟩ := nextDeadline_eq_some.mp hDeadline
  have hTime : record.createdAt ≤ (inputs 4).clock.toInt := by
    refine Int.le_trans ?_ (hClock 4)
    exact Int.le_trans hTold.times.2.1 (Checked.le_saturateI64 hTold.times.2.2
      (Int.le_add_of_nonneg_right (Int.le_of_lt inst.policy.turnDuration_pos)))
  obtain ⟨t, next, row, hRun, -, hTouches, hNext, -⟩ := Runs.executeAction
    (fun n => inputs (n + 3)) (TimeoutCommand.identity inst ⟨gameId, record.version⟩ key) false hSane
    hTold hShelved hRecord (TimeoutCommand.identity_valid _ _ _) hFree hTime hMove
  refine ⟨⟨(inputs 4).clock.toInt, nextDeadline inst.policy g' (inputs 4).clock.toInt, event,
    g'.seatProjection g.state.currentPlayer⟩, t, record, next, g, g', event, ?_, hRecord,
    hTouches.after, hTold.snapshot, hMove, ?_, rfl⟩
  · change Runs inst inputs (resolveTimeout inst ⟨gameId, record.version⟩) s _ t
    exact (Gets.policy hTold hShelved hRecord hKey hFree hDeadline (hClock 2)).runs hRun
  · rw [hNext.snapshots, hTold.snapshots, List.map_append, List.map_append]
    rfl

end

/-- A due timeout of the current version of an active game, run alone in any
store that a run of calls leads to, commits the policy move exactly when no
earlier command on the game has used its retry key. -/
theorem due_timeout_resolves_iff_key_free (inst : Installation) (actions : List ServiceAction)
    (inputs : Nat → Input) (gameId : GameId) (record : GameRecord) (deadline : TurnDeadline)
    (hRecord : ((service inst).after .empty actions).store.game gameId = some record)
    (hActive : record.status = .active)
    (hDeadline : (record.deadlines.find? fun d => d.turn = record.version) = some deadline)
    (hClock : ∀ n, deadline.deadlineAt ≤ (inputs n).clock.toInt) :
    ResolvesTimeout inst inputs gameId record.version ((service inst).after .empty actions).store ↔
      ∀ row ∈ record.idempotency, row.keyDigest ≠
        inst.platform.sha256 (Bytes.utf8 (timeoutText inst.policy ⟨gameId, record.version⟩)) := by
  have hSane := ((ServicePool.sound_empty inst).after actions).inv
  constructor
  · intro hResolves row hRow hSame
    cases hCached : record.cached row.keyDigest with
    | none => exact cached_eq_none.mp hCached row hRow rfl
    | some found =>
        rw [hSame] at hCached
        exact not_resolves_of_recorded ⟨record, hRecord, hCached⟩ hResolves
  · intro hFree
    exact resolves_of_free hSane hRecord hActive hDeadline hClock
      (cached_eq_none.mpr fun row hRow => (hFree row hRow).symm)

/-! A table with a timeout. -/

/-- What a player can send as the key of a pass. -/
def timeoutHookKey : IdempotencyKey := ⟨"timeout:hook:1:1", by decide⟩

/-- Long after the deadline of the second turn. -/
def overdue : Nat → Input := standing 86400000

section

variable {key : IdempotencyKey} {actions : List ServiceAction} {s : Store} {record : GameRecord}
  {past : List Game} {g : Game}

theorem Passed.status (h : Passed key 0 actions s record past g) :
    record.status = .active ∧ record.version = 1 :=
  ⟨h.told.status.trans h.active, h.told.version.trans h.version⟩

theorem Passed.store_eq (h : Passed key 0 actions s record past g) :
    ((service hookInstallation).after .empty actions).store = s := by
  obtain ⟨created, result, log, log', hReached⟩ := h.reached
  rw [hReached]

/-- The second turn has a deadline, which passes within a day. -/
theorem Passed.deadline (h : Passed key 0 actions s record past g) :
    ∃ deadline, (record.deadlines.find? fun d => d.turn = record.version) = some deadline ∧
      ∀ n, deadline.deadlineAt ≤ (overdue n).clock.toInt := by
  have hDay : (300000 : Int) ≤ (86400000 : Int64).toInt := by decide
  refine ⟨⟨1, .two, 300000, 1⟩, ?_, fun _ => hDay⟩
  rw [h.told.version, h.told.deadline, nextDeadline_eq_some]
  refine ⟨h.active, ?_⟩
  rw [h.updatedAt, h.version, h.turn]
  decide

end

/-- The timeout of the second turn, with the pass made under another key. -/
theorem second_turn_times_out : ∃ actions record,
    ((service hookInstallation).after .empty actions).store.game hookId = some record ∧
    record.version = 1 ∧
    ResolvesTimeout hookInstallation overdue hookId record.version
      ((service hookInstallation).after .empty actions).store := by
  obtain ⟨actions, s, record, past, g, hPassed⟩ := exists_passed retryKey 0 (by decide)
  obtain ⟨hActive, hVersion⟩ := hPassed.status
  obtain ⟨deadline, hDeadline, hClock⟩ := hPassed.deadline
  obtain ⟨row, hRows, hKey⟩ := hPassed.idempotency
  have hStored := hPassed.stored
  rw [← hPassed.store_eq] at hStored
  refine ⟨actions, record, hStored, hVersion, (due_timeout_resolves_iff_key_free hookInstallation
    actions overdue hookId record deadline hStored hActive hDeadline hClock).mpr ?_⟩
  intro other hOther
  rw [hRows, List.mem_singleton] at hOther
  rw [hOther, hKey, hVersion]
  decide +kernel

/-- The first player passes under the retry key of the next turn's timeout, so
that the second player never times out. -/
theorem second_turn_blocked : ∃ actions created result log log',
    (service hookInstallation).after .empty actions =
      ⟨((service hookInstallation).after .empty actions).store,
        [⟨.create hookCreate, log, .done (.created (.ok created))⟩,
          ⟨.act hookSeat (hookPass timeoutHookKey), log', .done (.acted (.ok result))⟩]⟩ ∧
    ∃ record deadline,
      ((service hookInstallation).after .empty actions).store.game hookId = some record ∧
      record.status = .active ∧ record.version = 1 ∧
      (record.deadlines.find? fun d => d.turn = record.version) = some deadline ∧
      (∀ n, deadline.deadlineAt ≤ (overdue n).clock.toInt) ∧
      ¬ ResolvesTimeout hookInstallation overdue hookId record.version
        ((service hookInstallation).after .empty actions).store := by
  obtain ⟨actions, s, record, past, g, hPassed⟩ := exists_passed timeoutHookKey 0 (by decide)
  obtain ⟨hActive, hVersion⟩ := hPassed.status
  obtain ⟨deadline, hDeadline, hClock⟩ := hPassed.deadline
  obtain ⟨row, hRows, hKey⟩ := hPassed.idempotency
  obtain ⟨created, result, log, log', hReached⟩ := hPassed.reached
  refine ⟨actions, created, result, log, log', by rw [hReached], record, deadline, ?_⟩
  rw [hReached]
  have hSame : row.keyDigest = hookInstallation.platform.sha256
      (Bytes.utf8 (timeoutText hookInstallation.policy ⟨hookId, record.version⟩)) := by
    rw [hKey, hVersion]
    rfl
  have hRecorded : Recorded s hookId (hookInstallation.platform.sha256
      (Bytes.utf8 (timeoutText hookInstallation.policy ⟨hookId, record.version⟩))) row := by
    refine ⟨record, hPassed.stored, ?_⟩
    rw [← hSame, GameRecord.cached, hRows]
    simp
  exact ⟨hPassed.stored, hActive, hVersion, hDeadline, hClock, not_resolves_of_recorded hRecorded⟩

end WordArena.Service
