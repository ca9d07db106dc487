import WordArena.Service.Calls
import WordArena.Service.Success

/-! Calls that have the store to themselves. -/
namespace WordArena.Service

open Fallible WordArena.Engine WordArena.Lexicon WordArena.Application

/-- The rows of a game determine it. -/
theorem Sane.shelved {inst : Installation} {s : Store} {gameId : GameId} {record : GameRecord}
    {past : List Game} {g : Game} (h : Sane inst s) (hRecord : s.game gameId = some record)
    (hTold : Told inst record past g) : Shelved s g := by
  obtain ⟨past', g', hTold', hShelved⟩ := h.told gameId record hRecord
  have hVersion : g.state.version = g'.state.version := hTold.version.symm.trans hTold'.version
  rw [(hTold.visited hRecord).current hRecord hTold' hVersion]
  exact hShelved

/-- A use case that nobody interferes with ends with a result and a store. -/
def Runs (inst : Installation) (inputs : Nat → Input) {α : Type} (task : Task α) (s : Store)
    (result : Except ApplicationError α) (t : Store) : Prop :=
  task.run.alone (repository inst) inputs s = (result, t)

section

variable {inst : Installation} {inputs : Nat → Input} {α β : Type} {s t : Store}
  {result : Except ApplicationError α}

theorem Runs.settle : Runs inst inputs (settle result) s result s := rfl

theorem Runs.value {b : β} {f : β → Task α} (h : Runs inst inputs (f b) s result t) :
    Runs inst inputs (Service.settle (.ok b) >>= f) s result t :=
  h

theorem Runs.ask {request : Request} {f : request.Response → Task α}
    (h : Runs inst (fun n => inputs (n + 1)) (f (perform inst (inputs 0) s request).1)
      (perform inst (inputs 0) s request).2 result t) :
    Runs inst inputs (Service.ask request >>= f) s result t :=
  h

theorem Runs.ask_bind {request : Request} {k : request.Response → Task β} {f : β → Task α}
    (h : Runs inst (fun n => inputs (n + 1)) (k (perform inst (inputs 0) s request).1 >>= f)
      (perform inst (inputs 0) s request).2 result t) :
    Runs inst inputs ((Service.ask request >>= k) >>= f) s result t :=
  h

end

/-- A use case that nobody interferes with gets as far as another one with a
number of requests. -/
def Gets (inst : Installation) (inputs : Nat → Input) (n : Nat) {α : Type} (task : Task α) (s : Store)
    (rest : Task α) (t : Store) : Prop :=
  task.run.turns (repository inst) n inputs s = (rest.run, t)

section

variable {inst : Installation} {inputs : Nat → Input} {α β : Type} {s t u : Store}
  {result : Except ApplicationError α} {task rest : Task α} {m n : Nat}

theorem Gets.trans {middle : Task α} (h : Gets inst inputs n task s middle t)
    (h' : Gets inst (fun k => inputs (k + n)) m middle t rest u) :
    Gets inst inputs (n + m) task s rest u := by
  rw [Gets, Program.turns_add, h]
  exact h'

theorem Gets.runs (h : Gets inst inputs n task s rest t)
    (h' : Runs inst (fun k => inputs (k + n)) rest t result u) :
    Runs inst inputs task s result u := by
  rw [Runs, Program.alone_turns (repository inst) task.run n, h]
  exact h'

theorem Gets.ask_bind {request : Request} {k : request.Response → Task β} {f : β → Task α} :
    Gets inst inputs 1 ((Service.ask request >>= k) >>= f) s
      (k (perform inst (inputs 0) s request).1 >>= f) (perform inst (inputs 0) s request).2 :=
  rfl

/-- A loaded game is the current one. -/
theorem Gets.load {gameId : GameId} {record : GameRecord} {past : List Game} {g : Game}
    {f : StoredGame → Task α} (hTold : Told inst record past g) (hShelved : Shelved s g)
    (hRecord : s.game gameId = some record) :
    Gets inst inputs 1 (loadRecord inst gameId >>= f) s (f ⟨gameId, record.createdAt,
      record.updatedAt, g.snapshot inst.platform, nextDeadline inst.policy g record.updatedAt⟩) s := by
  have hLoad : (perform inst (inputs 0) s (.load gameId)).1 = .ok _ :=
    hTold.load hShelved hRecord
  refine Gets.ask_bind.trans (m := 0) ?_
  rw [hLoad]
  rfl

theorem Runs.load {gameId : GameId} {record : GameRecord} {past : List Game} {g : Game}
    {f : StoredGame → Task α} (hTold : Told inst record past g) (hShelved : Shelved s g)
    (hRecord : s.game gameId = some record)
    (h : Runs inst (fun n => inputs (n + 1)) (f ⟨gameId, record.createdAt, record.updatedAt,
      g.snapshot inst.platform, nextDeadline inst.policy g record.updatedAt⟩) s result t) :
    Runs inst inputs (loadRecord inst gameId >>= f) s result t :=
  (Gets.load hTold hShelved hRecord).runs h

/-- A free key leaves the command to be executed. -/
theorem Gets.unanswered (id : CommandIdentity) {task : Task GameActionResult} {record : GameRecord}
    (hRecord : s.game id.gameId = some record) (hFree : record.cached id.keyDigest = none) :
    Gets inst inputs 1 (cachedOutcome id.gameId id.keyDigest id.payloadSha256 >>= fun
      | some result => Service.settle result
      | none => task) s task s := by
  have hMissing : lookupIdempotency s id.gameId id.keyDigest id.payloadSha256 = .missing :=
    lookup_missing_iff.mpr fun other hOther => by
      rw [hRecord, Option.some.injEq] at hOther
      rw [← hOther, hFree]
  refine Gets.ask_bind.trans (m := 0) ?_
  change Gets inst _ 0 (match lookupReply (lookupIdempotency s id.gameId id.keyDigest
    id.payloadSha256) with
      | some result => Service.settle result
      | none => task) s task s
  rw [hMissing]
  rfl

theorem Runs.unanswered (id : CommandIdentity) {task : Task GameActionResult}
    {reply : Except ApplicationError GameActionResult} {record : GameRecord}
    (hRecord : s.game id.gameId = some record) (hFree : record.cached id.keyDigest = none)
    (h : Runs inst (fun n => inputs (n + 1)) task s reply t) :
    Runs inst inputs (cachedOutcome id.gameId id.keyDigest id.payloadSha256 >>= fun
      | some result => Service.settle result
      | none => task) s reply t :=
  (Gets.unanswered id hRecord hFree).runs h

/-- A taken key is answered and nothing changes. -/
theorem Runs.answered (id : CommandIdentity) {task : Task GameActionResult}
    {reply : Except ApplicationError GameActionResult}
    (hReply : lookupReply (lookupIdempotency s id.gameId id.keyDigest id.payloadSha256) = some reply) :
    Runs inst inputs (cachedOutcome id.gameId id.keyDigest id.payloadSha256 >>= fun
      | some result => Service.settle result
      | none => task) s reply s := by
  refine Runs.ask_bind ?_
  change Runs inst _ (match lookupReply (lookupIdempotency s id.gameId id.keyDigest
    id.payloadSha256) with
      | some result => Service.settle result
      | none => task) s reply s
  rw [hReply]
  exact Runs.settle

end

section

variable {inst : Installation} {inputs : Nat → Input} {s t : Store} {id : CommandIdentity}
  {expected : UInt64} {seat : Seat} {action : Move} {record : GameRecord} {past : List Game}
  {g g' : Game} {event : GameEvent}

theorem Runs.commitAttempted {committedAt : UnixMillis} {attempt : Attempt}
    (hCommit : commitActionRecord s (actionCommit id expected committedAt attempt) = .ok t) :
    Runs inst inputs (Service.commitAttempted id expected committedAt attempt) s
      (outcomeResult attempt.outcome) t := by
  have hPerform : perform inst (inputs 0) s
      (.commitAction (actionCommit id expected committedAt attempt)) = (.ok (), t) := by
    rw [perform, commitOr, hCommit]
    rfl
  refine Runs.ask ?_
  rw [hPerform]
  exact Runs.settle

/-- A legal action of the current game goes through. -/
theorem Runs.executeAction (inputs : Nat → Input) (id : CommandIdentity) (countInvalid : Bool)
    (hSane : Sane inst s)
    (hTold : Told inst record past g) (hShelved : Shelved s g)
    (hRecord : s.game id.gameId = some record) (hId : id.Valid)
    (hFree : record.cached id.keyDigest = none) (hTime : record.createdAt ≤ (inputs 1).clock.toInt)
    (hMove : g.applyMove inst.platform seat expected action = .ok (g', event)) :
    ∃ t next row, Runs inst inputs (Service.executeAction inst id expected seat action countInvalid) s
        (.ok ⟨(inputs 1).clock.toInt, nextDeadline inst.policy g' (inputs 1).clock.toInt, event,
          g'.seatProjection seat⟩) t ∧
      Sane inst t ∧ Touches s t id.gameId record next ∧ Told inst next (past ++ [g]) g' ∧
      next.updatedAt = (inputs 1).clock.toInt ∧ next.createdAt = record.createdAt ∧
      next.idempotency = record.idempotency ++ [row] ∧ row.keyDigest = id.keyDigest := by
  generalize hStored : (⟨id.gameId, record.createdAt, record.updatedAt, g.snapshot inst.platform,
    nextDeadline inst.policy g record.updatedAt⟩ : StoredGame) = stored
  have hBasis : Basis inst s id.gameId stored past g :=
    ⟨hTold.visited hRecord, by rw [← hStored], by rw [← hStored]⟩
  obtain ⟨t, hCommit⟩ := hTold.commit_move hRecord hId hFree hBasis.gameId (by rw [← hStored]) hTime
    hMove
  obtain ⟨record', next, hNext, -, hTouches, hCommits⟩ :=
    hSane.commit (hBasis.accepted hMove (inputs 1).clock.toInt_lt) hCommit
  obtain rfl : record' = record := Option.some.inj (hTouches.before.symm.trans hRecord)
  obtain ⟨-, hAccepted⟩ := applyMove_eq_ok.mp hMove
  have hNextTold : Told inst next (past ++ [g]) g' := by
    refine hTold.move hCommits (game_gameId hRecord).symm hAccepted rfl rfl rfl
      (inputs 1).clock.toInt_lt fun result hResult => ?_
    cases hResult
    exact ⟨rfl, rfl, rfl⟩
  refine ⟨t, next, (actionCommit id expected (inputs 1).clock.toInt (acceptedAttempt inst stored seat
    (inputs 1).clock.toInt g' event)).idempotency, ?_, hNext, hTouches, hNextTold, ?_⟩
  · refine Runs.load hTold hShelved hRecord ?_
    rw [hStored, hBasis.resume]
    refine Runs.value (Runs.ask ?_)
    change Runs inst _ (attemptAction inst stored g expected seat action countInvalid id.gameId
      (inputs 1).clock.toInt >>= Service.commitAttempted id expected (inputs 1).clock.toInt) s _ t
    unfold attemptAction
    rw [hMove]
    exact Runs.commitAttempted hCommit
  · obtain ⟨progress, -, -⟩ := hCommits
    cases progress with
    | stay absent => cases absent
    | advance successor _ =>
        cases successor
        exact ⟨rfl, rfl, rfl, rfl⟩

/-- An illegal action that is not counted is refused, and only the refusal is stored. -/
theorem Runs.executeRejected (inputs : Nat → Input) (countInvalid : Bool)
    (hTold : Told inst record past g) (hShelved : Shelved s g)
    (hRecord : s.game id.gameId = some record) (hId : id.Valid)
    (hFree : record.cached id.keyDigest = none) (hTime : 0 ≤ (inputs 1).clock.toInt)
    {error : GameError} (hMove : g.applyMove inst.platform seat expected action = .error error)
    (hQuiet : countInvalid = true → rejectionFromEngine inst.quote error = .versionConflict) :
    ∃ t row, Runs inst inputs (Service.executeAction inst id expected seat action countInvalid) s
        (.error (.actionRejected (rejectionFromEngine inst.quote error))) t ∧
      Touches s t id.gameId record { record with idempotency := record.idempotency ++ [row] } := by
  obtain ⟨t, row, hCommit, hTouches⟩ := commit_rejection hRecord hId hFree hTime
    (rejectionFromEngine inst.quote error)
  refine ⟨t, row, Runs.load hTold hShelved hRecord ?_, hTouches⟩
  rw [hTold.lineage.resume rfl]
  refine Runs.value (Runs.ask ?_)
  unfold attemptAction
  rw [hMove]
  have hUncounted : ¬ (countInvalid = true ∧
      rejectionFromEngine inst.quote error ≠ .versionConflict) :=
    fun hCounted => hCounted.2 (hQuiet hCounted.1)
  simp only [if_neg hUncounted]
  exact Runs.commitAttempted hCommit

end

/-! Creation. -/

theorem Runs.insertCreated {inst : Installation} {inputs : Nat → Input} {s t : Store}
    {command : CreateGameCommand} {g : Game} {createdAt : UnixMillis}
    (hInsert : insertGame inst.platform s (creationRecordOf inst command g createdAt)
      (creationIdempotencyOf inst command g createdAt) = .ok t) :
    Runs inst inputs (Service.insertCreated inst command g createdAt) s
      (.ok (createdGame (creationIdempotencyOf inst command g createdAt).result)) t := by
  have hPerform : perform inst (inputs 0) s (.insertIdempotent
      (creationRecordOf inst command g createdAt)
      (creationIdempotencyOf inst command g createdAt)) = (.ok (), t) := by
    rw [perform, commitOr, hInsert]
    rfl
  refine Runs.ask ?_
  rw [hPerform]
  exact Runs.settle

/-- The first creation in an empty store goes through. -/
theorem Runs.createGame {inst : Installation} (inputs : Nat → Input) (command : CreateGameCommand)
    {id : RulesetId} {validator : WordValidator}
    (hLanguage : forLanguage command.language = .ok (Ruleset.builtin id))
    (hInstalled : inst.lexicons (Ruleset.builtin id).lexicon = some validator)
    (hIdentity : (Ruleset.builtin id).lexicon = validator.identity)
    (hPlayers : 2 ≤ command.playerCount.toNat ∧ command.playerCount.toNat ≤ 4)
    (hTime : 0 ≤ (inputs 1).clock.toInt) :
    ∃ created t record g, Runs inst inputs (Service.createGame inst command) .empty (.ok created) t ∧
      Sane inst t ∧ t.game command.gameId = some record ∧ Told inst record [] g ∧
      Game.createWithModeAndPlayers inst.platform command.gameId.asStr (Ruleset.builtin id)
        (some validator) (inputs 2).seed command.mode command.playerCount.toNat = .ok g ∧
      record.idempotency = [] ∧ record.createdAt = (inputs 1).clock.toInt ∧
      record.updatedAt = (inputs 1).clock.toInt ∧ t.games = [record] ∧
      record.deadlines = (nextDeadline inst.policy g (inputs 1).clock.toInt).toList ∧
      created.createdAt = (inputs 1).clock.toInt := by
  obtain ⟨g, hGame⟩ := create_succeeds inst.platform command.gameId.asStr (inputs 2).seed command.mode
    (by rw [builtin_id]) hIdentity hPlayers
  have hLineage : Lineage inst command.gameId [] g := .fresh hInstalled hGame
  obtain ⟨t, hInsert⟩ : ∃ t, insertGame inst.platform .empty
      (creationRecordOf inst command g (inputs 1).clock.toInt)
      (creationIdempotencyOf inst command g (inputs 1).clock.toInt) = .ok t :=
    insertGame_empty hGame hTime
  obtain ⟨ruleset, event, hInserts⟩ := insertGame_ok hInsert
  have hRecord := hInserts.game command.gameId
  rw [if_pos (by rfl)] at hRecord
  refine ⟨createdGame (creationIdempotencyOf inst command g (inputs 1).clock.toInt).result, t, _, g, ?_,
    ((Sane.empty inst).insert hLineage rfl rfl (inputs 1).clock.toInt_lt hInsert).1, hRecord,
    (hInserts.told hLineage rfl rfl (inputs 1).clock.toInt_lt).1, hGame, rfl, rfl, rfl,
    hInserts.games, rfl, rfl⟩
  refine Runs.ask_bind ?_
  change Runs inst _ (do
    let ruleset ← Service.settle (mapErr .engine (forLanguage command.language))
    let lexicon ← Service.settle (okOr (inst.lexicons ruleset.lexicon) (.missingLexicon command.gameId))
    let createdAt ← Service.ask .now
    let seed ← Service.ask .nextSeed
    let game ← Service.settle (mapErr .engine (Game.createWithModeAndPlayers inst.platform
      command.gameId.asStr ruleset (some lexicon) seed command.mode command.playerCount.toNat))
    Service.insertCreated inst command game createdAt) .empty _ t
  rw [hLanguage]
  refine Runs.value ?_
  rw [hInstalled]
  refine Runs.value (Runs.ask (Runs.ask ?_))
  change Runs inst _ (Service.settle (mapErr .engine (Game.createWithModeAndPlayers inst.platform
    command.gameId.asStr (Ruleset.builtin id) (some validator) (inputs 2).seed command.mode
    command.playerCount.toNat)) >>= _) .empty _ t
  rw [hGame]
  exact Runs.value (Runs.insertCreated hInsert)

/-! Solo calls in a pool. -/

theorem serve_alone_act {inst : Installation} {inputs : Nat → Input} {s t : Store}
    {credential : CompetitiveSeatCredential} {command : GameActionCommand}
    {result : Except ApplicationError GameActionResult}
    (h : Runs inst inputs (act inst credential command) s result t) :
    (serve inst (.act credential command)).alone (repository inst) inputs s = (.acted result, t) := by
  rw [serve, Program.alone_map, h]

theorem serve_alone_create {inst : Installation} {inputs : Nat → Input} {s t : Store}
    {command : CreateGameCommand} {result : Except ApplicationError CreatedGame}
    (h : Runs inst inputs (createGame inst command) s result t) :
    (serve inst (.create command)).alone (repository inst) inputs s = (.created result, t) := by
  rw [serve, Program.alone_map, h]

/-- Serve one call to its end. -/
theorem exists_served {inst : Installation} {inputs : Nat → Input} (pool : ServicePool)
    {call : ServiceCall} {reply : Reply} {t : Store}
    (h : (serve inst call).alone (repository inst) inputs pool.store = (reply, t)) :
    ∃ actions log, (service inst).after pool (.start call :: actions) =
      ⟨t, pool.threads ++ [⟨call, log, .done reply⟩]⟩ := by
  obtain ⟨actions, log, hAfter⟩ := Pool.exists_served (repository inst) (serve inst) pool call
    inputs
  rw [h] at hAfter
  exact ⟨actions, log, hAfter⟩

/-- The first player of a dealt game can pass, and the game goes on. -/
theorem first_pass {platform : Platform} {gameId : String} {ruleset : Ruleset}
    {lexicon : Option WordValidator} {seed : GameSeed} {mode : GameMode} {g : Game}
    (h : Game.createWithModeAndPlayers platform gameId ruleset lexicon seed mode 2 = .ok g) :
    ∃ g' event, g.applyMove platform .one 0 .pass = .ok (g', event) ∧ g'.state.phase = .active ∧
      g'.state.version = 1 ∧ g'.state.currentPlayer = .two := by
  have hReachable : Reachable platform g := .initial ⟨_, _, _, _, _, _, h⟩
  obtain ⟨c, -, hValid, hGame⟩ := createWithModeAndPlayers_eq_ok.mp h
  have hPhase : g.state.phase = .active := by rw [hGame]; rfl
  have hVersion : g.state.version = 0 := by rw [hGame]; rfl
  have hPlayer : g.state.currentPlayer = .one := by rw [hGame]; rfl
  obtain ⟨d, valid⟩ := hReachable.pass_valid hPhase
  rw [hPlayer] at valid
  have hContinues : g.scorelessReason d.turns = none := by
    have hTurns := valid.turns
    have hLimit := hReachable.shape.scorelessTurnLimit
    have hZero : g.state.scorelessTurns = 0 := by rw [hGame]; rfl
    rw [hZero] at hTurns
    rw [Game.scorelessReason, if_neg]
    rw [ge_iff_le, UInt8.le_iff_toNat_le, hLimit, hTurns]
    decide
  have hFinal := valid.completed
  rw [hContinues, Game.completeWhen, Except.ok.injEq, Prod.mk.injEq] at hFinal
  refine ⟨_, _, applyMove_eq_ok.mpr ⟨hVersion.symm, .pass d valid⟩, ?_, ?_, ?_⟩
  · change d.final.phase = .active
    rw [← hFinal.1]
    exact hPhase
  · change d.final.version = 1
    rw [← hFinal.1]
    have hNext := valid.version
    rw [hVersion] at hNext
    exact UInt64.toNat_inj.mp hNext
  · change d.final.currentPlayer = .two
    rw [← hFinal.1]
    have hNext := valid.nextPlayer
    have hTwo : Seat.next .one 2 = some .two := by decide
    have hRacks : g.racks.length = 2 := by
      rw [← hReachable.shape.scores, hGame]
      exact List.length_replicate
    rw [hRacks, hTwo, Option.some.injEq] at hNext
    exact hNext.symm

/-- One process with the dictionary of the table and real digests. -/
def hookInstallation : Installation where
  platform := basicPlatform
  quote := ⟨Json.text, fun c => "'" ++ c.toString ++ "'"⟩
  lexicons identity := if identity = hookValidator.identity then some hookValidator else none
  policy := .standard

def hookId : GameId := ⟨"hook", by decide⟩

def hookCreate : CreateGameCommand := ⟨hookId, .english, .practice, 2, ⟨"open", by decide⟩⟩

def hookPass (key : IdempotencyKey) : GameActionCommand := ⟨hookId, 0, ⟨0, .one⟩, key, .pass⟩

def hookSeat : CompetitiveSeatCredential := ⟨hookId, .one⟩

/-- A clock that stands still. -/
def standing (clock : Int64) (_ : Nat) : Input := ⟨clock, zeroSeed⟩

/-- The table before its first move. -/
structure Opened (clock : Int64) (actions : List ServiceAction) (s : Store) (record : GameRecord)
    (g : Game) : Prop where
  reached : ∃ created log, (service hookInstallation).after .empty actions =
    ⟨s, [⟨.create hookCreate, log, .done (.created (.ok created))⟩]⟩
  sane : Sane hookInstallation s
  stored : s.game hookId = some record
  told : Told hookInstallation record [] g
  active : g.state.phase = .active
  version : g.state.version = 0
  turn : g.state.currentPlayer = .one
  idempotency : record.idempotency = []
  times : record.createdAt = clock.toInt ∧ record.updatedAt = clock.toInt
  alone : s.games = [record]
  deadlines : record.deadlines = (nextDeadline hookInstallation.policy g clock.toInt).toList
  pass : ∃ g' event, g.applyMove basicPlatform .one 0 .pass = .ok (g', event) ∧
    g'.state.phase = .active ∧ g'.state.version = 1 ∧ g'.state.currentPlayer = .two

/-- The table is created by a call that is left alone. -/
theorem exists_dealt (clock : Int64) (hClock : 0 ≤ clock.toInt) :
    ∃ created s record g, Runs hookInstallation (standing clock)
        (createGame hookInstallation hookCreate) .empty (.ok created) s ∧
      created.createdAt = clock.toInt ∧ g.state.scores.length = 2 ∧
      ∀ actions log, (service hookInstallation).after .empty actions =
        ⟨s, [⟨.create hookCreate, log, .done (.created (.ok created))⟩]⟩ →
        Opened clock actions s record g := by
  have hIdentity : (Ruleset.builtin .englishV1).lexicon = hookValidator.identity := by
    -- Stated for any ruleset, so that checking it does not load the fixture.
    have hAny : ∀ (r : Ruleset) accepts, r.lexicon = (WordValidator.mk r.lexicon accepts).identity :=
      fun _ _ => rfl
    exact hAny _ _
  have hInstalled : hookInstallation.lexicons (Ruleset.builtin .englishV1).lexicon =
      some hookValidator := by
    simp only [hookInstallation, hIdentity, if_true]
  have hLanguage : forLanguage hookCreate.language = .ok (Ruleset.builtin .englishV1) := by
    simp only [hookCreate, forLanguage]
  obtain ⟨created, t, record, g, hCreate, hSane, hRecord, hTold, hGame, hEmpty, hCreated, hUpdated,
    hAlone, hDeadlines, hTime⟩ :=
      Runs.createGame (standing clock) hookCreate hLanguage hInstalled hIdentity (by decide) hClock
  obtain ⟨d, -, -, hDealt⟩ := createWithModeAndPlayers_eq_ok.mp hGame
  refine ⟨created, t, record, g, hCreate, hTime, ?_, fun actions log hReached =>
    ⟨⟨created, log, hReached⟩, hSane, hRecord, hTold, ?_, ?_, ?_, hEmpty, ⟨hCreated, hUpdated⟩, hAlone,
    hDeadlines, first_pass hGame⟩⟩
  · rw [hDealt]
    rfl
  · rw [hDealt]
    rfl
  · rw [hDealt]
    rfl
  · rw [hDealt]
    rfl

theorem exists_opened (clock : Int64) (hClock : 0 ≤ clock.toInt) :
    ∃ actions s record g, Opened clock actions s record g := by
  obtain ⟨created, s, record, g, hCreate, -, -, hOpened⟩ := exists_dealt clock hClock
  obtain ⟨first, log, hFirst⟩ := exists_served .empty (serve_alone_create hCreate)
  exact ⟨.start (.create hookCreate) :: first, s, record, g, hOpened _ log hFirst⟩

/-- The table after its first player has passed under a key. -/
structure Passed (key : IdempotencyKey) (clock : Int64) (actions : List ServiceAction) (s : Store)
    (record : GameRecord) (past : List Game) (g : Game) : Prop where
  reached : ∃ created result log log', (service hookInstallation).after .empty actions =
    ⟨s, [⟨.create hookCreate, log, .done (.created (.ok created))⟩,
      ⟨.act hookSeat (hookPass key), log', .done (.acted (.ok result))⟩]⟩
  sane : Sane hookInstallation s
  stored : s.game hookId = some record
  told : Told hookInstallation record past g
  active : g.state.phase = .active
  version : g.state.version = 1
  turn : g.state.currentPlayer = .two
  updatedAt : record.updatedAt = clock.toInt
  idempotency : ∃ row, record.idempotency = [row] ∧ row.keyDigest = digestKey basicPlatform key

/-- The first pass of the table, whatever other calls wait meanwhile. -/
theorem Opened.passes {clock : Int64} {actions : List ServiceAction} {s : Store}
    {record : GameRecord} {g : Game} (h : Opened clock actions s record g) (key : IdempotencyKey) :
    ∃ result u next g', Runs hookInstallation (standing clock)
        (act hookInstallation hookSeat (hookPass key)) s (.ok result) u ∧
      Sane hookInstallation u ∧ u.game hookId = some next ∧ Told hookInstallation next [g] g' ∧
      g'.state.phase = .active ∧ g'.state.version = 1 ∧ g'.state.currentPlayer = .two ∧
      next.updatedAt = clock.toInt ∧
      ∃ row, next.idempotency = [row] ∧ row.keyDigest = digestKey basicPlatform key := by
  obtain ⟨g', event, hMove, hPhase, hVersion, hTurn⟩ := h.pass
  have hFree : record.cached ((hookPass key).identity basicPlatform).keyDigest = none := by
    rw [GameRecord.cached, h.idempotency]
    rfl
  obtain ⟨u, next, row, hAct, hNext, hTouches, hNextTold, hUpdated, -, hRows, hKey⟩ :=
    Runs.executeAction (fun n => standing clock (n + 1)) ((hookPass key).identity basicPlatform) true
      h.sane h.told (h.sane.shelved h.stored h.told) h.stored (GameActionCommand.identity_valid _ _)
      hFree (Int.le_of_eq h.times.1) hMove
  refine ⟨_, u, next, g', Runs.value (Runs.unanswered ((hookPass key).identity basicPlatform) h.stored
    hFree hAct), hNext, hTouches.after, hNextTold, hPhase, hVersion, hTurn, hUpdated, row, ?_, hKey⟩
  rw [hRows, h.idempotency]
  rfl

theorem exists_passed (key : IdempotencyKey) (clock : Int64) (hClock : 0 ≤ clock.toInt) :
    ∃ actions s record past g, Passed key clock actions s record past g := by
  obtain ⟨first, t, record, g, hOpened⟩ := exists_opened clock hClock
  obtain ⟨created, log, hFirst⟩ := hOpened.reached
  obtain ⟨result, u, next, g', hRun, hSane, hStored, hTold, hPhase, hVersion, hTurn, hUpdated, hRows⟩ :=
    hOpened.passes key
  obtain ⟨second, log', hSecond⟩ := exists_served
    ⟨t, [⟨.create hookCreate, log, .done (.created (.ok created))⟩]⟩ (serve_alone_act hRun)
  refine ⟨first ++ (.start (.act hookSeat (hookPass key)) :: second), u, next, [g], g',
    ⟨created, result, log, log', ?_⟩, hSane, hStored, hTold, hPhase, hVersion, hTurn, hUpdated, hRows⟩
  rw [Machine.after_append, hFirst]
  exact hSecond

end WordArena.Service
