import WordArena.Service.Solo

/-! Loads query by query. A load puts four queries outside a transaction and
compares what they return; commits of others may land between any two of them. -/
namespace WordArena.Service

open Fallible WordArena.Engine WordArena.Lexicon WordArena.Application Program

/-- The row of a game joined with the snapshot of its version, its rules and its
dictionary. -/
structure CheckpointRow where
  status : GamePhase
  version : UInt64
  rulesetId : RulesetId
  rulesetSha256 : String
  lexiconPackId : String
  lexiconPackVersion : String
  lexiconContentSha256 : String
  createdAt : UnixMillis
  updatedAt : UnixMillis
  payload : GameSnapshot
  definition : Ruleset
  identity : PackIdentity
deriving DecidableEq

def checkpointRow (s : Store) (gameId : GameId) : Option CheckpointRow := do
  let row ← s.game gameId
  let snapshot ← row.snapshot row.version
  let ruleset ← s.ruleset row.rulesetId row.rulesetSha256
  let lexicon ← s.lexicon row.lexiconPackId row.lexiconPackVersion row.lexiconContentSha256
  return ⟨row.status, row.version, row.rulesetId, row.rulesetSha256, row.lexiconPackId,
    row.lexiconPackVersion, row.lexiconContentSha256, row.createdAt, row.updatedAt, snapshot,
    ruleset.definition, lexicon.identity⟩

def loadPublicEvents (s : Store) (gameId : GameId) : List GameEvent :=
  ((s.game gameId).elim [] GameRecord.publicEvents).mergeSort fun a b => a.sequence ≤ b.sequence

def loadPrivateEvents (s : Store) (gameId : GameId) : List PrivateGameEvent :=
  ((s.game gameId).elim [] GameRecord.privateEvents).mergeSort fun a b =>
    a.sequence < b.sequence ∨ a.sequence = b.sequence ∧ a.seat.index ≤ b.seat.index

def deadlineRow (s : Store) (gameId : GameId) (version : UInt64) : Option TurnDeadline :=
  (s.game gameId).bind fun row => row.deadlines.find? fun deadline => deadline.turn = version

/-- Statements that reach the database one at a time. A commit is one of them. -/
inductive Statement where
  | checkpoint (gameId : GameId)
  | publicEvents (gameId : GameId)
  | privateEvents (gameId : GameId)
  | deadline (gameId : GameId) (version : UInt64)
  | commitAction (commit : ActionCommit)

def Statement.Response : Statement → Type
  | .checkpoint _ => Option CheckpointRow
  | .publicEvents _ => List GameEvent
  | .privateEvents _ => List PrivateGameEvent
  | .deadline .. => Option TurnDeadline
  | .commitAction _ => Except RepositoryError Unit

def execute (s : Store) : (statement : Statement) → statement.Response × Store
  | .checkpoint gameId => (checkpointRow s gameId, s)
  | .publicEvents gameId => (loadPublicEvents s gameId, s)
  | .privateEvents gameId => (loadPrivateEvents s gameId, s)
  | .deadline gameId version => (deadlineRow s gameId version, s)
  | .commitAction commit => commitOr s (commitActionRecord s commit)

/-- The database takes nothing from outside. -/
def database : Interface Store Unit Statement Statement.Response := ⟨fun _ => execute⟩

/-- A repository method that may fail between its statements. -/
abbrev Method := ExceptT RepositoryError (Program Statement Statement.Response)

def query (statement : Statement) : Method statement.Response :=
  ExceptT.mk (.query statement fun response => .done (.ok response))

def check {α : Type} (result : Except RepositoryError α) : Method α := ExceptT.mk (.done result)

/-- The metadata of a loaded row. -/
def CheckpointRow.validate (row : CheckpointRow) (gameId : GameId) : Except RepositoryError Unit := do
  reject (row.payload.state.gameId ≠ gameId.asStr ∨ row.payload.state.version ≠ row.version ∨
    row.status ≠ row.payload.state.phase ∨ row.rulesetId ≠ row.payload.state.rulesetId ∨
    row.rulesetSha256 ≠ row.payload.state.ruleset.contentSha256) .corrupt
  reject (row.lexiconPackId ≠ row.payload.state.lexicon.packId ∨
    row.lexiconPackVersion ≠ row.payload.state.lexicon.packVersion ∨
    row.lexiconContentSha256 ≠ row.payload.state.lexicon.contentSha256) .incompatiblePack

/-- What is checked before the events are read. -/
def CheckpointRow.snapshot (platform : Platform) (gameId : GameId) (row : CheckpointRow) :
    Except RepositoryError GameSnapshot := do
  reject (row.payload.schemaVersion ≠ snapshotSchemaVersion) .incompatibleSchema
  reject (row.createdAt < 0 ∨ row.updatedAt < 0) .corrupt
  row.validate gameId
  validateRuleset platform row.definition row.payload
  reject (row.identity ≠ row.payload.state.lexicon) .incompatiblePack
  return row.payload

def loadedDeadline : Option TurnDeadline → Except RepositoryError (Option TurnDeadline)
  | none => .ok none
  | some deadline => do
      reject (deadline.deadlineAt < 0) .corrupt
      return some deadline

/-- The last query of a load. -/
def loadWithDeadline (gameId : GameId) (row : CheckpointRow) (snapshot : GameSnapshot) :
    Method StoredGame := do
  check (ensureI64 row.version)
  let found ← query (.deadline gameId row.version)
  let turnDeadline ← check (loadedDeadline found)
  return ⟨gameId, row.createdAt, row.updatedAt, snapshot, turnDeadline⟩

/-- The events must be those of the snapshot. -/
def compareEvents (snapshot : GameSnapshot) (events : List GameEvent)
    (privateEvents : List PrivateGameEvent) : Except RepositoryError Unit :=
  reject (events ≠ snapshot.events ∨ privateEvents ≠ snapshot.privateEvents) .corrupt

def loadWithEvents (gameId : GameId) (row : CheckpointRow) (snapshot : GameSnapshot) :
    Method StoredGame := do
  let events ← query (.publicEvents gameId)
  let privateEvents ← query (.privateEvents gameId)
  check (compareEvents snapshot events privateEvents)
  loadWithDeadline gameId row snapshot

def loadStatements (platform : Platform) (gameId : GameId) : Method StoredGame := do
  let found ← query (.checkpoint gameId)
  let row ← check (okOr found .notFound)
  let snapshot ← check (row.snapshot platform gameId)
  loadWithEvents gameId row snapshot

/-! A load with nobody else at the database. -/

section

variable {inst : Installation} {s t : Store} {gameId : GameId}

/-- The queries of one database, taken together. -/
theorem loadGame_eq (platform : Platform) (s : Store) (gameId : GameId) :
    loadGame platform s gameId = (do
      let row ← okOr (checkpointRow s gameId) .notFound
      let snapshot ← row.snapshot platform gameId
      compareEvents snapshot (loadPublicEvents s gameId) (loadPrivateEvents s gameId)
      ensureI64 row.version
      let turnDeadline ← loadedDeadline (deadlineRow s gameId row.version)
      return ⟨gameId, row.createdAt, row.updatedAt, snapshot, turnDeadline⟩) := by
  rw [loadGame, checkpointRow, loadPublicEvents, loadPrivateEvents]
  simp only [compareEvents]
  cases hRow : s.game gameId with
  | none => rfl
  | some row =>
      cases hSnapshot : row.snapshot row.version with
      | none => simp [okOr, hSnapshot, ok_bind, error_bind]
      | some snapshot =>
          cases hRuleset : s.ruleset row.rulesetId row.rulesetSha256 with
          | none => simp [okOr, hSnapshot, hRuleset, ok_bind, error_bind]
          | some ruleset =>
              cases hLexicon : s.lexicon row.lexiconPackId row.lexiconPackVersion
                row.lexiconContentSha256 with
              | none => simp [okOr, hSnapshot, hRuleset, hLexicon, ok_bind, error_bind]
              | some lexicon =>
                  simp only [okOr, hSnapshot, hRuleset, hLexicon, ok_bind, Option.bind_eq_bind, Option.bind_some, Option.pure_def,
                    CheckpointRow.snapshot, CheckpointRow.validate, validateLoadedMetadata,
                    loadDeadline, deadlineRow, hRow, bind_assoc, Option.elim_some, pure_bind]
                  cases row.deadlines.find? fun deadline => deadline.turn = row.version <;> rfl

/-- The row a load starts from. -/
theorem Told.checkpoint {record : GameRecord} {past : List Game} {g : Game}
    (h : Told inst record past g) (hShelved : Shelved s g) (hRecord : s.game gameId = some record) :
    ∃ row, checkpointRow s gameId = some row ∧
      row.snapshot inst.platform gameId = .ok (g.snapshot inst.platform) ∧
      row.version = g.state.version ∧ row.createdAt = record.createdAt ∧
      row.updatedAt = record.updatedAt ∧ loadPublicEvents s gameId = g.events ∧
      loadPrivateEvents s gameId = g.privateEvents ∧
      loadedDeadline (deadlineRow s gameId g.state.version) =
        .ok (nextDeadline inst.policy g record.updatedAt) := by
  have hLoad := h.load hShelved hRecord
  rw [loadGame_eq] at hLoad
  obtain ⟨row, hFound, hLoad⟩ := bind_eq_ok.mp hLoad
  obtain ⟨snapshot, hSnapshot, hLoad⟩ := bind_eq_ok.mp hLoad
  obtain ⟨_, hEvents, hLoad⟩ := bind_eq_ok.mp hLoad
  obtain ⟨_, -, hLoad⟩ := bind_eq_ok.mp hLoad
  obtain ⟨turnDeadline, hDeadline, hLoad⟩ := bind_eq_ok.mp hLoad
  obtain ⟨-, hCreated, hUpdated, rfl, rfl⟩ := StoredGame.mk.inj (pure_eq_ok.mp hLoad)
  rw [okOr_eq_ok] at hFound
  have hVersion : row.version = g.state.version := by
    rw [checkpointRow, hRecord, Option.bind_eq_bind, Option.bind_some] at hFound
    obtain ⟨_, -, hFound⟩ := Option.bind_eq_some_iff.mp hFound
    obtain ⟨_, -, hFound⟩ := Option.bind_eq_some_iff.mp hFound
    obtain ⟨_, -, hFound⟩ := Option.bind_eq_some_iff.mp hFound
    cases hFound
    exact h.version
  rw [compareEvents, reject_eq_ok, not_or, not_not, not_not] at hEvents
  exact ⟨row, hFound, hSnapshot, hVersion, hCreated, hUpdated, hEvents.1, hEvents.2,
    hVersion ▸ hDeadline⟩

end

/-! Loads among commits. -/

section

variable {inst : Installation} {s t : Store} {gameId : GameId}

/-- New deadlines of a game belong to later versions. -/
structure Dated (old new : GameRecord) : Prop where
  version : old.version ≤ new.version
  deadlines : ∃ added, new.deadlines = old.deadlines ++ added ∧ ∀ d ∈ added, old.version < d.turn

theorem Dated.refl (record : GameRecord) : Dated record record :=
  ⟨UInt64.le_refl _, [], (List.append_nil _).symm, fun _ h => absurd h List.not_mem_nil⟩

theorem Dated.trans {a b c : GameRecord} (left : Dated a b) (right : Dated b c) : Dated a c := by
  obtain ⟨first, hFirst, hLater⟩ := left.deadlines
  obtain ⟨second, hSecond, hLast⟩ := right.deadlines
  refine ⟨UInt64.le_trans left.version right.version, first ++ second,
    by rw [hSecond, hFirst, List.append_assoc], fun d hd => ?_⟩
  rcases List.mem_append.mp hd with hOld | hNew
  · exact hLater d hOld
  · exact UInt64.lt_of_le_of_lt left.version (hLast d hNew)

/-- What the database never loses, deadlines included. -/
structure Accrues (s t : Store) : Prop where
  grows : Grows s t
  dated : ∀ gameId old new, s.game gameId = some old → t.game gameId = some new → Dated old new

theorem Accrues.refl (s : Store) : Accrues s s := by
  refine ⟨.refl s, fun _ old new hOld hNew => ?_⟩
  cases hOld.symm.trans hNew
  exact .refl old

theorem Accrues.trans {s t r : Store} (left : Accrues s t) (right : Accrues t r) : Accrues s r := by
  refine ⟨left.grows.trans right.grows, fun gameId old new hOld hNew => ?_⟩
  obtain ⟨middle, hMiddle, -⟩ := left.grows.games gameId old hOld
  exact (left.dated gameId old middle hOld hMiddle).trans (right.dated gameId middle new hMiddle hNew)

def databaseDiscipline (inst : Installation) : Discipline Store where
  inv := Sane inst
  grows := Accrues
  refl := .refl
  trans := .trans

theorem Commits.dated {commit : ActionCommit} {record next : GameRecord}
    (h : Commits commit record next) (hSincere : Sincere inst s commit) : Dated record next := by
  obtain ⟨progress, -, -, -⟩ := h
  cases progress with
  | stay _ => exact ⟨UInt64.le_refl _, [], (List.append_nil _).symm, fun _ h => absurd h List.not_mem_nil⟩
  | @advance successor previous event privateEvents present replaces =>
      have hLater : record.version < successor.snapshot.state.version := by
        rw [UInt64.lt_iff_toNat_lt, replaces.version, replaces.current]
        exact Nat.lt_succ_self _
      refine ⟨UInt64.le_of_lt hLater, successor.turnDeadline.toList, rfl, fun d hd => ?_⟩
      cases hSincere with
      | stay absent _ => exact absurd (absent.symm.trans present) (by simp)
      | @move _ _ g' _ _ _ other _ _ _ same _ snapshot deadline _ _ =>
          cases Option.some.inj (same.symm.trans present)
          rw [Option.mem_toList, deadline] at hd
          rw [(nextDeadline_eq_some.mp hd).2]
          rw [snapshot] at hLater
          exact hLater

theorem Sane.committed (h : Sane inst s) {commit : ActionCommit} (hSincere : Sincere inst s commit) :
    Sane inst (commitOr s (commitActionRecord s commit)).2 ∧
      Accrues s (commitOr s (commitActionRecord s commit)).2 := by
  cases hCommit : commitActionRecord s commit with
  | error e => exact ⟨h, .refl s⟩
  | ok t =>
      obtain ⟨record, next, hSane, hGrows, hTouches, hCommits⟩ := h.commit hSincere hCommit
      refine ⟨hSane, hGrows, fun gameId old new hOld hNew => ?_⟩
      by_cases hOther : gameId = commit.idempotency.gameId
      · subst hOther
        cases hTouches.before.symm.trans hOld
        cases hTouches.after.symm.trans hNew
        exact hCommits.dated hSincere
      · cases (hTouches.others gameId hOther).symm.trans hNew |>.symm.trans hOld
        exact .refl _

/-- The game of the current version, as a load should return it. -/
def Checkpointed (inst : Installation) (s : Store) (gameId : GameId) (stored : StoredGame) : Prop :=
  ∃ record past g, s.game gameId = some record ∧ Told inst record past g ∧
    stored = ⟨gameId, record.createdAt, record.updatedAt, g.snapshot inst.platform,
      nextDeadline inst.policy g record.updatedAt⟩

/-- The second query of a load sees the version of the first one, and the third one
its private events. -/
def Steady (gameId : GameId) : List Store → Prop
  | first :: second :: third :: _ =>
      (second.game gameId).map (·.version) = (first.game gameId).map (·.version) ∧
        (third.game gameId).map (·.privateEvents) = (first.game gameId).map (·.privateEvents)
  | _ => True

/-- The result of a load, by the stores its queries are put to. -/
inductive Answers (inst : Installation) (gameId : GameId) :
    List Store → Except RepositoryError StoredGame → Prop where
  | missing {a : Store} (absent : a.game gameId = none) : Answers inst gameId [a] (.error .notFound)
  | torn {a b c : Store} (moved : ¬ Steady gameId [a, b, c]) :
      Answers inst gameId [a, b, c] (.error .corrupt)
  | loaded {a b c d : Store} {stored : StoredGame} (steady : Steady gameId [a, b, c, d])
      (current : Checkpointed inst a gameId stored) : Answers inst gameId [a, b, c, d] (.ok stored)

/-- A game has one public event for each of its versions. -/
theorem Lineage.events_length {past : List Game} {g : Game} (l : Lineage inst gameId past g) :
    g.events.length = past.length + 1 := by
  induction l with
  | fresh _ created =>
      obtain ⟨_, -, -, rfl⟩ := createWithModeAndPlayers_eq_ok.mp created
      rfl
  | next prior move ih =>
      rw [move.recorded.2.1, List.length_append, List.length_append, ih]
      rfl

/-- Later stores hold the game, and hold its deadlines for the old version. -/
theorem Accrues.deadlineRow (h : Accrues s t) {record : GameRecord} {past : List Game} {g : Game}
    (hRecord : s.game gameId = some record) (hTold : Told inst record past g) :
    Service.deadlineRow t gameId g.state.version = Service.deadlineRow s gameId g.state.version := by
  obtain ⟨new, hNew, -⟩ := h.grows.games gameId record hRecord
  obtain ⟨added, hAdded, hLater⟩ := (h.dated gameId record new hRecord hNew).deadlines
  rw [Service.deadlineRow, Service.deadlineRow, hNew, hRecord, Option.bind_some, Option.bind_some,
    hAdded, List.find?_append]
  have hNone : added.find? (fun deadline => deadline.turn = g.state.version) = none := by
    refine List.find?_eq_none.mpr fun d hd hSame => ?_
    have hLess := hLater d hd
    rw [of_decide_eq_true hSame, hTold.version] at hLess
    exact UInt64.lt_irrefl _ hLess
  rw [hNone, Option.or_none]

/-- The events of a load agree with its snapshot exactly when its queries are steady. -/
theorem compareEvents_eq_ok {b c : Store} {record : GameRecord} {past : List Game} {g : Game}
    (hSaneB : Sane inst b) (hSaneC : Sane inst c) (hB : Accrues s b) (hC : Accrues b c)
    (hRecord : s.game gameId = some record) (hTold : Told inst record past g) (u : Unit) :
    compareEvents (g.snapshot inst.platform) (loadPublicEvents b gameId)
      (loadPrivateEvents c gameId) = .ok u ↔ Steady gameId [s, b, c] := by
  have hVisited := hTold.visited hRecord
  obtain ⟨recordB, hRecordB, -⟩ := hB.grows.games gameId record hRecord
  obtain ⟨recordC, hRecordC, -⟩ := (hB.trans hC).grows.games gameId record hRecord
  obtain ⟨pastB, gB, hToldB, hShelvedB⟩ := hSaneB.told gameId recordB hRecordB
  obtain ⟨pastC, gC, hToldC, hShelvedC⟩ := hSaneC.told gameId recordC hRecordC
  obtain ⟨-, -, -, -, -, -, hPublic, -, -⟩ := hToldB.checkpoint hShelvedB hRecordB
  obtain ⟨-, -, -, -, -, -, -, hPrivate, -⟩ := hToldC.checkpoint hShelvedC hRecordC
  have hVersions : gB.events = g.events ↔ recordB.version = record.version := by
    rw [hToldB.version, hTold.version]
    constructor
    · intro hSame
      have hLength := congrArg List.length hSame
      rw [hToldB.lineage.events_length, hTold.lineage.events_length] at hLength
      rw [← UInt64.toNat_inj, hToldB.lineage.version, hTold.lineage.version]
      exact Nat.succ_injective hLength
    · intro hSame
      rw [(hVisited.later hB.grows).current hRecordB hToldB hSame.symm]
  rw [compareEvents, reject_eq_ok, not_or, not_not, not_not, hPublic, hPrivate, Steady, hRecord,
    hRecordB, hRecordC]
  simp only [Option.map_some, Option.some.injEq]
  rw [hToldC.privateEvents, hTold.privateEvents]
  exact and_congr_left fun _ => hVersions

/-! The promise of a load. -/

def Sincerely (inst : Installation) (event : Event Store Unit Statement Statement.Response) : Prop :=
  ∀ commit, event.request = .commitAction commit → Sincere inst event.before commit

def loadPromise (inst : Installation) (gameId : GameId) :
    Promise Store Unit Statement Statement.Response (Except RepositoryError StoredGame) where
  own event u := u = event.before
  may _ event := Sincerely inst event
  post result log _ := Answers inst gameId (log.map (·.before)) result

theorem query_meets {α : Type} {p : Promise Store Unit Statement Statement.Response (Except RepositoryError α)}
    {statement : Statement} {f : statement.Response → Method α}
    {log : List (Event Store Unit Statement Statement.Response)} (hOwn : ∀ event, p.own event event.before)
    (hReads : ∀ u, (execute u statement).2 = u)
    (h : ∀ u log', Accrues s u → Sane inst u → log'.map (·.before) = log.map (·.before) ++ [u] →
      Meets database (databaseDiscipline inst) p (f (execute u statement).1).run log' u) :
    Meets database (databaseDiscipline inst) p (query statement >>= f).run log s :=
  Meets.read (fun _ _ => hOwn _) (fun _ u => hReads u) fun u hGrows hSane _ _ =>
    h u _ hGrows hSane (by rw [List.map_append]; rfl)

theorem loadStatements_meets (inst : Installation) (gameId : GameId) (s : Store) :
    Meets database (databaseDiscipline inst) (loadPromise inst gameId)
      (loadStatements inst.platform gameId).run [] s := by
  refine query_meets (fun _ => rfl) (fun _ => rfl) fun a logA _ hSane hLogA => ?_
  change Meets _ _ _ (check (okOr (checkpointRow a gameId) .notFound) >>= _).run logA a
  cases hRecord : a.game gameId with
  | none =>
      have hFound : checkpointRow a gameId = none := by
        rw [checkpointRow, hRecord]
        rfl
      rw [hFound]
      intro u _ _
      change Answers inst gameId (logA.map _) (.error .notFound)
      rw [hLogA]
      exact .missing hRecord
  | some record =>
      obtain ⟨past, g, hTold, hShelved⟩ := hSane.told gameId record hRecord
      obtain ⟨row, hFound, hSnapshot, hVersion, hCreated, hUpdated, -, -, hDeadline⟩ :=
        hTold.checkpoint hShelved hRecord
      rw [hFound]
      change Meets _ _ _ (check (row.snapshot inst.platform gameId) >>= _).run logA a
      rw [hSnapshot]
      refine query_meets (fun _ => rfl) (fun _ => rfl) fun b logB hB hSaneB hLogB => ?_
      refine query_meets (fun _ => rfl) (fun _ => rfl) fun c logC hC hSaneC hLogC => ?_
      change Meets _ _ _ (check (compareEvents (g.snapshot inst.platform) (loadPublicEvents b gameId)
        (loadPrivateEvents c gameId)) >>= _).run logC c
      have hCompare := compareEvents_eq_ok hSaneB hSaneC hB hC hRecord hTold
      rw [hLogB, hLogA] at hLogC
      by_cases hSteady : Steady gameId [a, b, c]
      · rw [(hCompare ()).mpr hSteady]
        change Meets _ _ _ (check (ensureI64 row.version) >>= _).run logC c
        have hWord : ensureI64 row.version = .ok () := by
          have hBound := hTold.lineage.reachable.version_le_builtin
          rw [ensureI64_eq_ok, hVersion]
          omega
        rw [hWord]
        refine query_meets (fun _ => rfl) (fun _ => rfl) fun d logD hD _ hLogD => ?_
        change Meets _ _ _ (check (loadedDeadline (deadlineRow d gameId row.version)) >>= _).run logD d
        rw [hVersion, ((hB.trans hC).trans hD).deadlineRow hRecord hTold, hDeadline]
        intro u _ _
        change Answers inst gameId (logD.map _) (.ok _)
        rw [hLogD, hLogC]
        exact .loaded hSteady ⟨record, past, g, hRecord, hTold, by rw [hCreated, hUpdated]⟩
      · cases hFails : compareEvents (g.snapshot inst.platform) (loadPublicEvents b gameId)
          (loadPrivateEvents c gameId) with
        | ok u => exact absurd ((hCompare u).mp hFails) hSteady
        | error e =>
            obtain ⟨-, rfl⟩ := reject_eq_error.mp hFails
            intro u _ _
            change Answers inst gameId (logC.map _) (.error .corrupt)
            rw [hLogC]
            exact .torn hSteady

end

/-! Any number of loads and commits, in any order. -/

inductive StorageCall where
  | load (gameId : GameId)
  | commit (commit : ActionCommit)

inductive StorageReply where
  | loaded (result : Except RepositoryError StoredGame)
  | committed (result : Except RepositoryError Unit)

def answerLoad (method : Method StoredGame) : Program Statement Statement.Response StorageReply :=
  method.run >>= fun result => .done (.loaded result)

def serveStorage (platform : Platform) :
    StorageCall → Program Statement Statement.Response StorageReply
  | .load gameId => answerLoad (loadStatements platform gameId)
  | .commit commit => .query (.commitAction commit) fun result => .done (.committed result)

abbrev StoragePool := Pool Store Unit Statement Statement.Response StorageCall StorageReply

abbrev StorageAction := Pool.Action Unit StorageCall

def storage (platform : Platform) : Machine StoragePool StorageAction Unit :=
  Pool.machine database (serveStorage platform)

/-- A commit that is executed has its successor from the engine. -/
def Produced (inst : Installation) (pool : StoragePool) : StorageAction → Prop
  | .start _ => True
  | .advance i _ => ∀ call log commit next,
      pool.threads[i]? = some ⟨call, log, .query (.commitAction commit) next⟩ →
      Sincere inst pool.store commit

section

variable {inst : Installation} {s t : Store} {gameId : GameId}

def storagePromise (inst : Installation) :
    StorageCall → Promise Store Unit Statement Statement.Response StorageReply
  | .load gameId => (loadPromise inst gameId).ending fun reply log _ => ∃ result,
      reply = .loaded result ∧ Answers inst gameId (log.map (·.before)) result ∧
        ∀ event ∈ log, (execute event.before event.request).2 = event.before
  | .commit _ => ⟨fun _ _ => True, fun _ event => Sincerely inst event, fun _ _ _ => True⟩

theorem serveStorage_meets (inst : Installation) (call : StorageCall) {s : Store}
    (hSane : Sane inst s) : Meets database (databaseDiscipline inst) (storagePromise inst call)
      (serveStorage inst.platform call) [] s := by
  cases call with
  | load gameId =>
      have hLoad := (loadStatements_meets inst gameId s).recorded fun _ h => absurd h List.not_mem_nil
      refine Meets.bind hSane (hLoad.weaken fun result log t _ hDone => ?_)
      exact fun _ _ _ => ⟨result, rfl, hDone.1, fun event hEvent => (hDone.2 event hEvent).own⟩
  | commit commit =>
      intro t _ ht input hMay
      obtain ⟨hKept, hAccrues⟩ := ht.committed (hMay commit rfl)
      exact ⟨hKept, hAccrues, trivial, fun _ _ _ => trivial⟩

theorem Produced.permits {pool : StoragePool} {action : StorageAction}
    (h : Produced inst pool action) :
    Pool.Permits database (fun _ => True) (fun _ => storagePromise inst) pool action := by
  cases action with
  | start call => trivial
  | advance i input =>
      intro call log request next hThread
      suffices hSincere : Sincerely inst ⟨pool.store, input, request,
          (database.perform input pool.store request).1⟩ by
        cases call <;> exact hSincere
      rintro commit ⟨rfl⟩
      exact h call log commit next hThread

/-- The database and its threads after a run of produced commits and loads. -/
theorem storage_sound (hSane : Sane inst s) {actions : List StorageAction}
    (hProduced : (storage inst.platform).Conform (Produced inst) ⟨s, []⟩ actions) :
    Pool.Sound database (databaseDiscipline inst) (fun _ => storagePromise inst) s
      ((storage inst.platform).after ⟨s, []⟩ actions) := by
  have hStart : Pool.Sound database (databaseDiscipline inst) (fun _ => storagePromise inst) s
      (⟨s, []⟩ : StoragePool) := ⟨hSane, .refl s, fun _ _ _ _ h => absurd h (by simp)⟩
  refine (storage inst.platform).after_conform (fun pool action hStep hSound => ?_) hStart hProduced
  exact Pool.Sound.step (fun _ call _ _ _ hInv => serveStorage_meets inst call hInv) hSound
    hStep.permits

/-- A thread is between its first and its last query. -/
def Amid (i : Nat) (log : List (Event Store Unit Statement Statement.Response))
    (pool : StoragePool) : Prop :=
  ∃ call seen rest, pool.threads[i]? = some ⟨call, seen, rest⟩ ∧ seen ≠ [] ∧
    seen.length < log.length

/-- A load returns the game as it was at some moment between its queries. -/
def ReturnsSnapshot (inst : Installation) (s : Store) (actions : List StorageAction) (i : Nat)
    (log : List (Event Store Unit Statement Statement.Response)) (gameId : GameId)
    (result : Except RepositoryError StoredGame) : Prop :=
  ∃ front back stored, actions = front ++ back ∧
    Amid i log ((storage inst.platform).after ⟨s, []⟩ front) ∧
    Checkpointed inst ((storage inst.platform).after ⟨s, []⟩ front).store gameId stored ∧
    result = .ok stored

/-- In any run of loads and produced commits, a load returns the game of a moment between
its queries exactly when its queries are steady; any other load reports corruption. -/
theorem load_returns_snapshot_iff (inst : Installation) (history : List ServiceAction)
    (gameId : GameId)
    (hGame : (((service inst).after .empty history).store.game gameId).isSome = true)
    (actions : List StorageAction)
    (hProduced : (storage inst.platform).Conform (Produced inst)
      ⟨((service inst).after .empty history).store, []⟩ actions)
    (i : Nat) (log : List (Event Store Unit Statement Statement.Response))
    (result : Except RepositoryError StoredGame)
    (hDone : ((storage inst.platform).after
      ⟨((service inst).after .empty history).store, []⟩ actions).threads[i]? =
        some ⟨.load gameId, log, .done (.loaded result)⟩) :
    (ReturnsSnapshot inst ((service inst).after .empty history).store actions i log gameId result ↔
      Steady gameId (log.map (·.before))) ∧
    (¬ Steady gameId (log.map (·.before)) → result = .error .corrupt) := by
  have hSane : Sane inst ((service inst).after .empty history).store :=
    ((ServicePool.sound_empty inst).after history).inv
  generalize ((service inst).after .empty history).store = s at *
  obtain ⟨_, hResult, hAnswers, hReads⟩ := (storage_sound hSane hProduced).finished hDone
  cases hResult
  have hTurn : ∀ {event later}, log = event :: later → ∃ front back next,
      actions = front ++ .advance i event.input :: back ∧
        event.before = ((storage inst.platform).after ⟨s, []⟩ front).store ∧
        event.Performed database ∧ ((storage inst.platform).after ⟨s, []⟩ front).threads[i]? =
          some ⟨.load gameId, [], .query event.request next⟩ := fun hLog =>
    Pool.exists_turn (by simp) (hLog ▸ hDone)
  generalize hStores : log.map (·.before) = stores at hAnswers
  cases hAnswers with
  | @missing a absent =>
      obtain ⟨event, later, hLog, hEvent, -⟩ := List.map_eq_cons_iff.mp hStores
      obtain ⟨front, back, next, rfl, hStore, -, -⟩ := hTurn hLog
      have hGrown := (storage_sound hSane
        (((storage inst.platform).conform_append _ front _).mp hProduced).1).grows.grows
      obtain ⟨record, hRecord⟩ := Option.isSome_iff_exists.mp hGame
      obtain ⟨new, hNew, -⟩ := hGrown.games gameId record hRecord
      change ((storage inst.platform).after _ front).store.game gameId = _ at hNew
      have hSame : event.before = ((storage inst.platform).after ⟨s, []⟩ front).store := hStore
      rw [← hSame, hEvent, absent] at hNew
      cases hNew
  | torn moved => exact ⟨iff_of_false (fun ⟨_, _, _, _, _, _, hOk⟩ => by cases hOk) moved, fun _ => rfl⟩
  | @loaded a b c d stored steady current =>
      refine ⟨iff_of_true ?_ steady, fun hMoved => absurd steady hMoved⟩
      obtain ⟨event, later, hLog, hEvent, hLater⟩ := List.map_eq_cons_iff.mp hStores
      obtain ⟨front, back, next, hActions, hStore, -, hThread⟩ := hTurn hLog
      have hStep : ((storage inst.platform).after ⟨s, []⟩ (front ++ [.advance i event.input])).store =
          a := by
        rw [Machine.after_append]
        change (Pool.step database (serveStorage inst.platform)
          ((storage inst.platform).after ⟨s, []⟩ front) (.advance i event.input)).store = a
        have hSame : (execute event.before event.request).2 = event.before :=
          hReads event (hLog ▸ List.mem_cons_self)
        simp only [Pool.step, hThread]
        rw [← hEvent, ← hSame, hStore]
        rfl
      refine ⟨front ++ [.advance i event.input], back, stored, by rw [hActions]; simp, ?_,
        hStep.symm ▸ current, rfl⟩
      have hOwn := Pool.step_own database (serveStorage inst.platform) hThread event.input
      refine ⟨_, _, _, by rw [Machine.after_append]; exact hOwn, by simp, ?_⟩
      have hLength := congrArg List.length hStores
      rw [List.length_map] at hLength
      rw [hLength]
      exact (by decide : 1 < 4)

end

/-! One load and one move at a concrete table. -/

/-- A run of loads and produced commits from one pool to another. -/
def Leads (inst : Installation) (pool : StoragePool) (actions : List StorageAction)
    (reached : StoragePool) : Prop :=
  (storage inst.platform).Conform (Produced inst) pool actions ∧
    (storage inst.platform).after pool actions = reached

section

variable {inst : Installation} {s t : Store} {gameId : GameId} {row : CheckpointRow}
  {snapshot : GameSnapshot} {log : List (Event Store Unit Statement Statement.Response)}

theorem Leads.append {pool middle reached : StoragePool} {first second : List StorageAction}
    (left : Leads inst pool first middle) (right : Leads inst middle second reached) :
    Leads inst pool (first ++ second) reached := by
  obtain ⟨hFirst, rfl⟩ := left
  obtain ⟨hSecond, rfl⟩ := right
  exact ⟨((storage inst.platform).conform_append _ _ _).mpr ⟨hFirst, hSecond⟩,
    (storage inst.platform).after_append _ _ _⟩

def Statement.reads : Statement → Bool
  | .commitAction _ => false
  | _ => true

/-- A thread that reads executes no commit. -/
theorem produced_read {pool : StoragePool} {call : StorageCall} {statement : Statement}
    {next : statement.Response → Program Statement Statement.Response StorageReply} {i : Nat}
    (hThread : pool.threads[i]? = some ⟨call, log, .query statement next⟩)
    (hReads : statement.reads = true) : Produced inst pool (.advance i ()) := by
  intro other log' commit next' hOther
  cases hThread.symm.trans hOther
  cases hReads

/-- A load finds its row. -/
theorem leads_row (hFound : checkpointRow s gameId = some row)
    (hSnapshot : row.snapshot inst.platform gameId = .ok snapshot) :
    Leads inst ⟨s, []⟩ [.start (.load gameId), .advance 0 ()]
      ⟨s, [⟨.load gameId, [⟨s, (), .checkpoint gameId, checkpointRow s gameId⟩],
        answerLoad (loadWithEvents gameId row snapshot)⟩]⟩ := by
  refine ⟨⟨trivial, produced_read rfl rfl, trivial⟩, ?_⟩
  have hRest : answerLoad (loadWithEvents gameId row snapshot) =
      answerLoad (check (okOr (checkpointRow s gameId) .notFound) >>= fun row =>
        check (row.snapshot inst.platform gameId) >>= loadWithEvents gameId row) := by
    rw [hFound]
    change _ = answerLoad (check (row.snapshot inst.platform gameId) >>= _)
    rw [hSnapshot]
    rfl
  rw [hRest]
  rfl

/-- A commit comes at once. -/
theorem leads_commit {commit : ActionCommit}
    {thread : Thread Store Unit Statement Statement.Response StorageCall StorageReply}
    (hSincere : Sincere inst s commit) (hCommit : commitActionRecord s commit = .ok t) :
    ∃ other, Leads inst ⟨s, [thread]⟩ [.start (.commit commit), .advance 1 ()]
      ⟨t, [thread, other]⟩ := by
  have hStore : (commitOr s (commitActionRecord s commit)).2 = t := by
    rw [hCommit]
    rfl
  refine ⟨⟨.commit commit, [⟨s, (), .commitAction commit,
    (commitOr s (commitActionRecord s commit)).1⟩],
    .done (.committed (commitOr s (commitActionRecord s commit)).1)⟩, ⟨trivial, ?_, trivial⟩, ?_⟩
  · intro call log other next hThread
    cases hThread
    exact hSincere
  · rw [← hStore]
    rfl

/-- A load reads the events. -/
theorem leads_events
    {others : List (Thread Store Unit Statement Statement.Response StorageCall StorageReply)} :
    Leads inst ⟨t, ⟨.load gameId, log, answerLoad (loadWithEvents gameId row snapshot)⟩ :: others⟩
      [.advance 0 (), .advance 0 ()]
      ⟨t, ⟨.load gameId, log ++ [⟨t, (), .publicEvents gameId, loadPublicEvents t gameId⟩] ++
          [⟨t, (), .privateEvents gameId, loadPrivateEvents t gameId⟩],
        answerLoad (check (compareEvents snapshot (loadPublicEvents t gameId)
          (loadPrivateEvents t gameId)) >>= fun _ => loadWithDeadline gameId row snapshot)⟩ ::
        others⟩ :=
  ⟨⟨produced_read rfl rfl, produced_read rfl rfl, trivial⟩, rfl⟩

/-- A load reads the deadline. -/
theorem leads_deadline {turnDeadline : Option TurnDeadline} (hWord : ensureI64 row.version = .ok ())
    (hDeadline : loadedDeadline (deadlineRow s gameId row.version) = .ok turnDeadline) :
    Leads inst ⟨s, [⟨.load gameId, log, answerLoad (loadWithDeadline gameId row snapshot)⟩]⟩
      [.advance 0 ()]
      ⟨s, [⟨.load gameId, log ++ [⟨s, (), .deadline gameId row.version,
          deadlineRow s gameId row.version⟩], .done (.loaded (.ok
        ⟨gameId, row.createdAt, row.updatedAt, snapshot, turnDeadline⟩))⟩]⟩ := by
  rw [loadWithDeadline, hWord]
  refine ⟨⟨produced_read rfl rfl, trivial⟩, ?_⟩
  change (⟨s, [⟨.load gameId, _, answerLoad (check (loadedDeadline
    (deadlineRow s gameId row.version)) >>= _)⟩]⟩ : StoragePool) = _
  rw [hDeadline]
  rfl

end

/-- The load of a fresh table, with nobody else there. -/
theorem table_loads : ∃ history actions log result,
    ((storage hookInstallation.platform).after
      ⟨((service hookInstallation).after .empty history).store, []⟩ actions).threads[0]? =
        some ⟨.load hookId, log, .done (.loaded result)⟩ ∧
    ReturnsSnapshot hookInstallation ((service hookInstallation).after .empty history).store actions 0
      log hookId result := by
  obtain ⟨history, s, record, g, hOpened⟩ := exists_opened 0 (by decide)
  have hStore : ((service hookInstallation).after .empty history).store = s := by
    obtain ⟨created, log, hReached⟩ := hOpened.reached
    rw [hReached]
  obtain ⟨row, hFound, hSnapshot, hVersion, -, -, -, -, hDeadline⟩ :=
    hOpened.told.checkpoint (hOpened.sane.shelved hOpened.stored hOpened.told) hOpened.stored
  have hAgree := (compareEvents_eq_ok hOpened.sane hOpened.sane (.refl s) (.refl s) hOpened.stored
    hOpened.told ()).mpr ⟨rfl, rfl⟩
  have hWord : ensureI64 row.version = .ok () := by
    rw [hVersion, hOpened.version]
    rfl
  have hEvents := @leads_events hookInstallation s hookId row
    (g.snapshot hookInstallation.platform) [⟨s, (), .checkpoint hookId, checkpointRow s hookId⟩] []
  rw [hAgree] at hEvents
  have hRun := ((leads_row hFound hSnapshot).append hEvents).append
    (leads_deadline hWord (hVersion.symm ▸ hDeadline))
  rw [← hStore] at hRun
  have hDone := congrArg (·.threads[0]?) hRun.2
  refine ⟨history, _, _, _, hDone, ?_⟩
  refine (load_returns_snapshot_iff hookInstallation history hookId ?_ _ hRun.1 0 _ _ hDone).1.mpr
    ⟨rfl, rfl⟩
  rw [hStore, hOpened.stored]
  rfl

/-- A move between the first two queries of a load makes it report corruption. -/
theorem overtaken_load_is_corrupt : ¬ ∀ (inst : Installation) (history : List ServiceAction)
    (gameId : GameId) (actions : List StorageAction) (i : Nat)
    (log : List (Event Store Unit Statement Statement.Response))
    (result : Except RepositoryError StoredGame),
    (((service inst).after .empty history).store.game gameId).isSome = true →
    (storage inst.platform).Conform (Produced inst)
      ⟨((service inst).after .empty history).store, []⟩ actions →
    ((storage inst.platform).after
      ⟨((service inst).after .empty history).store, []⟩ actions).threads[i]? =
        some ⟨.load gameId, log, .done (.loaded result)⟩ →
    ReturnsSnapshot inst ((service inst).after .empty history).store actions i log gameId result := by
  intro hClaim
  obtain ⟨history, s, record, g, hOpened⟩ := exists_opened 0 (by decide)
  have hStore : ((service hookInstallation).after .empty history).store = s := by
    obtain ⟨created, log, hReached⟩ := hOpened.reached
    rw [hReached]
  have hShelved := hOpened.sane.shelved hOpened.stored hOpened.told
  obtain ⟨row, hFound, hSnapshot, -⟩ := hOpened.told.checkpoint hShelved hOpened.stored
  obtain ⟨g', event, hMove, -, hVersion, -⟩ := hOpened.pass
  generalize hId : (hookPass ⟨"pass", by decide⟩).identity basicPlatform = id
  have hGameId : id.gameId = hookId := by rw [← hId]; rfl
  generalize hStored : (⟨hookId, record.createdAt, record.updatedAt,
    g.snapshot hookInstallation.platform, none⟩ : StoredGame) = stored
  have hBasis : Basis hookInstallation s id.gameId stored [] g := by
    rw [hGameId, ← hStored]
    exact ⟨hOpened.told.visited hOpened.stored, rfl, rfl⟩
  have hTime : record.createdAt ≤ 0 := Int.le_of_eq hOpened.times.1
  obtain ⟨t, hCommit⟩ := hOpened.told.commit_move (hGameId ▸ hOpened.stored)
    (hId ▸ GameActionCommand.identity_valid _ _)
    (by rw [GameRecord.cached, hOpened.idempotency]; rfl) hBasis.gameId (by rw [← hStored]) hTime hMove
  have hSincere := hBasis.accepted hMove (by decide : (0 : Int) < 2 ^ 63)
  obtain ⟨record', next, hSane, -, hTouches, hCommits⟩ := hOpened.sane.commit hSincere hCommit
  have hAccrues := (hOpened.sane.committed hSincere).2
  rw [hCommit] at hAccrues
  change Accrues s t at hAccrues
  have hAfter : t.game hookId = some next := hGameId ▸ (show t.game id.gameId = _ from hTouches.after)
  have hLater : next.version = g'.state.version := by
    obtain ⟨progress, -, -⟩ := hCommits
    cases progress with
    | stay absent => cases absent
    | advance present _ =>
        cases present
        rfl
  have hMoved : ¬ Steady hookId [s, t, t] := by
    intro hSteady
    have hSame := hSteady.1
    rw [hOpened.stored, hAfter, Option.map_some, Option.map_some,
      Option.some.injEq, hLater, hVersion, hOpened.told.version, hOpened.version] at hSame
    exact absurd hSame (by decide)
  cases hCompare : compareEvents (g.snapshot hookInstallation.platform) (loadPublicEvents t hookId)
    (loadPrivateEvents t hookId) with
  | ok u => exact hMoved ((compareEvents_eq_ok hSane hSane hAccrues (.refl t) hOpened.stored
      hOpened.told u).mp hCompare)
  | error e =>
      have hRow : Leads hookInstallation ⟨s, []⟩ _ ⟨s, [_]⟩ := leads_row hFound hSnapshot
      obtain ⟨other, hCommits⟩ : ∃ other, Leads hookInstallation ⟨s, [⟨.load hookId,
          [⟨s, (), .checkpoint hookId, checkpointRow s hookId⟩],
          answerLoad (loadWithEvents hookId row (g.snapshot hookInstallation.platform))⟩]⟩ _
          ⟨t, [_, other]⟩ := leads_commit hSincere hCommit
      have hEvents := @leads_events hookInstallation t hookId row
        (g.snapshot hookInstallation.platform)
        [⟨s, (), .checkpoint hookId, checkpointRow s hookId⟩] [other]
      rw [hCompare] at hEvents
      have hRun := (hRow.append hCommits).append hEvents
      rw [← hStore] at hRun
      obtain ⟨_, _, _, _, _, _, hOk⟩ := hClaim hookInstallation history hookId _ 0 _ _
        (by rw [hStore, hOpened.stored]; rfl) hRun.1 (congrArg (·.threads[0]?) hRun.2)
      cases hOk

end WordArena.Service
