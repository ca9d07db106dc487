import WordArena.Engine.Resume
import WordArena.Engine.Termination
import WordArena.Service.Transition

/-! Stored games as histories of the engine. The checkpoints of a game are the
games one creation and single accepted moves lead through, and every other row
of the game can be read off that history. -/
namespace WordArena.Service

open Fallible WordArena.Engine WordArena.Lexicon WordArena.Application

/-- A game with every game before it, the creation first. -/
inductive Lineage (inst : Installation) (gameId : GameId) : List Game → Game → Prop where
  | fresh {ruleset : Ruleset} {validator : WordValidator} {seed : GameSeed} {mode : GameMode}
      {playerCount : Nat} {g : Game} (pinned : inst.lexicons ruleset.lexicon = some validator)
      (created : Game.createWithModeAndPlayers inst.platform gameId.asStr ruleset (some validator)
        seed mode playerCount = .ok g) : Lineage inst gameId [] g
  | next {past : List Game} {g g' : Game} {player : Player} {action : Move} {event : GameEvent}
      (prior : Lineage inst gameId past g)
      (move : Accepted inst.platform g player action g' event) :
      Lineage inst gameId (past ++ [g]) g'

namespace Lineage

variable {inst : Installation} {gameId : GameId} {past before : List Game} {g h : Game}

theorem reachable (l : Lineage inst gameId past g) : Reachable inst.platform g := by
  induction l with
  | fresh _ created => exact .initial ⟨_, _, _, _, _, _, created⟩
  | next _ move ih => exact ih.accept move

theorem version (l : Lineage inst gameId past g) : g.state.version.toNat = past.length := by
  induction l with
  | fresh _ created =>
      obtain ⟨d, -, -, rfl⟩ := createWithModeAndPlayers_eq_ok.mp created
      rfl
  | next _ move ih => rw [move.version, ih, List.length_append, List.length_singleton]

theorem named (l : Lineage inst gameId past g) : g.state.gameId = gameId.asStr := by
  induction l with
  | fresh _ created =>
      obtain ⟨d, -, -, rfl⟩ := createWithModeAndPlayers_eq_ok.mp created
      rfl
  | next _ move ih =>
      obtain ⟨c, hValid, rfl, -⟩ := move.commit
      change c.final.gameId = _
      rw [hValid.final_frame, hValid.frame]
      exact ih

theorem pinned (l : Lineage inst gameId past g) : inst.lexicons g.state.lexicon = some g.lexicon := by
  induction l with
  | fresh hPinned created =>
      obtain ⟨d, hValidator, hValid, rfl⟩ := createWithModeAndPlayers_eq_ok.mp created
      change inst.lexicons d.validator.identity = some d.validator
      rw [← hValid.lexicon, hPinned, hValidator]
  | next _ move ih =>
      rw [move.identity.2.1, ih]
      obtain ⟨c, -, rfl, -⟩ := move.commit
      rfl

/-- Every earlier game has its own history, an initial part of this one. -/
theorem earlier (l : Lineage inst gameId past g) (hPrefix : before ++ [h] <+: past ++ [g]) :
    Lineage inst gameId before h := by
  induction l with
  | fresh hPinned created =>
      have hShort : before = [] := by
        have hLength := hPrefix.length_le
        rw [List.length_append, List.length_singleton] at hLength
        exact List.length_eq_zero_iff.mp (by simpa using hLength)
      subst hShort
      obtain rfl := by simpa using hPrefix
      exact .fresh hPinned created
  | next prior move ih =>
      rcases List.prefix_concat_iff.mp hPrefix with hSame | hEarlier
      · obtain ⟨rfl, hLast⟩ := List.append_inj' hSame rfl
        cases hLast
        exact .next prior move
      · exact ih hEarlier

/-- Resuming the stored checkpoint of a game gives that game. -/
theorem resume (l : Lineage inst gameId past g) {record : StoredGame}
    (hSnapshot : record.snapshot = g.snapshot inst.platform) :
    resumeRecord inst record = .ok g := by
  have hReachable := l.reachable
  have hRuleset : g.ruleset = Ruleset.builtin g.state.rulesetId := by
    rw [hReachable.identified.rulesetId]
    exact hReachable.shape.builtin
  refine bind_eq_ok.mpr ⟨g.lexicon, ?_, ?_⟩
  · rw [okOr_eq_ok, hSnapshot]
    exact l.pinned
  · rw [mapErr_eq_ok, hSnapshot]
    change Game.resume inst.platform _ (Ruleset.builtin g.state.rulesetId) _ = _
    rw [← hRuleset]
    exact hReachable.resume

/-- A checkpoint determines its game. -/
theorem unique {gameId' : GameId} {past' : List Game} {g' : Game} (l : Lineage inst gameId past g)
    (l' : Lineage inst gameId' past' g')
    (hSame : g.snapshot inst.platform = g'.snapshot inst.platform) : g = g' := by
  have hLeft := @resume _ _ _ _ l ⟨gameId, 0, 0, g.snapshot inst.platform, none⟩ rfl
  have hRight := @resume _ _ _ _ l' ⟨gameId, 0, 0, g.snapshot inst.platform, none⟩ hSame
  exact Except.ok.inj (hLeft.symm.trans hRight)

end Lineage

/-- A stored result is the response to one move of a history. -/
structure Reports (inst : Installation) (games : List Game) (result : PersistedActionResult) :
    Prop where
  move : ∃ past before after seat action, past ++ [before, after] <+: games ∧
    Accepted inst.platform before seat action after result.event ∧
    result.game = after.seatProjection seat ∧
    result.turnDeadline = nextDeadline inst.policy after result.committedAt

/-- The version an accepted outcome was stored for. -/
def IdempotencyRecord.acceptedVersion (row : IdempotencyRecord) : Option UInt64 :=
  match row.outcome with
  | .accepted result => some result.event.sequence
  | .rejected _ => none

/-- The rows of one game tell its history. -/
structure Told (inst : Installation) (record : GameRecord) (past : List Game) (g : Game) :
    Prop where
  lineage : Lineage inst record.gameId past g
  snapshots : record.snapshots = (past ++ [g]).map fun game => game.snapshot inst.platform
  version : record.version = g.state.version
  status : record.status = g.state.phase
  rules : record.rulesetId = g.state.rulesetId ∧
    record.rulesetSha256 = g.state.ruleset.contentSha256
  pack : record.lexiconPackId = g.state.lexicon.packId ∧
    record.lexiconPackVersion = g.state.lexicon.packVersion ∧
    record.lexiconContentSha256 = g.state.lexicon.contentSha256
  times : 0 ≤ record.createdAt ∧ record.createdAt ≤ record.updatedAt ∧ record.updatedAt < 2 ^ 63
  publicEvents : record.publicEvents = g.events
  privateEvents : record.privateEvents = g.privateEvents
  deadline : (record.deadlines.find? fun d => d.turn = g.state.version) =
    nextDeadline inst.policy g record.updatedAt
  deadlines : ∀ d ∈ record.deadlines, d.turn.toNat ≤ g.state.version.toNat
  replays : ∀ row ∈ record.replays, row.version.toNat ≤ g.state.version.toNat
  keys : (record.idempotency.map (·.keyDigest)).Nodup
  owned : ∀ row ∈ record.idempotency, row.gameId = record.gameId
  outcomes : ∀ row ∈ record.idempotency, ∀ result, row.outcome = .accepted result →
    Reports inst (past ++ [g]) result
  once : (record.idempotency.filterMap IdempotencyRecord.acceptedVersion).Nodup

/-- The rules and the dictionary of a game are registered. -/
structure Shelved (s : Store) (g : Game) : Prop where
  ruleset : ∃ row, s.ruleset g.state.rulesetId g.state.ruleset.contentSha256 = some row ∧
    row.definition = g.ruleset
  lexicon : ∃ row, s.lexicon g.state.lexicon.packId g.state.lexicon.packVersion
    g.state.lexicon.contentSha256 = some row ∧ row.identity = g.state.lexicon

/-- Stores that the service can leave behind. -/
structure Sane (inst : Installation) (s : Store) : Prop where
  ids : (s.games.map (·.gameId)).Nodup
  told : ∀ gameId record, s.game gameId = some record →
    ∃ past g, Told inst record past g ∧ Shelved s g
  creations : (s.creations.map (·.keyDigest)).Nodup

theorem Sane.empty (inst : Installation) : Sane inst .empty :=
  ⟨List.nodup_nil, fun _ _ h => absurd h (by simp [Store.game, Store.empty]), List.nodup_nil⟩

/-- What a game never loses. -/
structure Extends (old new : GameRecord) : Prop where
  createdAt : new.createdAt = old.createdAt
  snapshots : old.snapshots <+: new.snapshots
  idempotency : old.idempotency <+: new.idempotency
  attempts : ∀ turn seat, (old.attempt turn seat).isSome = true → (new.attempt turn seat).isSome = true

theorem Extends.refl (record : GameRecord) : Extends record record :=
  ⟨rfl, List.prefix_refl _, List.prefix_refl _, fun _ _ h => h⟩

theorem Extends.trans {a b c : GameRecord} (left : Extends a b) (right : Extends b c) :
    Extends a c :=
  ⟨right.createdAt.trans left.createdAt, left.snapshots.trans right.snapshots,
    left.idempotency.trans right.idempotency,
    fun turn seat h => right.attempts turn seat (left.attempts turn seat h)⟩

/-- What a store never loses. -/
structure Grows (s t : Store) : Prop where
  games : ∀ gameId old, s.game gameId = some old →
    ∃ new, t.game gameId = some new ∧ Extends old new
  creations : s.creations <+: t.creations

theorem Grows.refl (s : Store) : Grows s s :=
  ⟨fun _ old h => ⟨old, h, .refl old⟩, List.prefix_refl _⟩

theorem Grows.trans {s t r : Store} (left : Grows s t) (right : Grows t r) : Grows s r := by
  refine ⟨fun gameId old hOld => ?_, left.creations.trans right.creations⟩
  obtain ⟨middle, hMiddle, hFirst⟩ := left.games gameId old hOld
  obtain ⟨new, hNew, hSecond⟩ := right.games gameId middle hMiddle
  exact ⟨new, hNew, hFirst.trans hSecond⟩

/-- The discipline every call keeps. -/
def discipline (inst : Installation) : Discipline Store where
  inv := Sane inst
  grows := Grows
  refl := .refl
  trans := .trans

/-! What a call may remember of a game. -/

/-- A game that the stored history goes through. -/
structure Visited (inst : Installation) (s : Store) (gameId : GameId) (past : List Game)
    (g : Game) : Prop where
  lineage : Lineage inst gameId past g
  stored : ∃ record, s.game gameId = some record ∧
    (past ++ [g]).map (fun game => game.snapshot inst.platform) <+: record.snapshots

theorem Visited.later {inst : Installation} {s t : Store} {gameId : GameId} {past : List Game}
    {g : Game} (h : Visited inst s gameId past g) (hGrows : Grows s t) :
    Visited inst t gameId past g := by
  obtain ⟨record, hRecord, hPrefix⟩ := h.stored
  obtain ⟨new, hNew, hExtends⟩ := hGrows.games gameId record hRecord
  exact ⟨h.lineage, new, hNew, hPrefix.trans hExtends.snapshots⟩

theorem Told.visited {inst : Installation} {s : Store} {gameId : GameId} {record : GameRecord}
    {past : List Game} {g : Game} (h : Told inst record past g)
    (hRecord : s.game gameId = some record) : Visited inst s gameId past g := by
  refine ⟨game_gameId hRecord ▸ h.lineage, record, hRecord, ?_⟩
  exact h.snapshots ▸ List.prefix_refl _

/-- A visited game with the current version is the current game. -/
theorem Visited.current {inst : Installation} {s : Store} {gameId : GameId} {record : GameRecord}
    {past past' : List Game} {g g' : Game} (h : Visited inst s gameId past g)
    (hRecord : s.game gameId = some record) (hTold : Told inst record past' g')
    (hVersion : g.state.version = g'.state.version) : g = g' := by
  obtain ⟨row, hRow, hPrefix⟩ := h.stored
  rw [hRecord, Option.some.injEq] at hRow
  subst hRow
  have hLength : past.length = past'.length := by
    rw [← h.lineage.version, ← hTold.lineage.version, hVersion]
  rw [hTold.snapshots] at hPrefix
  have hSame := hPrefix.eq_of_length (by simp [hLength])
  rw [List.map_append, List.map_append] at hSame
  obtain ⟨-, hLast⟩ := List.append_inj' hSame rfl
  exact h.lineage.unique hTold.lineage (List.singleton_inj.mp hLast)

/-- What a call has to know to commit: either nothing moves and nothing is
accepted, or the successor follows a visited game by one accepted move. -/
inductive Sincere (inst : Installation) (s : Store) (commit : ActionCommit) : Prop where
  | stay (absent : commit.successor = none)
      (rejected : ∃ rejection, commit.idempotency.outcome = .rejected rejection)
  | move {past : List Game} {g g' : Game} {seat : Seat} {action : Move} {event : GameEvent}
      {next : StoredGame} (visited : Visited inst s commit.idempotency.gameId past g)
      (accepted : Accepted inst.platform g seat action g' event)
      (expected : commit.expectedVersion = g.state.version)
      (successor : commit.successor = some next)
      (gameId : next.gameId = commit.idempotency.gameId)
      (snapshot : next.snapshot = g'.snapshot inst.platform)
      (deadline : next.turnDeadline = nextDeadline inst.policy g' next.updatedAt)
      (word : next.updatedAt < 2 ^ 63)
      (outcome : ∀ result, commit.idempotency.outcome = .accepted result →
        result.event = event ∧ result.game = g'.seatProjection seat ∧
          result.turnDeadline = nextDeadline inst.policy g' result.committedAt)

theorem Sincere.later {inst : Installation} {s t : Store} {commit : ActionCommit}
    (h : Sincere inst s commit) (hGrows : Grows s t) : Sincere inst t commit := by
  cases h with
  | stay absent rejected => exact .stay absent rejected
  | move visited accepted expected successor gameId snapshot deadline word outcome =>
      exact .move (visited.later hGrows) accepted expected successor gameId snapshot deadline word
        outcome

end WordArena.Service
