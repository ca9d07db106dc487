import WordArena.Server.Runner
import WordArena.Service.Solo

/-! The service as the referee of a runner. Other calls go on between the requests of
the runner, and while its actions are under way. -/
namespace WordArena.Service

open Fallible WordArena.Engine WordArena.Lexicon WordArena.Application

/-! The public view of a game. -/

structure PublicGameView where
  observedAt : UnixMillis
  turnDeadline : Option TurnDeadline
  game : PublicProjection
deriving DecidableEq

def ensureGame (authority requested : GameId) : Except ApplicationError Unit :=
  reject (authority ≠ requested) (.wrongGameAuthority requested)

def validateRecord (record : StoredGame) (requested : GameId) : Except ApplicationError Unit :=
  reject (¬ (record.gameId = requested ∧ record.snapshot.state.gameId = requested.asStr))
    (.repository .corrupt)

def loadGameWithDeadline (inst : Installation) (gameId : GameId) :
    Task (Game × Option TurnDeadline) := do
  let record ← loadRecord inst gameId
  settle (validateRecord record gameId)
  let game ← settle (resumeRecord inst record)
  settle (.ok (game, record.turnDeadline))

def publicGame (inst : Installation) (credential : PublicViewerCredential) (gameId : GameId) :
    Task PublicGameView := do
  settle (ensureGame credential.gameId gameId)
  let (game, turnDeadline) ← loadGameWithDeadline inst gameId
  let observedAt : UnixMillis ← ask .now
  settle (.ok ⟨observedAt, turnDeadline, game.publicProjection⟩)

theorem Runs.ask_bind_bind {α β γ : Type} {inst : Installation} {inputs : Nat → Input} {s t : Store}
    {result : Except ApplicationError α} {request : Request} {k : request.Response → Task γ}
    {f : γ → Task β} {g : β → Task α}
    (h : Runs inst (fun n => inputs (n + 1)) ((k (perform inst (inputs 0) s request).1 >>= f) >>= g)
      (perform inst (inputs 0) s request).2 result t) :
    Runs inst inputs (((Service.ask request >>= k) >>= f) >>= g) s result t :=
  h

/-- A loaded game inside another use case. -/
theorem Runs.load_bind {α β : Type} {inst : Installation} {inputs : Nat → Input} {s t : Store}
    {result : Except ApplicationError α} {gameId : GameId} {record : GameRecord} {past : List Game}
    {g : Game} {k : StoredGame → Task β} {f : β → Task α} (hTold : Told inst record past g)
    (hShelved : Shelved s g) (hRecord : s.game gameId = some record)
    (h : Runs inst (fun n => inputs (n + 1)) (k ⟨gameId, record.createdAt, record.updatedAt,
      g.snapshot inst.platform, nextDeadline inst.policy g record.updatedAt⟩ >>= f) s result t) :
    Runs inst inputs ((loadRecord inst gameId >>= k) >>= f) s result t := by
  have hLoad : (perform inst (inputs 0) s (.load gameId)).1 = .ok _ :=
    hTold.load hShelved hRecord
  refine Runs.ask_bind_bind ?_
  rw [hLoad]
  exact h

/-- A stored game is shown as it is. -/
theorem Runs.publicGame {inst : Installation} {inputs : Nat → Input} {s : Store} {gameId : GameId}
    {record : GameRecord} {past : List Game} {g : Game} (hTold : Told inst record past g)
    (hShelved : Shelved s g) (hRecord : s.game gameId = some record) :
    Runs inst inputs (publicGame inst ⟨gameId⟩ gameId) s
      (.ok ⟨(inputs 1).clock.toInt, nextDeadline inst.policy g record.updatedAt,
        g.publicProjection⟩) s := by
  have hEnsured : ensureGame gameId gameId = .ok () := reject_eq_ok.mpr (not_not.mpr rfl)
  have hValid : validateRecord ⟨gameId, record.createdAt, record.updatedAt, g.snapshot inst.platform,
      nextDeadline inst.policy g record.updatedAt⟩ gameId = .ok () :=
    reject_eq_ok.mpr (not_not.mpr ⟨rfl,
      hTold.lineage.named.trans (congrArg GameId.asStr (game_gameId hRecord))⟩)
  unfold Service.publicGame
  rw [hEnsured]
  refine Runs.value (Runs.load_bind hTold hShelved hRecord ?_)
  rw [hValid, hTold.lineage.resume rfl]
  exact Runs.ask Runs.settle

end WordArena.Service

namespace WordArena.Engine

section

variable {platform : Platform} {g g' : Game} {player : Player} {event : GameEvent}

/-- A resignation is recorded with its seat and ends the game, which somebody else wins
if anybody does. -/
structure GivenUp (player : Player) (event : GameEvent) (state : PublicGameState) : Prop where
  finished : state.phase = .finished
  recorded : ∃ result, event.kind = .resigned player result ∧ state.result = some result ∧
    result.winner ≠ some player

theorem winnerOf_resignation {active : List Seat} {playerCount : Nat} {scores : List Score}
    {resigned : Seat} (hActive : Seat.active playerCount = some active)
    (hLength : scores.length = playerCount) (hResigned : resigned.index < playerCount) :
    winnerOf active (.resignation resigned) scores ≠ some resigned := by
  intro hWinner
  by_cases hTwo : playerCount = 2
  · subst hTwo
    exact ((winnerOf_two hActive hResigned).mp hWinner).2 rfl
  · exact ((winnerOf_strict hActive hLength (fun h => absurd h hTwo)).mp hWinner).1.2 rfl

theorem Accepted.givenUp (h : Accepted platform g player .resign g' event) (hShape : Shape g) :
    GivenUp player event g'.state := by
  cases h with
  | resign d valid =>
      obtain ⟨active, scores, hActive, hScores, hResult, hFinal⟩ :=
        completeState_eq_ok.mp valid.completed
      have hLength : scores.length = g.racks.length := by
        have hSame := valid.commit.final_scores_length hShape
        rw [hShape.scores] at hSame
        change d.final.scores.length = _ at hSame
        rw [hFinal] at hSame
        exact hSame
      refine ⟨?_, d.result, rfl, ?_, ?_⟩
      · change d.final.phase = .finished
        rw [hFinal]
      · change d.final.result = _
        rw [hFinal]
      · rw [hResult]
        exact winnerOf_resignation hActive hLength (valid.turn ▸ hShape.turn)

end

end WordArena.Engine

namespace WordArena.Server

open Fallible WordArena.Engine WordArena.Application WordArena.Service

/-! Calls of a runner. -/

/-- What the outside adds to one request of a runner: the steps of other calls before it,
the steps of all calls while it is under way, and the inputs of what is left of it. -/
structure ServiceInput where
  meanwhile : List ServiceAction
  during : List ServiceAction
  inputs : Nat → Service.Input

/-- Start a call and serve it to its end. -/
def serveCall (inst : Installation) (pool : ServicePool) (call : ServiceCall)
    (during : List ServiceAction) (inputs : Nat → Service.Input) : ServicePool :=
  let started := (service inst).after pool (.start call :: during)
  match started.threads[pool.threads.length]? with
  | some ⟨served, log, rest⟩ =>
      ⟨(rest.alone (repository inst) inputs started.store).2, started.threads.set pool.threads.length
        ⟨served, log ++ rest.trace (repository inst) inputs started.store,
          .done (rest.alone (repository inst) inputs started.store).1⟩⟩
  | none => started

def acceptedResult (pool : ServicePool) (i : Nat) : Option GameActionResult :=
  match pool.threads[i]? with
  | some ⟨_, _, .done (.acted (.ok result))⟩ => some result
  | _ => none

def serviceReferee (inst : Installation) (credential : PublicViewerCredential) :
    Referee ServicePool ServiceInput where
  look input pool _ :=
    let pool := (service inst).after pool input.meanwhile
    let answer := (publicGame inst credential credential.gameId).run.alone (repository inst)
      input.inputs pool.store
    (answer.1.toOption.map PublicGameView.game, { pool with store := answer.2 })
  act input pool seat command :=
    let pool := (service inst).after pool input.meanwhile
    let served := serveCall inst pool (.act seat command) input.during input.inputs
    (acceptedResult served pool.threads.length, served)

section

variable {inst : Installation} {pool : ServicePool} {call : ServiceCall}

/-- Serving a call is a schedule of the service, and the call is done after it. -/
theorem serveCall_reached (during : List ServiceAction) (inputs : Nat → Service.Input) :
    (∃ actions, serveCall inst pool call during inputs = (service inst).after pool actions) ∧
    ∃ log reply, (serveCall inst pool call during inputs).threads[pool.threads.length]? =
      some (⟨call, log, .done reply⟩ : ServiceThread) := by
  have hCall : ∃ log rest, ((service inst).after pool (.start call :: during)).threads[
      pool.threads.length]? = some (⟨call, log, rest⟩ : ServiceThread) := by
    refine @Machine.after_invariant _ _ _ (service inst) (fun pool' : ServicePool => ∃ log rest,
      pool'.threads[pool.threads.length]? = some (⟨call, log, rest⟩ : ServiceThread))
      (fun pool' action h => Pool.step_call h action) _ ⟨[], serve inst call, ?_⟩ during
    exact List.getElem?_concat_length
  obtain ⟨log, rest, hThread⟩ := hCall
  obtain ⟨actions, -, hAfter⟩ := @Pool.exists_finished_conform _ _ _ _ _ _ _ _ _ (fun _ _ => True) _
    _ _ _ inputs hThread fun _ _ _ _ _ _ _ _ => trivial
  have hServed : serveCall inst pool call during inputs = (service inst).after
      ((service inst).after pool (.start call :: during)) actions := by
    rw [serveCall, hThread]
    exact hAfter.symm
  obtain ⟨hLess, -⟩ := List.getElem?_eq_some_iff.mp hThread
  rw [hServed]
  refine ⟨⟨.start call :: during ++ actions, (Machine.after_append ..).symm⟩, ?_⟩
  have hThreads := congrArg (fun pool' : ServicePool => pool'.threads[pool.threads.length]?) hAfter
  exact ⟨_, _, hThreads.trans (List.getElem?_set_self hLess)⟩

/-- A call that nobody interferes with. -/
theorem serveCall_alone {inputs : Nat → Service.Input} {reply : Reply} {t : Store}
    (h : (serve inst call).alone (repository inst) inputs pool.store = (reply, t)) :
    serveCall inst pool call [] inputs = ⟨t, pool.threads ++
      [⟨call, (serve inst call).trace (repository inst) inputs pool.store, .done reply⟩]⟩ := by
  have hThread : ((service inst).after pool [.start call]).threads[pool.threads.length]? =
      some (⟨call, [], serve inst call⟩ : ServiceThread) := List.getElem?_concat_length
  have hStore : ((service inst).after pool [.start call]).store = pool.store := rfl
  rw [serveCall, hThread]
  dsimp only
  rw [hStore, h]
  change Pool.mk t ((pool.threads ++ [_]).set pool.threads.length _) = _
  rw [List.set_append_right _ _ (Nat.le_refl _), Nat.sub_self]
  rfl

end

/-! The game of an access. -/

/-- An access to all seats of a stored game. -/
def Hosts (access : CreatedGameAccess) (s : Store) : Prop :=
  ∃ record, s.game access.publicViewer.gameId = some record ∧ ∀ snapshot ∈ record.snapshots,
    access = .new access.publicViewer.gameId snapshot.state.scores.length

/-- The current game of an access. -/
structure Current (inst : Installation) (access : CreatedGameAccess) (s : Store) (g : Game) : Prop where
  stored : ∃ record past, s.game access.publicViewer.gameId = some record ∧ Told inst record past g
  access : access = .new access.publicViewer.gameId g.state.scores.length

section

variable {inst : Installation} {access : CreatedGameAccess} {s t : Store} {g g' : Game}

theorem lineage_seats {gameId : GameId} {past : List Game} (h : Lineage inst gameId past g) :
    ∀ other ∈ past, other.state.scores.length = g.state.scores.length := by
  induction h with
  | fresh _ _ => exact fun _ hNever => absurd hNever List.not_mem_nil
  | next prior move ih =>
      rename_i before _ _ _ _
      obtain ⟨c, hValid, rfl, -⟩ := move.commit
      have hSame : (c.game before).state.scores.length = before.state.scores.length :=
        hValid.final_scores_length prior.reachable.shape
      intro other hOther
      rcases List.mem_append.mp hOther with hOld | hNew
      · exact (ih other hOld).trans hSame.symm
      · rw [List.mem_singleton.mp hNew, hSame]

theorem Hosts.current (h : Hosts access s) (hSane : Sane inst s) :
    ∃ g, Current inst access s g := by
  obtain ⟨record, hRecord, hSeats⟩ := h
  obtain ⟨past, g, hTold, -⟩ := hSane.told _ record hRecord
  refine ⟨g, ⟨record, past, hRecord, hTold⟩, hSeats (g.snapshot inst.platform) ?_⟩
  rw [hTold.snapshots]
  exact List.mem_map_of_mem (List.mem_append_right _ (List.mem_singleton_self _))

/-- The current game stays or is followed by games with higher versions. -/
theorem Current.later (h : Current inst access s g) (hSane : Sane inst t) (hGrows : Grows s t) :
    ∃ g', Current inst access t g' ∧ g.state.version.toNat ≤ g'.state.version.toNat ∧
      (g.state.version = g'.state.version → g = g') := by
  obtain ⟨record, past, hRecord, hTold⟩ := h.stored
  obtain ⟨next, hNext, hExtends⟩ := hGrows.games _ record hRecord
  obtain ⟨past', g', hTold', -⟩ := hSane.told _ next hNext
  have hVisited := (hTold.visited hRecord).later hGrows
  have hPrefix := hExtends.snapshots
  rw [hTold.snapshots, hTold'.snapshots] at hPrefix
  have hLength := hPrefix.length_le
  rw [List.length_map, List.length_map, List.length_append, List.length_append] at hLength
  have hSeats : g.state.scores.length = g'.state.scores.length := by
    have hMem : g.snapshot inst.platform ∈
        (past' ++ [g']).map fun game => game.snapshot inst.platform :=
      hPrefix.subset (List.mem_map_of_mem (List.mem_append_right _ (List.mem_singleton_self _)))
    obtain ⟨other, hOther, hSame⟩ := List.mem_map.mp hMem
    have hState : other.state = g.state := congrArg GameSnapshot.state hSame
    rw [← hState]
    rcases List.mem_append.mp hOther with hOld | hNew
    · exact lineage_seats hTold'.lineage other hOld
    · rw [List.mem_singleton.mp hNew]
  refine ⟨g', ⟨⟨next, past', hNext, hTold'⟩, hSeats ▸ h.access⟩, ?_, fun hVersion => ?_⟩
  · rw [hTold.lineage.version, hTold'.lineage.version]
    exact Nat.le_of_add_le_add_right hLength
  · exact hVisited.current hNext hTold' hVersion

theorem Current.version (h : Current inst access s g) (hOther : Current inst access s g') :
    g.state.version = g'.state.version := by
  obtain ⟨record, past, hRecord, hTold⟩ := h.stored
  obtain ⟨other, past', hSame, hTold'⟩ := hOther.stored
  cases hRecord.symm.trans hSame
  exact hTold.version.symm.trans hTold'.version

theorem Current.seat (h : Current inst access s g) :
    access.seat g.state.currentPlayer =
      some ⟨access.publicViewer.gameId, g.state.currentPlayer⟩ := by
  obtain ⟨record, past, -, hTold⟩ := h.stored
  have hShape := hTold.lineage.reachable.shape
  have hPlayers := hShape.players
  have hTurn := hShape.turn
  rw [← hShape.scores] at hPlayers hTurn
  rw [h.access]
  change (((Seat.active g.state.scores.length).getD [.one, .two]).map
    (CompetitiveSeatCredential.mk access.publicViewer.gameId))[g.state.currentPlayer.index]? = _
  rw [Seat.active_eq_some.mpr ⟨hPlayers, rfl⟩, Option.getD_some, List.getElem?_map,
    List.getElem?_take_of_lt hTurn, Seat.all_getElem?]
  rfl

end

/-! What the referee answers. -/

section

variable {inst : Installation} {access : CreatedGameAccess} {pool : ServicePool} {g : Game}

theorem serviceReferee_look (h : pool.Sound inst .empty) (hGame : Current inst access pool.store g)
    (input : ServiceInput) (place : Look) :
    ∃ g', Current inst access ((service inst).after pool input.meanwhile).store g' ∧
      g.state.version.toNat ≤ g'.state.version.toNat ∧
      (g.state.version = g'.state.version → g = g') ∧
      (serviceReferee inst access.publicViewer).look input pool place =
        (some g'.publicProjection, (service inst).after pool input.meanwhile) := by
  have hAfter := h.after input.meanwhile
  obtain ⟨g', hCurrent, hVersion, hSame⟩ := hGame.later hAfter.inv (h.grows_after input.meanwhile)
  obtain ⟨record, past, hRecord, hTold⟩ := hCurrent.stored
  refine ⟨g', hCurrent, hVersion, hSame, ?_⟩
  have hAlone : (publicGame inst access.publicViewer access.publicViewer.gameId).run.alone
      (repository inst) input.inputs ((service inst).after pool input.meanwhile).store = _ :=
    Runs.publicGame hTold (hAfter.inv.shelved hRecord hTold) hRecord
  simp only [serviceReferee, hAlone]
  rfl

/-- The key of the orchestrator is free, and the clock has not gone back behind the
creation of the game. -/
def Free (inst : Installation) (s : Store) (command : GameActionCommand)
    (inputs : Nat → Service.Input) : Prop :=
  ∀ record, s.game command.gameId = some record →
    record.cached (digestKey inst.platform command.idempotencyKey) = none ∧
      ∀ n, record.createdAt ≤ (inputs n).clock.toInt

/-- A resignation of the player to move that nobody interferes with goes through when
its key is free. -/
theorem serviceReferee_resign (h : pool.Sound inst .empty) (hGame : Current inst access pool.store g)
    (hActive : g.state.phase = .active) (key : IdempotencyKey) (inputs : Nat → Service.Input)
    (hFree : Free inst pool.store (resignCommand access.publicViewer.gameId g.state.currentPlayer
      g.state.version key) inputs) :
    ∃ result world g' event, (serviceReferee inst access.publicViewer).act ⟨[], [], inputs⟩ pool
        ⟨access.publicViewer.gameId, g.state.currentPlayer⟩
        (resignCommand access.publicViewer.gameId g.state.currentPlayer g.state.version key) =
          (some result, world) ∧
      world.Sound inst .empty ∧ Current inst access world.store g' ∧
      Accepted inst.platform g g.state.currentPlayer .resign g' event ∧
      result.game.publicView = g'.publicProjection := by
  obtain ⟨record, past, hRecord, hTold⟩ := hGame.stored
  obtain ⟨d, hValid⟩ := hTold.lineage.reachable.resign_valid hActive
  have hMove : g.applyMove inst.platform g.state.currentPlayer g.state.version .resign =
      .ok (_, _) := applyMove_eq_ok.mpr ⟨rfl, .resign d hValid⟩
  obtain ⟨hCached, hClock⟩ := hFree record hRecord
  obtain ⟨t, next, row, hRun, hSane, hTouches, hNext, -⟩ :=
    Runs.executeAction (fun n => inputs (n + 1)) ((resignCommand access.publicViewer.gameId
      g.state.currentPlayer g.state.version key).identity inst.platform) true h.inv hTold
      (h.inv.shelved hRecord hTold) hRecord (GameActionCommand.identity_valid _ _) hCached (hClock 2)
      hMove
  obtain ⟨result, hView, hRun⟩ : ∃ result : GameActionResult,
      result.game.publicView = (d.game g g.state.currentPlayer).publicProjection ∧
      Runs inst (fun n => inputs (n + 1)) (executeAction inst ((resignCommand
        access.publicViewer.gameId g.state.currentPlayer g.state.version key).identity inst.platform)
        g.state.version g.state.currentPlayer .resign true) pool.store (.ok result) t := by
    refine ⟨_, ?_, hRun⟩
    rfl
  have hAct : Runs inst inputs (act inst ⟨access.publicViewer.gameId, g.state.currentPlayer⟩
      (resignCommand access.publicViewer.gameId g.state.currentPlayer g.state.version key)) pool.store
      (.ok result) t := by
    have hAuthority : ensureAuthority ⟨access.publicViewer.gameId, g.state.currentPlayer⟩
        (resignCommand access.publicViewer.gameId g.state.currentPlayer g.state.version key) =
          .ok () := by
      simp [ensureAuthority, resignCommand, bind_eq_ok]
    unfold act
    rw [hAuthority]
    exact Runs.value (Runs.unanswered _ hRecord hCached hRun)
  have hServed := serveCall_alone (serve_alone_act hAct)
  obtain ⟨⟨actions, hReached⟩, -⟩ := @serveCall_reached inst pool
    (.act ⟨access.publicViewer.gameId, g.state.currentPlayer⟩ (resignCommand
      access.publicViewer.gameId g.state.currentPlayer g.state.version key)) [] inputs
  have hReply : acceptedResult (serveCall inst pool
      (.act ⟨access.publicViewer.gameId, g.state.currentPlayer⟩ (resignCommand
        access.publicViewer.gameId g.state.currentPlayer g.state.version key)) [] inputs)
      pool.threads.length = some result := by
    rw [acceptedResult, hServed, List.getElem?_concat_length]
  have hSound := h.after actions
  rw [← hReached] at hSound
  refine ⟨result, _, _, _, Prod.ext hReply rfl, hSound, ⟨⟨next, past ++ [g], ?_, hNext⟩, ?_⟩,
    .resign d hValid, hView⟩
  · change (serveCall inst pool _ [] inputs).store.game _ = _
    rw [hServed]
    exact hTouches.after
  · have hSeats := lineage_seats hNext.lineage g (List.mem_append_right _ (List.mem_singleton_self _))
    exact hSeats ▸ hGame.access

end

end WordArena.Server
