import WordArena.Server.Resignation

/-! Who loses when the runner ends a match. A failed turn resigns the seat that failed, but
a failed start resigns whoever is to move. -/
namespace WordArena.Service

open Fallible WordArena.Engine WordArena.Lexicon WordArena.Application

/-! What a resignation stores. -/

/-- Whatever game the event has stored is as described. -/
def Yields (P : GameSnapshot → Prop) (event : ServiceEvent) : Prop :=
  ∀ before input commit successor, event = ⟨before, input, .commitAction commit,
    (.ok () : Except RepositoryError Unit)⟩ → commit.successor = some successor → P successor.snapshot

/-- The seat has resigned the game, and nobody or somebody else has won it. -/
def LostBy (seat : Seat) (snapshot : GameSnapshot) : Prop :=
  ∃ event result, snapshot.events.getLast? = some event ∧ event.kind = .resigned seat result ∧
    snapshot.state.result = some result ∧ result.winner ≠ some seat

/-- Only one seat can have resigned last. -/
theorem LostBy.unique {seat other : Seat} {snapshot : GameSnapshot} (h : LostBy seat snapshot)
    (hOther : LostBy other snapshot) : seat = other := by
  obtain ⟨event, result, hLast, hKind, -⟩ := h
  obtain ⟨event', result', hLast', hKind', -⟩ := hOther
  cases hLast.symm.trans hLast'
  cases hKind.symm.trans hKind'
  rfl

theorem quiet_yields {P : GameSnapshot → Prop} {event : ServiceEvent} (h : Quiet event) :
    Yields P event := by
  rintro before input commit successor rfl -
  rcases h with hReads | ⟨_, _, _, _, hNever⟩ | ⟨_, _, _, _, _, hNever⟩
  · exact hReads.elim
  · cases hNever
  · cases hNever

section

variable {inst : Installation} {s : Store} {gameId : GameId} {past past' : List Game} {g g' : Game}

/-- Visited games with one version are the same. -/
theorem Visited.unique (h : Visited inst s gameId past g) (h' : Visited inst s gameId past' g')
    (hVersion : g.state.version = g'.state.version) : g = g' := by
  obtain ⟨record, hRecord, hPrefix⟩ := h.stored
  obtain ⟨other, hOther, hPrefix'⟩ := h'.stored
  cases hRecord.symm.trans hOther
  have hLength : past.length = past'.length := by
    rw [← h.lineage.version, ← h'.lineage.version, hVersion]
  have hSame := (List.prefix_of_prefix_length_le hPrefix hPrefix' (by simp [hLength])).eq_of_length
    (by simp [hLength])
  rw [List.map_append, List.map_append] at hSame
  obtain ⟨-, hLast⟩ := List.append_inj' hSame rfl
  exact h.lineage.unique h'.lineage (List.singleton_inj.mp hLast)

theorem lostBy_of_accepted {event : GameEvent} {seat : Seat} (hShape : Shape g)
    (h : Accepted inst.platform g seat .resign g' event) : LostBy seat (g'.snapshot inst.platform) := by
  obtain ⟨-, result, hKind, hResult, hWinner⟩ := h.givenUp hShape
  obtain ⟨c, -, rfl, rfl⟩ := h.commit
  exact ⟨c.event, result, List.getLast?_concat, hKind, hResult, hWinner⟩

/-- A use case as far as it is about the games it stores. -/
def storing (P : GameSnapshot → Prop) (α : Type) : ServicePromise α where
  own event _ := Yields P event
  may _ _ := True
  post _ _ _ := True

theorem Keeps.yields {P : GameSnapshot → Prop} {id : CommandIdentity} {expected : UInt64}
    {committedAt : UnixMillis} {attempt : Attempt} {log : Log}
    (hSincere : Sincere inst s (actionCommit id expected committedAt attempt))
    (h : ∀ successor, attempt.successor = some successor → P successor.snapshot) :
    Keeps inst (storing P _) (Service.commitAttempted id expected committedAt attempt) log s := by
  refine Keeps.commitAttempted (fun _ hQuiet => quiet_yields hQuiet) hSincere
    (fun _ _ _ _ _ _ _ _ _ _ _ => ⟨?_, fun _ _ _ => trivial⟩) (fun _ _ _ _ _ _ _ _ _ _ _ => trivial)
    fun _ _ _ _ _ _ _ _ _ _ _ _ _ _ _ _ => trivial
  rintro before input commit successor hEvent hSuccessor
  cases hEvent
  exact h successor hSuccessor

/-- A resignation of the player to move at a version stores nothing but its loss. At any other
version it is refused, and no move can be forced. -/
theorem Keeps.executesResignation {id : CommandIdentity} {log : Log}
    (hVisited : Visited inst s id.gameId past g) (hActive : g.state.phase = .active) :
    Keeps inst (storing (LostBy g.state.currentPlayer) _) (Service.executeAction inst id
      g.state.version g.state.currentPlayer .resign true) log s := by
  have hIdle : Idles (storing (LostBy g.state.currentPlayer) (Except ApplicationError GameActionResult)) :=
    fun _ hQuiet => quiet_yields hQuiet
  refine Keeps.executeAction hIdle (fun _ _ _ _ _ _ _ _ _ => trivial)
    fun t _ u clock _ _ loaded stored hGrows _ _ _ _ _ hu _ _ hBasis hWord => ?_
  by_cases hVersion : g.state.version = loaded.state.version
  · obtain rfl := (hVisited.later (hGrows.trans hu)).unique hBasis.visited hVersion
    obtain ⟨d, hValid⟩ := hBasis.visited.lineage.reachable.resign_valid hActive
    have hMove : g.applyMove inst.platform g.state.currentPlayer g.state.version .resign = .ok (_, _) :=
      applyMove_eq_ok.mpr ⟨rfl, .resign d hValid⟩
    unfold attemptAction
    rw [hMove]
    refine Keeps.value (Keeps.yields (hBasis.accepted hMove hWord) fun successor hSuccessor => ?_)
    cases hSuccessor
    exact lostBy_of_accepted hBasis.visited.lineage.reachable.shape (.resign d hValid)
  · refine Keeps.attempt hIdle (fun next event hMove => ?_) (fun error _ _ => ?_)
      (fun _ error prior attempt look v _ hCounted _ hv _ => ?_) fun _ _ _ _ _ _ => trivial
    · exact absurd (applyMove_eq_ok.mp hMove).1 hVersion
    · exact Keeps.yields (.stay rfl ⟨_, rfl⟩) fun _ hNever => by cases hNever
    · refine Keeps.yields ((hBasis.later hv).counted hWord hCounted).1 fun successor hSuccessor => ?_
      -- A forced move would be one at the version of the loaded game.
      obtain ⟨forced, hForced, hAttempt⟩ := bind_eq_ok.mp hCounted
      rw [pure_eq_ok] at hAttempt
      cases forced with
      | none =>
          rw [← hAttempt] at hSuccessor
          cases hSuccessor
      | some next =>
          obtain ⟨action, event, hMove⟩ := hBasis.forced hForced
          exact absurd (applyMove_eq_ok.mp hMove).1 hVersion

theorem Keeps.resigns {log : Log} (hVisited : Visited inst s gameId past g)
    (hActive : g.state.phase = .active) (key : IdempotencyKey) :
    Keeps inst (storing (LostBy g.state.currentPlayer) _)
      (Service.act inst ⟨gameId, g.state.currentPlayer⟩ ⟨gameId, g.state.version,
        ⟨g.state.version, g.state.currentPlayer⟩, key, .resign⟩) log s := by
  refine Keeps.cases (fun _ _ => ?_) fun _ _ _ _ _ => trivial
  refine .lookup _ (fun _ hQuiet => quiet_yields hQuiet) (fun _ _ _ _ _ _ _ _ _ => trivial)
    fun log t hGrows _ _ => ?_
  exact Keeps.executesResignation (hVisited.later hGrows) hActive

/-- A legal action under a free key that is left alone gets to its commit. -/
theorem Gets.acts {record : GameRecord} {key : IdempotencyKey} {seat : Seat} {expected : UInt64}
    {action : Move} {event : GameEvent} {inputs : Nat → Input}
    (hRecord : s.game gameId = some record) (hTold : Told inst record past g) (hShelved : Shelved s g)
    (hFree : record.cached (digestKey inst.platform key) = none)
    (hMove : g.applyMove inst.platform seat expected action = .ok (g', event)) :
    Gets inst inputs 3 (Service.act inst ⟨gameId, seat⟩ ⟨gameId, expected, ⟨expected, seat⟩, key, action⟩)
      s (Service.commitAttempted (GameActionCommand.identity inst.platform ⟨gameId, expected,
        ⟨expected, seat⟩, key, action⟩) expected (inputs 2).clock.toInt
        (acceptedAttempt inst ⟨gameId, record.createdAt, record.updatedAt, g.snapshot inst.platform,
          nextDeadline inst.policy g record.updatedAt⟩ seat (inputs 2).clock.toInt g' event)) s := by
  have hAuthority : ensureAuthority ⟨gameId, seat⟩ ⟨gameId, expected, ⟨expected, seat⟩, key, action⟩ =
      .ok () := by
    simp [ensureAuthority, bind_eq_ok]
  unfold Service.act
  rw [hAuthority]
  refine Gets.trans (n := 1) (m := 2) (Gets.unanswered (GameActionCommand.identity inst.platform
    ⟨gameId, expected, ⟨expected, seat⟩, key, action⟩) hRecord hFree) ?_
  refine Gets.trans (n := 1) (m := 1) (Gets.load hTold hShelved hRecord) ?_
  rw [hTold.lineage.resume rfl]
  change Gets inst (fun k => inputs (k + 3)) 0 (attemptAction inst _ g expected seat action true gameId
    (inputs 2).clock.toInt >>= Service.commitAttempted _ expected (inputs 2).clock.toInt) s _ s
  unfold attemptAction
  rw [hMove]
  rfl

/-- A legal action that is left alone under a free key stores the game it leads to. -/
theorem exists_stored_move {record : GameRecord} {key : IdempotencyKey} {seat : Seat}
    {expected : UInt64} {action : Move} {event : GameEvent} {inputs : Nat → Input}
    (hRecord : s.game gameId = some record) (hTold : Told inst record past g) (hShelved : Shelved s g)
    (hFree : record.cached (digestKey inst.platform key) = none)
    (hTime : record.createdAt ≤ (inputs 2).clock.toInt)
    (hMove : g.applyMove inst.platform seat expected action = .ok (g', event)) :
    ∃ before input commit successor, (⟨before, input, .commitAction commit,
        (.ok () : Except RepositoryError Unit)⟩ : ServiceEvent) ∈
      (serve inst (.act ⟨gameId, seat⟩ ⟨gameId, expected, ⟨expected, seat⟩, key, action⟩)).trace
        (repository inst) inputs s ∧
      commit.successor = some successor := by
  let id := GameActionCommand.identity inst.platform ⟨gameId, expected, ⟨expected, seat⟩, key, action⟩
  let attempt := acceptedAttempt inst ⟨gameId, record.createdAt, record.updatedAt,
    g.snapshot inst.platform, nextDeadline inst.policy g record.updatedAt⟩ seat (inputs 2).clock.toInt
    g' event
  obtain ⟨t, hCommit⟩ : ∃ t, commitActionRecord s (actionCommit id expected (inputs 2).clock.toInt
      attempt) = .ok t :=
    hTold.commit_move hRecord (GameActionCommand.identity_valid _ _) hFree rfl rfl hTime hMove
  have hPerform : perform inst (inputs 3) s (.commitAction (actionCommit id expected
      (inputs 2).clock.toInt attempt)) = (.ok (), t) := by
    rw [perform, commitOr, hCommit]
    rfl
  refine ⟨s, inputs 3, actionCommit id expected (inputs 2).clock.toInt attempt, _, ?_, rfl⟩
  rw [serve, Program.trace_map]
  refine Program.mem_trace_of_turns (repository inst) (n := 3) ?_
  rw [@Gets.acts inst s gameId past g g' record key seat expected action event inputs hRecord hTold
    hShelved hFree hMove]
  change _ ∈ (Program.query _ _).trace (repository inst) (fun k => inputs (k + 3)) s
  rw [Program.trace_query hPerform]
  exact List.mem_cons_self

end

/-- The promise of one call of a pool, which is known by its place. -/
def storingAt (P : GameSnapshot → Prop) (n : Nat) (call : ServiceCall) (i : Nat) (other : ServiceCall) :
    ServicePromise Reply where
  own event _ := i = n ∧ other = call → Yields P event
  may _ _ := True
  post _ log _ := i = n ∧ other = call → ∀ event ∈ log, Yields P event

/-- Whatever a resignation of the player to move has stored in the end, while other calls go on,
is its loss. -/
theorem ServicePool.Sound.resigns {inst : Installation} {origin : Store} {pool : ServicePool}
    {gameId : GameId} {past : List Game} {g : Game} (h : pool.Sound inst origin)
    (hVisited : Visited inst pool.store gameId past g) (hActive : g.state.phase = .active)
    {key : IdempotencyKey} {actions : List ServiceAction} {log : Log} {reply : Reply}
    (hThread : ((service inst).after pool actions).threads[pool.threads.length]? =
      some (⟨.act ⟨gameId, g.state.currentPlayer⟩ ⟨gameId, g.state.version, ⟨g.state.version,
        g.state.currentPlayer⟩, key, .resign⟩, log, .done reply⟩ : ServiceThread)) :
    ∀ event ∈ log, Yields (LostBy g.state.currentPlayer) event := by
  let call : ServiceCall := .act ⟨gameId, g.state.currentPlayer⟩ ⟨gameId, g.state.version,
    ⟨g.state.version, g.state.currentPlayer⟩, key, .resign⟩
  have hStart : Pool.Sound (repository inst) (discipline inst)
      (storingAt (LostBy g.state.currentPlayer) pool.threads.length call) pool.store pool := by
    refine ⟨h.inv, .refl _, fun i other log rest hOld => ?_⟩
    obtain ⟨hLess, -⟩ := List.getElem?_eq_some_iff.mp hOld
    refine (h.threads i other log rest hOld).mono (fun _ _ _ hHere => ?_) (fun _ _ _ => trivial)
      fun _ _ _ _ _ hHere => ?_
    · exact absurd hHere.1 (Nat.ne_of_lt hLess)
    · exact absurd hHere.1 (Nat.ne_of_lt hLess)
  have hStarts : ∀ i other s, True → Grows pool.store s → Sane inst s →
      Meets (repository inst) (discipline inst)
        (storingAt (LostBy g.state.currentPlayer) pool.threads.length call i other) (serve inst other)
        [] s := by
    intro i other s _ hGrows hSane
    by_cases hHere : i = pool.threads.length ∧ other = call
    · obtain ⟨rfl, rfl⟩ := hHere
      have hKeeps : Keeps inst (storing (LostBy g.state.currentPlayer) _) (Service.act inst _ _) [] s :=
        Keeps.resigns (hVisited.later hGrows) hActive key
      refine Meets.bind hSane ((Meets.recorded hKeeps fun _ hNever =>
        absurd hNever List.not_mem_nil).mono (fun _ _ hOwn _ => hOwn) (fun _ _ _ => trivial) ?_)
      exact fun _ log _ _ hEnd _ _ _ _ event hEvent => (hEnd.2 event hEvent).own
    · refine (serve_meets inst other hSane).mono (fun _ _ _ hNever => absurd hNever hHere)
        (fun _ _ _ => trivial) fun _ _ _ _ _ hNever => absurd hNever hHere
  have hStep : ∀ (pool' : ServicePool) (action : ServiceAction), Pool.Sound (repository inst)
      (discipline inst) (storingAt (LostBy g.state.currentPlayer) pool.threads.length call) pool.store
      pool' → Pool.Sound (repository inst) (discipline inst) (storingAt (LostBy g.state.currentPlayer)
        pool.threads.length call) pool.store ((service inst).step pool' action).2 := by
    intro pool' action hSound
    have hPermits : Pool.Permits (repository inst) (fun _ => True)
        (storingAt (LostBy g.state.currentPlayer) pool.threads.length call) pool' action := by
      cases action with
      | start _ => trivial
      | advance _ _ => exact fun _ _ _ _ _ => trivial
    exact Pool.Sound.step hStarts hSound hPermits
  exact ((service inst).after_invariant hStep hStart actions).finished hThread ⟨rfl, rfl⟩

end WordArena.Service

namespace WordArena.Server

open Fallible WordArena.Engine WordArena.Lexicon WordArena.Application WordArena.Service
open WordArena.Agent

/-! Whom the runner blames. -/

/-- What a runner knows when it acts: the match as it began, its last report, whether it has
asked for a turn, and the last view. -/
structure Grounds where
  initial : Option AgentMatchStatus
  report : Option MatchUpdate
  asked : Bool
  seen : Option PublicProjection

def Grounds.empty : Grounds := ⟨none, none, false, none⟩

def Grounds.note (grounds : Grounds) : (request : RunnerRequest) → request.Response → Grounds
  | .status, status => { grounds with initial := status }
  | .report change, _ => { grounds with report := some change }
  | .requestTurn _ _, _ => { grounds with asked := true }
  | .look _, view => { grounds with seen := view }
  | _, _ => grounds

def groundsOf (log : List RefereeEvent) : Grounds :=
  log.foldl (fun grounds event => grounds.note event.request event.response) .empty

theorem groundsOf_concat (log : List RefereeEvent) (event : RefereeEvent) :
    groundsOf (log ++ [event]) = (groundsOf log).note event.request event.response := by
  rw [groundsOf, List.foldl_append]
  rfl

/-- The last report says that the agent of the seat has failed, or all agents have. -/
def Grounds.Blames (grounds : Grounds) (seat : Seat) : Prop :=
  match grounds.report with
  | some (.setSeatStatus failed (.failed _)) => failed = seat
  | some (.failAgents _) => ∃ initial harness model, grounds.initial = some initial ∧
      (seat, .agent harness model) ∈ initial.participants
  | _ => False

/-- No turn has been asked for, and the last view shows another seat to move. -/
def Grounds.Misses (grounds : Grounds) (seat : Seat) : Prop :=
  grounds.asked = false ∧ ∃ view, grounds.seen = some view ∧ view.state.currentPlayer ≠ seat

/-- The action of the runner has stored a game. -/
def Moved (inst : Installation) (access : CreatedGameAccess) (event : RefereeEvent)
    (snapshot : GameSnapshot) : Prop :=
  ∃ credential command log reply, event.request = .act credential command ∧
    ((host (serviceReferee inst access.publicViewer) access.publicViewer.gameId).perform event.input
      event.before event.request).2.world.threads[
        ((service inst).after event.before.world event.input.world.meanwhile).threads.length]? =
      some (⟨.act credential command, log, .done reply⟩ : ServiceThread) ∧
    ∃ before input commit successor, (⟨before, input, .commitAction commit,
        (.ok () : Except RepositoryError Unit)⟩ : ServiceEvent) ∈ log ∧
      commit.successor = some successor ∧ successor.snapshot = snapshot

/-! Runs that are fair to the blamed, or not. -/

section

variable (inst : Installation) (access : CreatedGameAccess)

def blameAudit : Program.Audit (HostState ServicePool) (HostInput ServiceInput) RunnerRequest
    RunnerRequest.Response where
  may _ _ := True
  check log event := ∀ seat snapshot, (groundsOf log).Blames seat → Moved inst access event snapshot →
    (LostBy seat snapshot ↔ ¬ (groundsOf log).Misses seat)

/-- A service with a game for the access. -/
structure Serving (world : ServicePool) : Prop where
  sound : world.Sound inst .empty
  game : ∃ g, Current inst access world.store g

/-- A part of a runner, as far as its grounds and the service go. -/
def Judges {α : Type} (post : α → Grounds → ServicePool → Prop) (program : Runner α)
    (grounds : Grounds) (world : ServicePool) : Prop :=
  ∀ (log : List RefereeEvent) (s : HostState ServicePool), groundsOf log = grounds → s.world = world →
    program.Follows (host (serviceReferee inst access.publicViewer) access.publicViewer.gameId)
      (blameAudit inst access) (fun result log s => post result (groundsOf log) s.world) log s

end

section

variable {inst : Installation} {access : CreatedGameAccess} {α β : Type}
  {post : α → Grounds → ServicePool → Prop} {grounds : Grounds} {world : ServicePool} {g : Game}

theorem Judges.pure {a : α} (h : post a grounds world) :
    Judges inst access post (pure a) grounds world := by
  rintro log s rfl rfl
  exact h

theorem Judges.bind {program : Runner β} {f : β → Runner α}
    (h : Judges inst access (fun b grounds world => Judges inst access post (f b) grounds world)
      program grounds world) : Judges inst access post (program >>= f) grounds world := by
  intro log s hLog hWorld
  exact Program.Follows.bind ((h log s hLog hWorld).mono fun b log t hNext => hNext log t rfl rfl)

theorem Judges.mono {post' : α → Grounds → ServicePool → Prop} {program : Runner α}
    (h : Judges inst access post' program grounds world)
    (hPost : ∀ a grounds world, post' a grounds world → post a grounds world) :
    Judges inst access post program grounds world :=
  fun log s hLog hWorld => (h log s hLog hWorld).mono fun _ _ _ => hPost _ _ _

/-- Requests that leave the service alone. -/
theorem Judges.ask {request : RunnerRequest} {f : request.Response → Runner α}
    (hMute : request.Mute ∨ request = .sleep)
    (h : ∀ answer, Judges inst access post (f answer) (grounds.note request answer) world) :
    Judges inst access post (Program.ask request >>= f) grounds world := by
  rintro log s rfl rfl input -
  refine ⟨?_, h _ _ _ (groundsOf_concat _ _) ?_⟩
  · rintro seat snapshot - ⟨credential, command, _, _, hAct, -⟩
    rcases hMute with hMute | hSleep
    · rw [show request = .act credential command from hAct] at hMute
      exact hMute.elim
    · cases hSleep.symm.trans hAct
  · rcases hMute with hMute | rfl
    · cases request <;> first | rfl | exact hMute.elim
    · rfl

theorem Judges.look {place : Look} {f : Option PublicProjection → Runner α}
    (h : Serving inst access world)
    (hNext : ∀ g' world', Serving inst access world' → Current inst access world'.store g' →
      Judges inst access post (f (some g'.publicProjection))
        { grounds with seen := some g'.publicProjection } world') :
    Judges inst access post (Runner.look place >>= f) grounds world := by
  rintro log s rfl rfl input -
  obtain ⟨g, hGame⟩ := h.game
  obtain ⟨g', hCurrent, -, -, hLook⟩ := serviceReferee_look h.sound hGame input.world place
  refine ⟨?_, ?_⟩
  · rintro seat snapshot - ⟨_, _, _, _, hNever, -⟩
    cases hNever
  · rw [@host_look _ _ _ access.publicViewer.gameId _ _ _ _ _ hLook]
    exact hNext g' _ ⟨h.sound.after _, g', hCurrent⟩ hCurrent _ _ (groundsOf_concat _ _) rfl

theorem serviceReferee_serving (h : Serving inst access world) (input : ServiceInput)
    (credential : CompetitiveSeatCredential) (command : GameActionCommand) :
    Serving inst access
      ((serviceReferee inst access.publicViewer).act input world credential command).2 := by
  obtain ⟨⟨actions, hReached⟩, -⟩ := @serveCall_reached inst ((service inst).after world input.meanwhile)
    (.act credential command) input.during input.inputs
  change Serving inst access (serveCall inst _ _ _ _)
  rw [hReached, ← Machine.after_append]
  obtain ⟨g, hGame⟩ := h.game
  obtain ⟨g', hCurrent, -⟩ := hGame.later (h.sound.after _).inv (h.sound.grows_after _)
  exact ⟨h.sound.after _, g', hCurrent⟩

/-- What a resignation stores is the loss of the seat it names. -/
theorem lostBy_of_moved {event : RefereeEvent} {key : IdempotencyKey} {snapshot : GameSnapshot}
    (hSound : event.before.world.Sound inst .empty) (hGame : Current inst access event.before.world.store g)
    (hActive : g.state.phase = .active)
    (hRequest : event.request = .act ⟨access.publicViewer.gameId, g.state.currentPlayer⟩
      (resignCommand access.publicViewer.gameId g.state.currentPlayer g.state.version key))
    (hMoved : Moved inst access event snapshot) : LostBy g.state.currentPlayer snapshot := by
  obtain ⟨before, input, request, response⟩ := event
  obtain ⟨_, _, log, reply, rfl, hThread, start, putting, commit, successor, hStored, hSuccessor, rfl⟩ :=
    hMoved
  cases hRequest
  obtain ⟨record, past, hRecord, hTold⟩ := hGame.stored
  have hVisited := (hTold.visited hRecord).later (hSound.grows_after input.world.meanwhile)
  obtain ⟨⟨actions, hReached⟩, -⟩ := @serveCall_reached inst
    ((service inst).after before.world input.world.meanwhile) (.act
      ⟨access.publicViewer.gameId, g.state.currentPlayer⟩ (resignCommand access.publicViewer.gameId
        g.state.currentPlayer g.state.version key)) input.world.during input.world.inputs
  change (serveCall inst _ _ _ _).threads[_]? = _ at hThread
  rw [hReached] at hThread
  exact (hSound.after _).resigns hVisited hActive hThread _ hStored _ _ _ _ rfl hSuccessor

/-- An action for the seat that was seen to move, which is the one that failed its turn. -/
theorem Judges.act {key : IdempotencyKey} {f : Option GameActionResult → Runner α}
    (h : Serving inst access world) (hGame : Current inst access world.store g)
    (hSeen : grounds.seen = some g.publicProjection) (hActive : g.state.phase = .active)
    (hAsked : grounds.asked = true →
      ∃ code, grounds.report = some (.setSeatStatus g.state.currentPlayer (.failed code)))
    (hNext : ∀ answer world', Serving inst access world' →
      Judges inst access post (f answer) grounds world') :
    Judges inst access post (Runner.act ⟨access.publicViewer.gameId, g.state.currentPlayer⟩
      (resignCommand access.publicViewer.gameId g.state.currentPlayer g.state.version key) >>= f)
      grounds world := by
  rintro log s rfl rfl input -
  refine ⟨fun seat snapshot hBlames hMoved => ?_, ?_⟩
  · have hLost : LostBy g.state.currentPlayer snapshot :=
      lostBy_of_moved h.sound hGame hActive rfl hMoved
    constructor
    · rintro hSeat ⟨-, view, hView, hOther⟩
      cases hSeen.symm.trans hView
      exact hOther (hLost.unique hSeat)
    · intro hHits
      have hSeat : g.state.currentPlayer = seat := by
        cases hTurn : (groundsOf log).asked with
        | true =>
            obtain ⟨code, hReport⟩ := hAsked hTurn
            rw [Grounds.Blames, hReport] at hBlames
            exact hBlames
        | false =>
            by_contra hOther
            exact hHits ⟨hTurn, _, hSeen, hOther⟩
      exact hSeat ▸ hLost
  · refine hNext _ _ (serviceReferee_serving h input.world _ _) _ _ ?_ rfl
    rw [groundsOf_concat]
    rfl

theorem resign_judges {seat : Seat} {reason : String} {post : Unit → Grounds → ServicePool → Prop}
    (h : Serving inst access world)
    (hAsked : grounds.asked = true → ∃ code, grounds.report = some (.setSeatStatus seat (.failed code)))
    (hPost : ∀ grounds' world', Serving inst access world' → post () grounds' world') :
    Judges inst access post (resign access seat reason) grounds world := by
  refine Judges.look h fun g world' hServing hGame => ?_
  dsimp only
  split
  · exact .pure (hPost _ _ hServing)
  · rename_i hOver
    obtain ⟨hUnfinished, hSeat⟩ := not_or.mp hOver
    obtain rfl : g.state.currentPlayer = seat := not_not.mp hSeat
    have hActive : g.state.phase = .active := by
      cases hPhase : g.state.phase with
      | active => rfl
      | finished => exact absurd hPhase hUnfinished
    rw [hGame.seat]
    dsimp only
    split
    · exact .pure (hPost _ _ hServing)
    · refine Judges.act hServing hGame rfl hActive hAsked fun answer world'' hServing' => ?_
      cases (answer : Option GameActionResult) with
      | none => exact .pure (hPost _ _ hServing')
      | some result =>
          exact Judges.ask (.inl trivial) fun _ => Judges.ask (f := pure) (.inl trivial) fun _ =>
            .pure (hPost _ _ hServing')

theorem abortMatch_judges {reason : String} {post : Unit → Grounds → ServicePool → Prop}
    (h : Serving inst access world) (hAsked : grounds.asked = false)
    (hPost : ∀ grounds' world', Serving inst access world' → post () grounds' world') :
    Judges inst access post (abortMatch access reason) grounds world := by
  refine Judges.look h fun g world' hServing _ => resign_judges hServing (fun hTurn => ?_) hPost
  exact absurd (hAsked.symm.trans hTurn) (by decide)

/-! Starting the agents. -/

/-- The runner has asked for no turn yet. -/
structure Fresh (inst : Installation) (access : CreatedGameAccess) (grounds : Grounds)
    (world : ServicePool) : Prop where
  serving : Serving inst access world
  unasked : grounds.asked = false

theorem finishEach_judges (outcomes : List WorkspaceOutcome) (agents : List RunningAgent) :
    Judges inst access (fun _ _ _ => True) (finishEach outcomes agents) grounds world := by
  induction agents generalizing grounds world with
  | nil => exact .pure trivial
  | cons agent rest ih =>
      exact Judges.bind (Judges.ask (.inl trivial) fun _ =>
        Judges.ask (f := pure) (.inl trivial) fun _ => .pure ih)

theorem finishAgents_judges (agents : List (Option RunningAgent)) :
    Judges inst access (fun _ _ _ => True) (finishAgents agents) grounds world := by
  refine Judges.ask (.inl (show RunnerRequest.Mute .status from trivial)) fun _ => Judges.bind ?_
  refine (finishEach_judges _ _).mono fun _ _ _ _ => ?_
  exact Judges.ask (f := pure) (.inl (show RunnerRequest.Mute (.report .finishSeats) from trivial))
    fun _ => .pure trivial

theorem startSteps_judges (seat : Seat) (steps : List StartStep)
    (h : Fresh inst access grounds world) :
    Judges inst access (fun _ => Fresh inst access) (startSteps seat steps) grounds world := by
  induction steps with
  | nil => exact .pure h
  | cons step rest ih =>
      refine Judges.ask (.inl trivial) fun ok => ?_
      cases (ok : Bool) with
      | false => exact .pure h
      | true => exact ih

theorem startAgent_judges (seat : Seat) (harness : AgentHarnessId) (model : Option String)
    (version : String) (h : Fresh inst access grounds world) :
    Judges inst access (fun _ => Fresh inst access) (startAgent seat harness model version) grounds
      world := by
  refine Judges.ask (.inl trivial) fun answer => ?_
  cases (answer : Option PendingAgentCapability) with
  | none => exact .pure h
  | some pending => exact startSteps_judges seat _ h

theorem failStart_judges (agents : List (Option RunningAgent)) (seat : Seat) (code reason : String)
    (h : Fresh inst access grounds world) :
    Judges inst access (fun _ _ _ => True) (failStart access agents seat code reason) grounds world := by
  refine Judges.ask (.inl trivial) fun _ => Judges.bind ?_
  exact abortMatch_judges h.serving h.unasked fun _ _ _ => finishAgents_judges agents

theorem startSeats_judges (entries : List AgentCatalogEntry)
    (participants : List (Seat × AgentSeatSelection)) (agents : List (Option RunningAgent))
    (h : Fresh inst access grounds world) :
    Judges inst access (fun result _ world => result.isSome = true → Serving inst access world)
      (startSeats access entries participants agents) grounds world := by
  induction participants generalizing grounds world agents with
  | nil => exact .pure fun _ => h.serving
  | cons participant rest ih =>
      obtain ⟨seat, ⟨harness, model⟩ | name⟩ := participant
      · refine Judges.ask (.inl trivial) fun _ => ?_
        have hStarted : Fresh inst access (grounds.note (.report (.setSeatStatus seat .starting)) ())
            world := ⟨h.serving, h.unasked⟩
        have hFailed : ∀ (code reason : String) (grounds : Grounds) (world : ServicePool),
            Fresh inst access grounds world →
            Judges inst access (fun (result : Option (List (Option RunningAgent))) _ world =>
                result.isSome = true → Serving inst access world)
              (failStart access agents seat code reason >>= fun _ => pure none) grounds world := by
          intro code reason grounds world hFresh
          refine Judges.bind ((failStart_judges agents seat code reason hFresh).mono fun _ _ _ _ => ?_)
          exact .pure fun hNever => by cases hNever
        split
        · exact hFailed _ _ _ _ hStarted
        · refine Judges.bind ((startAgent_judges seat harness model _ hStarted).mono ?_)
          rintro (code | agent) grounds' world' hFresh
          · exact hFailed code code _ _ hFresh
          · exact Judges.ask (.inl trivial) fun _ => ih _ ⟨hFresh.serving, hFresh.unasked⟩
      · exact ih agents h

/-! Playing. -/

theorem failTurn_judges (seat : Seat) (code reason : String) (h : Serving inst access world) :
    Judges inst access (fun _ _ => Serving inst access) (failTurn access seat code reason) grounds
      world := by
  refine Judges.ask (.inl trivial) fun _ => Judges.bind ?_
  exact resign_judges h (fun _ => ⟨code, rfl⟩) fun _ _ hServing => .pure hServing

theorem playTurn_judges (language : Language) (seat : Seat) (version : UInt64)
    (h : Serving inst access world) :
    Judges inst access (fun _ _ => Serving inst access) (playTurn access language seat version) grounds
      world := by
  refine Judges.ask (.inl trivial) fun _ => Judges.ask (.inl trivial) fun ok => ?_
  cases (ok : Bool) with
  | false => exact failTurn_judges seat _ _ h
  | true =>
      refine Judges.look h fun g world' hServing _ => ?_
      dsimp only
      split
      · exact Judges.ask (.inl trivial) fun _ => Judges.ask (.inl trivial) fun _ =>
          Judges.ask (.inl trivial) fun _ => .pure hServing
      · exact failTurn_judges seat _ _ hServing

theorem playRound_judges (language : Language) (agents : List (Option RunningAgent))
    (h : Serving inst access world) :
    Judges inst access (fun round _ world => round = .again → Serving inst access world)
      (playRound access language agents) grounds world := by
  refine Judges.look h fun g world' hServing _ => Judges.ask (.inl trivial) fun _ => ?_
  split
  · exact Judges.bind ((finishAgents_judges agents).mono fun _ _ _ _ =>
      .pure fun hNever => by cases hNever)
  · split
    · exact .pure fun hNever => by cases hNever
    · exact Judges.ask (.inl trivial) fun _ => Judges.ask (.inr rfl) fun _ => .pure fun _ => hServing
    · exact (playTurn_judges language _ _ hServing).mono fun _ _ _ hNext _ => hNext

theorem playLoop_judges (language : Language) (agents : List (Option RunningAgent)) (rounds : Nat)
    (h : Serving inst access world) :
    Judges inst access (fun _ _ _ => True) (playLoop access language agents rounds) grounds world := by
  induction rounds generalizing grounds world with
  | zero => exact .pure trivial
  | succ rounds ih =>
      refine Judges.bind ((playRound_judges language agents h).mono ?_)
      rintro (_ | _ | _) grounds' world' hServing
      · exact ih (hServing rfl)
      · exact .pure trivial
      · exact .pure trivial

/-! The whole run. -/

theorem prepareAll_judges (preparations : List Preparation) (h : Fresh inst access grounds world) :
    Judges inst access (fun ok grounds world => ok = true → Fresh inst access grounds world)
      (prepareAll access preparations) grounds world := by
  induction preparations with
  | nil => exact .pure fun _ => h
  | cons preparation rest ih =>
      refine Judges.ask (.inl trivial) fun ok => ?_
      cases (ok : Bool) with
      | true => exact ih
      | false =>
          refine Judges.ask (.inl trivial) fun _ => Judges.bind ?_
          exact abortMatch_judges h.serving h.unasked fun _ _ _ => .pure fun hNever => by cases hNever

theorem runMatch_judges (spectatorCapability : String) (rounds : Nat)
    (h : Fresh inst access grounds world) :
    Judges inst access (fun _ _ _ => True) (runMatch access spectatorCapability rounds) grounds
      world := by
  refine Judges.ask (.inl trivial) fun initial => ?_
  cases (initial : Option AgentMatchStatus) with
  | none => exact .pure trivial
  | some initial =>
      have hStart : Fresh inst access (grounds.note .status (some initial)) world :=
        ⟨h.serving, h.unasked⟩
      refine Judges.bind ((prepareAll_judges _ hStart).mono ?_)
      rintro (_ | _) grounds₁ world₁ hFresh
      · exact .pure trivial
      · refine Judges.ask (.inl trivial) fun entries => Judges.bind ?_
        refine (startSeats_judges entries _ _ ⟨(hFresh rfl).serving, (hFresh rfl).unasked⟩).mono ?_
        rintro (_ | agents) grounds₂ world₂ hServing
        · exact .pure trivial
        · exact playLoop_judges _ _ _ (hServing rfl)

end

/-- Whoever the runner blames when its action ends the match loses it, and not another seat,
except that a seat that was never asked for a turn has to be the one to move. -/
theorem blamed_seat_loses (inst : Installation) (history : List ServiceAction)
    (access : CreatedGameAccess) (spectatorCapability : String) (rounds : Nat)
    (manager : AgentMatchManager) (inputs : Nat → HostInput ServiceInput)
    (hHosts : Hosts access ((service inst).after .empty history).store)
    (front back : List RefereeEvent) (event : RefereeEvent)
    (hTrace : (runMatch access spectatorCapability rounds).trace
      (host (serviceReferee inst access.publicViewer) access.publicViewer.gameId) inputs
      ⟨manager, (service inst).after .empty history⟩ = front ++ event :: back)
    (seat : Seat) (snapshot : GameSnapshot) (hBlamed : (groundsOf front).Blames seat)
    (hMoved : Moved inst access event snapshot) :
    LostBy seat snapshot ↔ ¬ (groundsOf front).Misses seat := by
  have hSound : ((service inst).after .empty history).Sound inst .empty :=
    (ServicePool.sound_empty inst).after history
  have hFresh : Fresh inst access .empty ((service inst).after .empty history) :=
    ⟨⟨hSound, hHosts.current hSound.inv⟩, rfl⟩
  have hJudges := runMatch_judges spectatorCapability rounds hFresh [] ⟨manager, _⟩ rfl rfl
  exact (hJudges.run inputs fun _ _ _ _ => trivial).1 front event back hTrace seat snapshot hBlamed hMoved

/-! A human to move, and an agent that is not in the catalog. -/

/-- A resignation that is left alone under a free key stores a game. -/
theorem exists_moved {inst : Installation} {access : CreatedGameAccess} {g : Game}
    {before : HostState ServicePool} {input : HostInput ServiceInput} {key : IdempotencyKey}
    (hSound : before.world.Sound inst .empty) (hGame : Current inst access before.world.store g)
    (hActive : g.state.phase = .active)
    (hAlone : input.world.meanwhile = [] ∧ input.world.during = [])
    (hFree : Free inst before.world.store (resignCommand access.publicViewer.gameId
      g.state.currentPlayer g.state.version key) input.world.inputs)
    (response : Option GameActionResult) :
    ∃ snapshot, Moved inst access ⟨before, input, .act ⟨access.publicViewer.gameId,
      g.state.currentPlayer⟩ (resignCommand access.publicViewer.gameId g.state.currentPlayer
        g.state.version key), response⟩ snapshot := by
  obtain ⟨now, succeeds, catalog, ⟨meanwhile, during, inputs⟩⟩ := input
  obtain ⟨rfl, rfl⟩ := hAlone
  obtain ⟨record, past, hRecord, hTold⟩ := hGame.stored
  obtain ⟨hCached, hClock⟩ := hFree record hRecord
  obtain ⟨d, hValid⟩ := hTold.lineage.reachable.resign_valid hActive
  have hMove : g.applyMove inst.platform g.state.currentPlayer g.state.version .resign = .ok (_, _) :=
    applyMove_eq_ok.mpr ⟨rfl, .resign d hValid⟩
  obtain ⟨start, putting, commit, successor, hStored, hSuccessor⟩ := exists_stored_move hRecord hTold
    (hSound.inv.shelved hRecord hTold) hCached (hClock 2) hMove
  let call : ServiceCall := .act ⟨access.publicViewer.gameId, g.state.currentPlayer⟩ (resignCommand
    access.publicViewer.gameId g.state.currentPlayer g.state.version key)
  have hThread : (serveCall inst before.world call [] inputs).threads[before.world.threads.length]? =
      some ⟨call, (serve inst call).trace (repository inst) inputs before.world.store,
        .done ((serve inst call).alone (repository inst) inputs before.world.store).1⟩ := by
    rw [serveCall_alone Prod.mk.eta.symm]
    exact List.getElem?_concat_length
  exact ⟨successor.snapshot, _, _, _, _, rfl, hThread, start, putting, commit, successor, hStored,
    hSuccessor, rfl⟩

/-- The human, who is to move, loses to the agent. -/
theorem exists_blamed : ∃ history front event back snapshot,
    Hosts hookAccess ((service hookInstallation).after .empty history).store ∧
    (runMatch hookAccess "spectator" 0).trace
      (host (serviceReferee hookInstallation hookAccess.publicViewer) hookAccess.publicViewer.gameId)
      (bare solitary) ⟨rivalManager, (service hookInstallation).after .empty history⟩ =
        front ++ event :: back ∧
    (groundsOf front).Blames .two ∧ (groundsOf front).Misses .two ∧
    Moved hookInstallation hookAccess event snapshot ∧ LostBy .one snapshot := by
  obtain ⟨actions, s, record, g, hOpened, hSeats⟩ := exists_seated
  have hStore : ((service hookInstallation).after .empty actions).store = s := by
    obtain ⟨created, log, hReached⟩ := hOpened.reached
    rw [hReached]
  have hSound := (ServicePool.sound_empty hookInstallation).after actions
  have hGame := Told.hooked hOpened.stored hOpened.told hSeats
  have hStored := hOpened.stored
  rw [← hStore] at hGame hStored
  generalize hPool : (service hookInstallation).after .empty actions = pool at *
  have hReason : Visible 64 "agent-unavailable" := .of_all (by decide) (by decide)
  obtain ⟨key, hKey⟩ := orchestratorKey_ok hReason g.state.version
  obtain ⟨back, manager, hTrace, -⟩ := trace_missing hSound hGame hOpened.active hKey
  have hFree : Free hookInstallation pool.store (resignCommand hookId g.state.currentPlayer
      g.state.version key) solitary.inputs := by
    intro other hOther
    cases hStored.symm.trans hOther
    refine ⟨?_, fun _ => Int.le_of_eq hOpened.times.1⟩
    rw [GameRecord.cached, hOpened.idempotency]
    rfl
  obtain ⟨snapshot, hMoved⟩ := @exists_moved hookInstallation hookAccess g ⟨manager, pool⟩
    (bare solitary 0) key hSound hGame hOpened.active ⟨rfl, rfl⟩ hFree
    ((serviceReferee hookInstallation hookAccess.publicViewer).act solitary pool
      ⟨hookId, g.state.currentPlayer⟩ (resignCommand hookId g.state.currentPlayer g.state.version key)).1
  have hTurn : g.state.currentPlayer = .one := hOpened.turn
  obtain ⟨front, hFront⟩ : ∃ front, front = startupFront solitary pool ++ [⟨⟨manager, pool⟩,
    bare solitary 0, .look .abort, (some g.publicProjection : Option _)⟩, ⟨⟨manager, pool⟩,
      bare solitary 0, .look .resign, (some g.publicProjection : Option _)⟩] := ⟨_, rfl⟩
  have hGrounds : groundsOf front = ⟨some rivalStatus,
      some (.setSeatStatus .two (.failed "agent_unavailable")), false, some g.publicProjection⟩ := by
    rw [hFront]
    rfl
  refine ⟨actions, front, _, back, snapshot, ?_, ?_, ?_, ?_, hMoved, ?_⟩
  · rw [hPool]
    exact hGame.hosts
  · rw [hPool, hFront, List.append_assoc]
    exact hTrace
  · rw [hGrounds]
    rfl
  · rw [hGrounds]
    refine ⟨rfl, _, rfl, ?_⟩
    rw [show g.publicProjection.state.currentPlayer = .one from hTurn]
    decide
  · exact hTurn ▸ lostBy_of_moved hSound hGame hOpened.active rfl hMoved

/-- A missing agent does not lose when the human is to move. -/
theorem missing_agent_spared : ∃ history front event back snapshot,
    (runMatch hookAccess "spectator" 0).trace
      (host (serviceReferee hookInstallation hookAccess.publicViewer) hookAccess.publicViewer.gameId)
      (bare solitary) ⟨rivalManager, (service hookInstallation).after .empty history⟩ =
        front ++ event :: back ∧
    (groundsOf front).Blames .two ∧ Moved hookInstallation hookAccess event snapshot ∧
    ¬ LostBy .two snapshot := by
  obtain ⟨history, front, event, back, snapshot, hHosts, hTrace, hBlames, hMisses, hMoved, -⟩ :=
    exists_blamed
  exact ⟨history, front, event, back, snapshot, hTrace, hBlames, hMoved, fun hLost =>
    (blamed_seat_loses hookInstallation history hookAccess "spectator" 0 rivalManager (bare solitary)
      hHosts front back event hTrace .two snapshot hBlames hMoved).mp hLost hMisses⟩

/-- The runner ends a match because of an agent, and the agent does not lose it. -/
theorem blamed_seat_wins : ¬ ∀ (inst : Installation) (history : List ServiceAction)
    (access : CreatedGameAccess) (spectatorCapability : String) (rounds : Nat)
    (manager : AgentMatchManager) (inputs : Nat → HostInput ServiceInput)
    (front back : List RefereeEvent) (event : RefereeEvent) (seat : Seat) (snapshot : GameSnapshot),
    Hosts access ((service inst).after .empty history).store →
    (runMatch access spectatorCapability rounds).trace
      (host (serviceReferee inst access.publicViewer) access.publicViewer.gameId) inputs
      ⟨manager, (service inst).after .empty history⟩ = front ++ event :: back →
    (groundsOf front).Blames seat → Moved inst access event snapshot → LostBy seat snapshot := by
  intro hClaim
  obtain ⟨history, front, event, back, snapshot, hHosts, hTrace, hBlames, -, hMoved, hLost⟩ :=
    exists_blamed
  have hNever := hClaim hookInstallation history hookAccess "spectator" 0 rivalManager (bare solitary)
    front back event .two snapshot hHosts hTrace hBlames hMoved
  exact absurd (hLost.unique hNever) (by decide)

end WordArena.Server
