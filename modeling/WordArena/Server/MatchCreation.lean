import WordArena.Server.Matches
import WordArena.Service.Linearity
import WordArena.Service.Solo

/-! Creation of agent-managed matches. Only the creation of the game inside is
deduplicated. What follows it, the capabilities, the status and the runner, is done
by every request that gets a game, in steps that interleave with everything else. -/
namespace WordArena.Server

open Fallible WordArena.Engine WordArena.Lexicon WordArena.Application WordArena.Service

def publicCapabilityLifetimeMs : Int := 24 * 60 * 60 * 1000

def spectatorCapabilityLifetimeMs : Int := 24 * 60 * 60 * 1000

def seatCapabilityLifetimeMs : Int := 60 * 60 * 1000

/-! Errors. -/

structure ApiError where
  status : Nat
  code : String
  message : String
deriving DecidableEq, Repr

def invalidPayload : ApiError :=
  ⟨400, "invalid_request", "request payload does not match the V1 schema"⟩

def playerCountError : ApiError :=
  ⟨422, "player_count", "a match requires between two and four players"⟩

def agentRequired : ApiError :=
  ⟨422, "agent_required", "an agent-first match requires at least one agent"⟩

def agentUnavailable : ApiError :=
  ⟨422, "agent_unavailable", "a selected agent is unavailable or incompatible"⟩

def timeOverflow : ApiError := ⟨500, "time", "time overflow"⟩

def matchArchiveError : ApiError :=
  ⟨500, "match_archive", "the local match index could not be updated"⟩

/-! Validation. -/

/-- A text a client may name a model or a player with. -/
def validName (maximum : Nat) (value : String) : Bool :=
  value ≠ "" && decide (value.utf8ByteSize ≤ maximum) && isTrimmed value &&
    value.toList.all fun c => !isControl c

def AgentSeatSelection.valid : AgentSeatSelection → Bool
  | .agent _ model => model.all (validName 128)
  | .human name => validName 64 name

def validateMatchSeats (seats : List AgentSeatSelection) : Except ApiError Unit := do
  reject (¬ (2 ≤ seats.length ∧ seats.length ≤ 4)) playerCountError
  reject (1 < (seats.filter (·.isHuman)).length) agentRequired
  reject (∃ seat ∈ seats, seat.valid = false) invalidPayload

def AgentCatalogEntry.runs (entry : AgentCatalogEntry) : AgentSeatSelection → Bool
  | .agent harness _ => entry.id = harness && entry.available && entry.compatible
  | .human _ => false

def validateSelectedAgents (seats : List AgentSeatSelection) (catalog : List AgentCatalogEntry) :
    Except ApiError Unit :=
  reject (∃ seat ∈ seats, seat.isHuman = false ∧ ∀ entry ∈ catalog, entry.runs seat = false)
    agentUnavailable

def CreateAgentMatchRequest.validate (request : CreateAgentMatchRequest)
    (catalog : List AgentCatalogEntry) : Except ApiError Unit := do
  validateMatchSeats request.seats
  validateSelectedAgents request.seats catalog

/-! Requests in progress. -/

/-- Tokens a request has been given so far. -/
structure IssuedCapabilities where
  publicCapability : String
  spectatorCapability : String
  humanCapability : Option String
deriving DecidableEq

structure CreateAgentMatchResponse where
  gameId : GameId
  publicView : PublicProjection
  issued : IssuedCapabilities
  status : AgentMatchStatus
deriving DecidableEq

/-- Where a request stands in `create_agent_match`. -/
inductive MatchStage where
  | invalid (error : ApiError)
  | creating (thread : Nat)
  | refused (error : ApplicationError)
  | created (game : CreatedGame)
  | publicIssued (game : CreatedGame) (publicCapability : String)
  | seating (game : CreatedGame) (issued : IssuedCapabilities) (index : Nat)
  | registering (game : CreatedGame) (issued : IssuedCapabilities) (index : Nat) (raw : String)
  | inserted (game : CreatedGame) (issued : IssuedCapabilities) (status : AgentMatchStatus)
  | done (game : CreatedGame) (response : CreateAgentMatchResponse)
  | failed (game : CreatedGame) (error : ApiError)
deriving DecidableEq

/-- The game a request has got. -/
def MatchStage.game? : MatchStage → Option CreatedGame
  | .invalid _ => none
  | .creating _ => none
  | .refused _ => none
  | .created game => some game
  | .publicIssued game _ => some game
  | .seating game _ _ => some game
  | .registering game _ _ _ => some game
  | .inserted game _ _ => some game
  | .done game _ => some game
  | .failed game _ => some game

def MatchStage.isFailed : MatchStage → Bool
  | .failed _ _ => true
  | _ => false

structure MatchCall where
  request : CreateAgentMatchRequest
  command : CreateGameCommand
  stage : MatchStage
deriving DecidableEq

/-- A runner that was spawned, and the request that did it. -/
structure StartedRunner where
  call : Nat
  access : CreatedGameAccess
  spectatorCapability : String
deriving DecidableEq

/-- What has happened to the status of a game. -/
inductive MatchNote where
  | inserted (gameId : GameId)
  | reported (gameId : GameId)
deriving DecidableEq

/-- The server around its match manager. `notes` records what has happened. -/
structure MatchServer where
  pool : ServicePool
  manager : AgentMatchManager
  calls : List MatchCall
  runners : List StartedRunner
  notes : List MatchNote

def MatchServer.initial : MatchServer := ⟨.empty, .empty, [], [], []⟩

/-! Steps. -/

inductive MatchAction where
  /-- A step of the service, for these or for other calls. -/
  | service (action : ServiceAction)
  | arrive (request : CreateAgentMatchRequest) (catalog : List AgentCatalogEntry) (gameId : GameId)
  | proceed (call : Nat)
  /-- The answer to the next `issue_capability`. -/
  | issue (call : Nat) (answer : Except ApiError String)
  | register (call : Nat)
  | insert (call : Nat) (archived : Bool)
  | start (call : Nat)
  /-- A runner updates the status of its match. -/
  | report (runner : Nat) (now : UnixMillis) (change : MatchUpdate)

def prepareCreate (request : CreateAgentMatchRequest) (gameId : GameId) : CreateGameCommand where
  gameId := gameId
  language := request.language
  mode := request.mode
  playerCount := UInt8.ofNat request.seats.length
  idempotencyKey := request.idempotencyKey

/-- A time so much later, unless the clock word overflows. -/
def expiry (game : CreatedGame) (lifetime : Int) : Except ApiError UnixMillis :=
  if game.createdAt + lifetime < 2 ^ 63 then .ok (game.createdAt + lifetime) else .error timeOverflow

namespace MatchServer

variable (inst : Installation) (s : MatchServer)

def moveTo (i : Nat) (call : MatchCall) (stage : MatchStage) : MatchServer :=
  { s with calls := s.calls.set i { call with stage := stage } }

def arrive (request : CreateAgentMatchRequest) (catalog : List AgentCatalogEntry)
    (gameId : GameId) : MatchServer :=
  let command := prepareCreate request gameId
  match request.validate catalog with
  | .error error => { s with calls := s.calls ++ [⟨request, command, .invalid error⟩] }
  | .ok () =>
      { s with
        pool := ((service inst).step s.pool (.start (.create command))).2
        calls := s.calls ++ [⟨request, command, .creating s.pool.threads.length⟩] }

/-- Take the result of the creation once it is there. -/
def proceed (i : Nat) : MatchServer :=
  match s.calls[i]? with
  | some ⟨request, command, .creating thread⟩ =>
      match s.pool.threads[thread]? with
      | some ⟨_, _, .done (.created (.ok game))⟩ =>
          s.moveTo i ⟨request, command, .creating thread⟩ (.created game)
      | some ⟨_, _, .done (.created (.error error))⟩ =>
          s.moveTo i ⟨request, command, .creating thread⟩ (.refused error)
      | _ => s
  | _ => s

/-- What comes after the answer to an `issue_capability`, unless it cannot be asked
for because its expiry overflows. -/
def issued (i : Nat) (call : MatchCall) (game : CreatedGame) (lifetime : Int)
    (answer : Except ApiError String) (next : String → MatchStage) : MatchServer :=
  match expiry game lifetime, answer with
  | .error error, _ => s.moveTo i call (.failed game error)
  | .ok _, .error error => s.moveTo i call (.failed game error)
  | .ok _, .ok token => s.moveTo i call (next token)

/-- The token of a human seat goes into the response, the token of an agent to the
manager. -/
def seatIssued (call : MatchCall) (game : CreatedGame) (issued : IssuedCapabilities) (index : Nat)
    (token : String) : MatchStage :=
  match call.request.seats[index]? with
  | some (.human _) => .seating game { issued with humanCapability := some token } (index + 1)
  | _ => .registering game issued index token

def issue (i : Nat) (answer : Except ApiError String) : MatchServer :=
  match s.calls[i]? with
  | some call =>
      match call.stage with
      | .created game => s.issued i call game publicCapabilityLifetimeMs answer (.publicIssued game)
      | .publicIssued game token =>
          s.issued i call game spectatorCapabilityLifetimeMs answer fun spectator =>
            .seating game ⟨token, spectator, none⟩ 0
      | .seating game issued index =>
          if index < call.request.seats.length then
            s.issued i call game seatCapabilityLifetimeMs answer (seatIssued call game issued index)
          else s
      | _ => s
  | none => s

def register (i : Nat) : MatchServer :=
  match s.calls[i]? with
  | some call =>
      match call.stage with
      | .registering game issued index raw =>
          { s.moveTo i call (.seating game issued (index + 1)) with
            manager := s.manager.registerAgentCapability game.gameId (Seat.all.getD index .one)
              ⟨raw, game.createdAt + seatCapabilityLifetimeMs⟩ }
      | _ => s
  | none => s

/-- Insert the initial status. It is archived first, and a failure there ends the
request. -/
def insert (i : Nat) (archived : Bool) : MatchServer :=
  match s.calls[i]? with
  | some call =>
      match call.stage with
      | .seating game issued index =>
          if index < call.request.seats.length then s
          else if archived = true then
            let status := initialStatus game.gameId call.request.language game.publicView
              call.request.seats game.createdAt
            { s.moveTo i call (.inserted game issued status) with
              manager := s.manager.insert status
              notes := s.notes ++ [.inserted game.gameId] }
          else s.moveTo i call (.failed game matchArchiveError)
      | _ => s
  | none => s

def start (i : Nat) : MatchServer :=
  match s.calls[i]? with
  | some call =>
      match call.stage with
      | .inserted game issued status =>
          { s.moveTo i call (.done game ⟨game.gameId, game.publicView, issued, status⟩) with
            runners := s.runners ++ [⟨i, game.access, issued.spectatorCapability⟩] }
      | _ => s
  | none => s

def report (k : Nat) (now : UnixMillis) (change : MatchUpdate) : MatchServer :=
  match s.runners[k]? with
  | some runner =>
      { s with
        manager := s.manager.update runner.access.publicViewer.gameId now change
        notes := s.notes ++ [.reported runner.access.publicViewer.gameId] }
  | none => s

def step : MatchAction → MatchServer
  | .service action => { s with pool := ((service inst).step s.pool action).2 }
  | .arrive request catalog gameId => s.arrive inst request catalog gameId
  | .proceed i => s.proceed i
  | .issue i answer => s.issue i answer
  | .register i => s.register i
  | .insert i archived => s.insert i archived
  | .start i => s.start i
  | .report k now change => s.report k now change

end MatchServer

def matchServer (inst : Installation) : Machine MatchServer MatchAction Unit where
  step s action := ((), s.step inst action)

/-! Which requests are the same creation to the service. -/

/-- The digests a creation is deduplicated by: of its key, and of its language, mode
and number of seats. -/
def MatchCall.identity (platform : Platform) (call : MatchCall) : Digest × String :=
  (digestKey platform call.command.idempotencyKey,
    payloadSha256 platform call.command.payload.json)

/-- A request that has got a game. -/
def MatchCall.Applied (call : MatchCall) : Prop := call.stage.game?.isSome = true

def StartedRunner.gameId (runner : StartedRunner) : GameId := runner.access.publicViewer.gameId

namespace MatchServer

variable {inst : Installation} {s t : MatchServer}

/-- One runner for a game, no initial status after a report of a runner, and only
requests for the same seats get the game of a key. -/
structure Idempotent (s : MatchServer) : Prop where
  single : ∀ (k l : Nat) first second, s.runners[k]? = some first → s.runners[l]? = some second →
    first.gameId = second.gameId → k = l
  kept : ∀ front back gameId, s.notes = front ++ .inserted gameId :: back →
    .reported gameId ∉ front
  refused : ∀ (i j : Nat) first second, s.calls[i]? = some first → s.calls[j]? = some second →
    first.request.idempotencyKey = second.request.idempotencyKey → first.Applied → second.Applied →
      first.request.seats = second.request.seats

/-- A request takes its game only if no other request of the same creation has one,
but for failed ones that asked for the same seats. -/
def Permitted (inst : Installation) (s : MatchServer) : MatchAction → Prop
  | .proceed i => ∀ call thread, s.calls[i]? = some call → call.stage = .creating thread →
      ∀ (j : Nat) other, s.calls[j]? = some other → other.Applied →
        other.identity inst.platform = call.identity inst.platform →
          other.stage.isFailed = true ∧ other.request.seats = call.request.seats
  | _ => True

/-! The invariant. -/

structure Sound (inst : Installation) (s : MatchServer) : Prop where
  pool : s.pool.Sound inst .empty
  minted : Minted s.pool.store
  commands : ∀ call ∈ s.calls, call.command.idempotencyKey = call.request.idempotencyKey
  threads : ∀ call ∈ s.calls, ∀ thread, call.stage = .creating thread → ∃ log rest,
    s.pool.threads[thread]? = some (⟨.create call.command, log, rest⟩ : ServiceThread)
  games : ∀ call ∈ s.calls, ∀ game, call.stage.game? = some game →
    CreatedAs inst call.command s.pool.store game
  pairs : ∀ (i j : Nat) first second, i ≠ j → s.calls[i]? = some first → s.calls[j]? = some second →
    first.Applied → second.Applied → first.identity inst.platform = second.identity inst.platform →
      first.request.seats = second.request.seats ∧
        (first.stage.isFailed = true ∨ second.stage.isFailed = true)
  runners : ∀ runner ∈ s.runners, ∃ request command game response,
    s.calls[runner.call]? = some (⟨request, command, .done game response⟩ : MatchCall) ∧
      runner.gameId = game.gameId
  started : (s.runners.map (·.call)).Nodup
  reported : ∀ gameId, .reported gameId ∈ s.notes → ∃ runner ∈ s.runners, runner.gameId = gameId
  kept : ∀ front back gameId, s.notes = front ++ .inserted gameId :: back →
    .reported gameId ∉ front

theorem sound_initial : MatchServer.initial.Sound inst where
  pool := ServicePool.sound_empty inst
  minted := ⟨.nil, fun _ h => absurd h List.not_mem_nil⟩
  commands _ h := absurd h List.not_mem_nil
  threads _ h := absurd h List.not_mem_nil
  games _ h := absurd h List.not_mem_nil
  pairs _ _ _ _ _ h := by cases h
  runners _ h := absurd h List.not_mem_nil
  started := .nil
  reported _ h := absurd h List.not_mem_nil
  kept front back gameId h := by
    cases front with
    | nil => cases h
    | cons note front => cases h

/-- Requests that got the same game are the same creation. -/
theorem Sound.identity (h : s.Sound inst) {first second : MatchCall} {game game' : CreatedGame}
    (hFirst : first ∈ s.calls) (hSecond : second ∈ s.calls) (hGame : first.stage.game? = some game)
    (hGame' : second.stage.game? = some game') (hSame : game.gameId = game'.gameId) :
    first.identity inst.platform = second.identity inst.platform := by
  obtain ⟨hKey, hPayload⟩ :=
    (h.games first hFirst game hGame).same (h.games second hSecond game' hGame') h.minted hSame
  exact Prod.ext hKey hPayload

/-- Requests with one key that got a game are the same creation. -/
theorem Sound.identity_of_key (h : s.Sound inst) {first second : MatchCall}
    (hFirst : first ∈ s.calls) (hSecond : second ∈ s.calls)
    (hKey : first.request.idempotencyKey = second.request.idempotencyKey) (hApplied : first.Applied)
    (hApplied' : second.Applied) :
    first.identity inst.platform = second.identity inst.platform := by
  obtain ⟨game, hGame⟩ := Option.isSome_iff_exists.mp hApplied
  obtain ⟨game', hGame'⟩ := Option.isSome_iff_exists.mp hApplied'
  obtain ⟨row, hRow, -, rfl⟩ := h.games first hFirst game hGame
  obtain ⟨row', hRow', -, rfl⟩ := h.games second hSecond game' hGame'
  rw [h.commands first hFirst] at hRow
  rw [h.commands second hSecond, ← hKey, hRow, Option.some.injEq] at hRow'
  exact h.identity hFirst hSecond hGame hGame' (congrArg (fun row => row.result.gameId) hRow')

/-- Of two requests with one game, one has failed. -/
theorem Sound.failed (h : s.Sound inst) {i j : Nat} {first second : MatchCall}
    {game game' : CreatedGame} (hDistinct : i ≠ j) (hFirst : s.calls[i]? = some first)
    (hSecond : s.calls[j]? = some second) (hGame : first.stage.game? = some game)
    (hGame' : second.stage.game? = some game') (hSame : game.gameId = game'.gameId) :
    first.stage.isFailed = true ∨ second.stage.isFailed = true :=
  (h.pairs i j first second hDistinct hFirst hSecond (Option.isSome_iff_exists.mpr ⟨_, hGame⟩)
    (Option.isSome_iff_exists.mpr ⟨_, hGame'⟩) (h.identity (List.mem_of_getElem? hFirst)
      (List.mem_of_getElem? hSecond) hGame hGame' hSame)).2

theorem Sound.idempotent (h : s.Sound inst) : s.Idempotent where
  single k l first second hFirst hSecond hSame := by
    obtain ⟨request, command, game, response, hCall, hGame⟩ :=
      h.runners first (List.mem_of_getElem? hFirst)
    obtain ⟨request', command', game', response', hCall', hGame'⟩ :=
      h.runners second (List.mem_of_getElem? hSecond)
    have hCalls : first.call = second.call := by
      by_contra hDistinct
      rcases h.failed hDistinct hCall hCall' rfl rfl (hGame.symm.trans (hSame.trans hGame')) with
        hFailed | hFailed
      · cases hFailed
      · cases hFailed
    obtain ⟨hk, -⟩ := List.getElem?_eq_some_iff.mp hFirst
    refine (List.getElem?_inj (by rw [List.length_map]; exact hk) h.started).mp ?_
    rw [List.getElem?_map, List.getElem?_map, hFirst, hSecond, Option.map_some, Option.map_some,
      hCalls]
  kept := h.kept
  refused i j first second hFirst hSecond hKey hApplied hApplied' := by
    by_cases hSame : i = j
    · subst hSame
      rw [hFirst, Option.some.injEq] at hSecond
      rw [hSecond]
    · exact (h.pairs i j first second hSame hFirst hSecond hApplied hApplied'
        (h.identity_of_key (List.mem_of_getElem? hFirst) (List.mem_of_getElem? hSecond) hKey hApplied
          hApplied')).1

/-! The steps. -/

theorem Sound.service (h : s.Sound inst) (action : ServiceAction) :
    { s with pool := ((service inst).step s.pool action).2 }.Sound inst where
  pool := h.pool.step action
  minted := h.minted.step h.pool action
  commands := h.commands
  threads call hCall thread hStage := Pool.step_call (h.threads call hCall thread hStage) action
  games call hCall game hGame := (h.games call hCall game hGame).later (h.pool.grows_after [action])
  pairs := h.pairs
  runners := h.runners
  started := h.started
  reported := h.reported
  kept := h.kept

/-- A new request has no game yet. -/
theorem Sound.append (h : s.Sound inst) {call : MatchCall}
    (hCommand : call.command.idempotencyKey = call.request.idempotencyKey)
    (hGame : call.stage.game? = none) (hThread : ∀ thread, call.stage = .creating thread →
      ∃ log rest, s.pool.threads[thread]? = some (⟨.create call.command, log, rest⟩ : ServiceThread)) :
    { s with calls := s.calls ++ [call] }.Sound inst := by
  have hOld : ∀ (i : Nat) other, (s.calls ++ [call])[i]? = some other → other.Applied →
      s.calls[i]? = some other := by
    intro i other hOther hApplied
    rcases lt_or_ge i s.calls.length with hi | hi
    · rwa [List.getElem?_append_left hi] at hOther
    · rw [List.getElem?_append_right hi, List.getElem?_singleton] at hOther
      split at hOther
      · cases hOther
        rw [MatchCall.Applied, hGame] at hApplied
        cases hApplied
      · cases hOther
  have hMem : ∀ other ∈ s.calls ++ [call], other ∈ s.calls ∨ other = call := by
    intro other hOther
    exact (List.mem_append.mp hOther).imp_right List.mem_singleton.mp
  refine ⟨h.pool, h.minted, fun other hOther => ?_, fun other hOther thread hStage => ?_,
    fun other hOther game hSome => ?_, fun i j first second hDistinct hFirst hSecond hApplied
      hApplied' => h.pairs i j first second hDistinct (hOld i first hFirst hApplied)
        (hOld j second hSecond hApplied') hApplied hApplied', fun runner hRunner => ?_, h.started,
    h.reported, h.kept⟩
  · rcases hMem other hOther with hOther | rfl
    · exact h.commands other hOther
    · exact hCommand
  · rcases hMem other hOther with hOther | rfl
    · exact h.threads other hOther thread hStage
    · exact hThread thread hStage
  · rcases hMem other hOther with hOther | rfl
    · exact h.games other hOther game hSome
    · rw [hGame] at hSome
      cases hSome
  · obtain ⟨request, command, game, response, hCall, hSame⟩ := h.runners runner hRunner
    obtain ⟨hi, -⟩ := List.getElem?_eq_some_iff.mp hCall
    exact ⟨request, command, game, response, by rw [List.getElem?_append_left hi, hCall], hSame⟩

/-- A request that is not done takes a step of its own. -/
theorem Sound.moveTo (h : s.Sound inst) {i : Nat} {call : MatchCall} {stage : MatchStage}
    (hCall : s.calls[i]? = some call) (hDone : ∀ game response, call.stage ≠ .done game response)
    (hThread : ∀ thread, stage ≠ .creating thread)
    (hGame : ∀ game, stage.game? = some game → CreatedAs inst call.command s.pool.store game)
    (hPairs : stage.game?.isSome = true → ∀ (j : Nat) other, s.calls[j]? = some other → j ≠ i →
      other.Applied → other.identity inst.platform = call.identity inst.platform →
        other.request.seats = call.request.seats ∧
          (other.stage.isFailed = true ∨ stage.isFailed = true)) :
    (s.moveTo i call stage).Sound inst := by
  obtain ⟨hi, -⟩ := List.getElem?_eq_some_iff.mp hCall
  have hMem : ∀ other ∈ (s.moveTo i call stage).calls,
      other ∈ s.calls ∨ other = { call with stage := stage } :=
    fun other hOther => List.mem_or_eq_of_mem_set hOther
  have hOwn : (s.moveTo i call stage).calls[i]? = some { call with stage := stage } :=
    List.getElem?_set_self hi
  have hOther : ∀ j, i ≠ j → (s.moveTo i call stage).calls[j]? = s.calls[j]? :=
    fun j hj => List.getElem?_set_ne hj
  have hKnown := List.mem_of_getElem? hCall
  refine ⟨h.pool, h.minted, fun other hMoved => ?_, fun other hMoved thread hStage => ?_,
    fun other hMoved game hSome => ?_,
    fun j k first second hDistinct hFirst hSecond hApplied hApplied' hSame => ?_,
    fun runner hRunner => ?_, h.started, h.reported, h.kept⟩
  · rcases hMem other hMoved with hOld | rfl
    · exact h.commands other hOld
    · exact h.commands call hKnown
  · rcases hMem other hMoved with hOld | rfl
    · exact h.threads other hOld thread hStage
    · exact absurd hStage (hThread thread)
  · rcases hMem other hMoved with hOld | rfl
    · exact h.games other hOld game hSome
    · exact hGame game hSome
  · by_cases hj : i = j
    · subst hj
      rw [hOwn, Option.some.injEq] at hFirst
      subst hFirst
      rw [hOther k hDistinct] at hSecond
      obtain ⟨hSeats, hFailed⟩ := hPairs hApplied k second hSecond (Ne.symm hDistinct) hApplied' hSame.symm
      exact ⟨hSeats.symm, hFailed.symm⟩
    · rw [hOther j hj] at hFirst
      by_cases hk : i = k
      · subst hk
        rw [hOwn, Option.some.injEq] at hSecond
        subst hSecond
        exact hPairs hApplied' j first hFirst hDistinct hApplied hSame
      · rw [hOther k hk] at hSecond
        exact h.pairs j k first second hDistinct hFirst hSecond hApplied hApplied' hSame
  · obtain ⟨request, command, game, response, hStarted, hSame⟩ := h.runners runner hRunner
    refine ⟨request, command, game, response, ?_, hSame⟩
    by_cases hj : i = runner.call
    · rw [← hj, hCall, Option.some.injEq] at hStarted
      exact absurd (congrArg MatchCall.stage hStarted) (hDone game response)
    · rw [hOther _ hj, hStarted]

/-- A request goes on with the game it has. -/
theorem Sound.advance (h : s.Sound inst) {i : Nat} {call : MatchCall} (stage : MatchStage)
    {game : CreatedGame} (hCall : s.calls[i]? = some call) (hStage : call.stage.game? = some game)
    (hNext : stage.game? = some game) (hFailed : call.stage.isFailed = false)
    (hDone : ∀ game response, call.stage ≠ .done game response) :
    (s.moveTo i call stage).Sound inst := by
  refine h.moveTo hCall hDone (fun thread hSame => ?_) (fun other hOther => ?_)
    fun _ j other hOther hDistinct hApplied hSame => ?_
  · rw [hSame] at hNext
    cases hNext
  · exact h.games call (List.mem_of_getElem? hCall) other (hStage.trans (hNext.symm.trans hOther))
  · obtain ⟨hSeats, hOne⟩ := h.pairs j i other call hDistinct hOther hCall hApplied
      (Option.isSome_iff_exists.mpr ⟨game, hStage⟩) hSame
    exact ⟨hSeats, hOne.imp_right fun hOwn => absurd (hFailed.symm.trans hOwn) Bool.noConfusion⟩

theorem Sound.arrive (h : s.Sound inst) (request : CreateAgentMatchRequest)
    (catalog : List AgentCatalogEntry) (gameId : GameId) :
    (s.arrive inst request catalog gameId).Sound inst := by
  unfold MatchServer.arrive
  dsimp only
  split
  · exact h.append rfl rfl fun _ hStage => by cases hStage
  · refine (h.service (.start (.create (prepareCreate request gameId)))).append rfl rfl
      fun thread hStage => ?_
    cases hStage
    exact ⟨[], serve inst (.create (prepareCreate request gameId)),
      by simp [Service.service, Pool.machine, Pool.step]⟩

theorem Sound.proceed (h : s.Sound inst) (i : Nat) (hPermitted : s.Permitted inst (.proceed i)) :
    (s.proceed i).Sound inst := by
  unfold MatchServer.proceed
  split
  · rename_i request command thread hCall
    have hThread := h.threads _ (List.mem_of_getElem? hCall) thread rfl
    obtain ⟨log, rest, hThread⟩ := hThread
    split
    · rename_i call log' game hReply
      rw [hThread, Option.some.injEq] at hReply
      cases hReply
      have hCreated : CreatedAs inst command s.pool.store game :=
        h.pool.returned ⟨log, hThread⟩ game rfl
      refine h.moveTo hCall (fun _ _ => MatchStage.noConfusion) (fun _ => MatchStage.noConfusion)
        (fun other hOther => ?_) fun _ j other hOther _ hApplied hSame => ?_
      · cases hOther
        exact hCreated
      · obtain ⟨hFailed, hSeats⟩ := hPermitted _ thread hCall rfl j other hOther hApplied hSame
        exact ⟨hSeats, .inl hFailed⟩
    · exact h.moveTo hCall (fun _ _ => MatchStage.noConfusion) (fun _ => MatchStage.noConfusion)
        (fun other hOther => by cases hOther) fun hSome => by cases hSome
    · exact h
  · exact h

theorem Sound.issued (h : s.Sound inst) {i : Nat} {call : MatchCall} {game : CreatedGame}
    {lifetime : Int} {answer : Except ApiError String} {next : String → MatchStage}
    (hCall : s.calls[i]? = some call) (hStage : call.stage.game? = some game)
    (hNext : ∀ token, (next token).game? = some game) (hFailed : call.stage.isFailed = false)
    (hDone : ∀ game response, call.stage ≠ .done game response) :
    (s.issued i call game lifetime answer next).Sound inst := by
  unfold MatchServer.issued
  split
  · exact h.advance _ hCall hStage rfl hFailed hDone
  · exact h.advance _ hCall hStage rfl hFailed hDone
  · exact h.advance _ hCall hStage (hNext _) hFailed hDone

theorem seatIssued_game (call : MatchCall) (game : CreatedGame) (issued : IssuedCapabilities)
    (index : Nat) (token : String) :
    (seatIssued call game issued index token).game? = some game := by
  unfold seatIssued
  split <;> rfl

theorem Sound.issue (h : s.Sound inst) (i : Nat) (answer : Except ApiError String) :
    (s.issue i answer).Sound inst := by
  unfold MatchServer.issue
  split
  · rename_i call hCall
    split
    · rename_i game hStage
      exact h.issued hCall (by rw [hStage]; rfl) (fun _ => rfl) (by rw [hStage]; rfl)
        fun _ _ => by rw [hStage]; exact MatchStage.noConfusion
    · rename_i game token hStage
      exact h.issued hCall (by rw [hStage]; rfl) (fun _ => rfl) (by rw [hStage]; rfl)
        fun _ _ => by rw [hStage]; exact MatchStage.noConfusion
    · rename_i game issued index hStage
      split
      · exact h.issued hCall (by rw [hStage]; rfl) (seatIssued_game call game issued index)
          (by rw [hStage]; rfl) fun _ _ => by rw [hStage]; exact MatchStage.noConfusion
      · exact h
    · exact h
  · exact h

theorem Sound.withManager (h : s.Sound inst) (manager : AgentMatchManager) :
    { s with manager := manager }.Sound inst :=
  ⟨h.pool, h.minted, h.commands, h.threads, h.games, h.pairs, h.runners, h.started, h.reported, h.kept⟩

theorem Sound.register (h : s.Sound inst) (i : Nat) : (s.register i).Sound inst := by
  unfold MatchServer.register
  split
  · rename_i call hCall
    split
    · rename_i game issued index raw hStage
      exact (h.withManager _).advance _ hCall (by rw [hStage]; rfl) rfl (by rw [hStage]; rfl)
        fun _ _ => by rw [hStage]; exact MatchStage.noConfusion
    · exact h
  · exact h

/-- One more note, which is no initial status of a game that was reported. -/
theorem kept_append {notes : List MatchNote} {note : MatchNote}
    (hKept : ∀ front back gameId, notes = front ++ .inserted gameId :: back →
      .reported gameId ∉ front)
    (hNew : ∀ gameId, note = .inserted gameId → .reported gameId ∉ notes) :
    ∀ front back gameId, notes ++ [note] = front ++ .inserted gameId :: back →
      .reported gameId ∉ front := by
  intro front back gameId hNotes
  rcases List.eq_nil_or_concat back with rfl | ⟨back, last, rfl⟩
  · obtain ⟨rfl, hLast⟩ := List.append_inj' hNotes rfl
    exact hNew gameId (List.singleton_inj.mp hLast)
  · rw [List.concat_eq_append, ← List.cons_append, ← List.append_assoc] at hNotes
    exact hKept front back gameId (List.append_inj' hNotes rfl).1

theorem Sound.insert (h : s.Sound inst) (i : Nat) (archived : Bool) :
    (s.insert i archived).Sound inst := by
  unfold MatchServer.insert
  split
  · rename_i call hCall
    split
    · rename_i game issued index hStage
      have hGame : call.stage.game? = some game := by rw [hStage]; rfl
      have hFailed : call.stage.isFailed = false := by rw [hStage]; rfl
      have hDone : ∀ game response, call.stage ≠ .done game response := by
        intro _ _
        rw [hStage]
        exact MatchStage.noConfusion
      split
      · exact h
      · dsimp only
        split
        · have hMoved := h.advance (.inserted game issued (initialStatus game.gameId
            call.request.language game.publicView call.request.seats game.createdAt)) hCall hGame rfl
            hFailed hDone
          -- The runner of an earlier report belongs to a request with the same game.
          have hFresh : .reported game.gameId ∉ s.notes := by
            intro hReported
            obtain ⟨runner, hRunner, hSame⟩ := h.reported _ hReported
            obtain ⟨request, command, game', response, hOther, hGame'⟩ := h.runners runner hRunner
            have hDistinct : runner.call ≠ i := by
              intro hSameCall
              rw [hSameCall, hCall, Option.some.injEq] at hOther
              exact hDone game' response (congrArg MatchCall.stage hOther)
            rcases h.failed hDistinct hOther hCall rfl hGame (hGame'.symm.trans hSame) with hOne | hOne
            · cases hOne
            · exact absurd (hFailed.symm.trans hOne) Bool.noConfusion
          refine ⟨hMoved.pool, hMoved.minted, hMoved.commands, hMoved.threads, hMoved.games,
            hMoved.pairs, hMoved.runners, hMoved.started, fun gameId hReported => ?_,
            kept_append h.kept fun gameId hNote => ?_⟩
          · rcases List.mem_append.mp hReported with hOld | hNew
            · exact h.reported gameId hOld
            · cases List.mem_singleton.mp hNew
          · cases hNote
            exact hFresh
        · exact h.advance _ hCall hGame rfl hFailed hDone
    · exact h
  · exact h

theorem Sound.start (h : s.Sound inst) (i : Nat) : (s.start i).Sound inst := by
  unfold MatchServer.start
  split
  · rename_i call hCall
    split
    · rename_i game issued status hStage
      obtain ⟨hi, -⟩ := List.getElem?_eq_some_iff.mp hCall
      have hGame : call.stage.game? = some game := by rw [hStage]; rfl
      have hDone : ∀ game response, call.stage ≠ .done game response := by
        intro _ _
        rw [hStage]
        exact MatchStage.noConfusion
      have hMoved := h.advance (.done game ⟨game.gameId, game.publicView, issued, status⟩) hCall hGame
        rfl (by rw [hStage]; rfl) hDone
      refine ⟨hMoved.pool, hMoved.minted, hMoved.commands, hMoved.threads, hMoved.games, hMoved.pairs,
        fun runner hRunner => ?_, ?_, fun gameId hReported => ?_, h.kept⟩
      · rcases List.mem_append.mp hRunner with hOld | hNew
        · exact hMoved.runners runner hOld
        · rw [List.mem_singleton.mp hNew]
          obtain ⟨row, -, -, rfl⟩ := h.games call (List.mem_of_getElem? hCall) game hGame
          exact ⟨call.request, call.command, _, _, List.getElem?_set_self hi, rfl⟩
      · rw [List.map_append, List.map_singleton, List.nodup_append]
        refine ⟨h.started, List.nodup_singleton _, fun j hOld k hNew hSame => ?_⟩
        obtain ⟨runner, hRunner, rfl⟩ := List.mem_map.mp hOld
        obtain ⟨request, command, game', response, hOther, -⟩ := h.runners runner hRunner
        rw [hSame, List.mem_singleton.mp hNew, hCall, Option.some.injEq] at hOther
        exact hDone game' response (congrArg MatchCall.stage hOther)
      · obtain ⟨runner, hRunner, hSame⟩ := h.reported gameId hReported
        exact ⟨runner, List.mem_append_left _ hRunner, hSame⟩
    · exact h
  · exact h

theorem Sound.report (h : s.Sound inst) (k : Nat) (now : UnixMillis) (change : MatchUpdate) :
    (s.report k now change).Sound inst := by
  unfold MatchServer.report
  split
  · rename_i runner hRunner
    refine ⟨h.pool, h.minted, h.commands, h.threads, h.games, h.pairs, h.runners, h.started,
      fun gameId hReported => ?_, kept_append h.kept fun gameId hNote => by cases hNote⟩
    rcases List.mem_append.mp hReported with hOld | hNew
    · exact h.reported gameId hOld
    · cases List.mem_singleton.mp hNew
      exact ⟨runner, List.mem_of_getElem? hRunner, rfl⟩
  · exact h

theorem Sound.step (h : s.Sound inst) {action : MatchAction} (hPermitted : s.Permitted inst action) :
    (s.step inst action).Sound inst := by
  cases action with
  | service action => exact h.service action
  | arrive request catalog gameId => exact h.arrive request catalog gameId
  | proceed i => exact h.proceed i hPermitted
  | issue i answer => exact h.issue i answer
  | register i => exact h.register i
  | insert i archived => exact h.insert i archived
  | start i => exact h.start i
  | report k now change => exact h.report k now change

end MatchServer

/-- In every run in which no request takes a game that another one has, match
creation is idempotent. -/
theorem match_creation_idempotent (inst : Installation) (actions : List MatchAction)
    (hPermitted : (matchServer inst).Conform (MatchServer.Permitted inst) .initial actions) :
    ((matchServer inst).after .initial actions).Idempotent := by
  have hSound : ((matchServer inst).after .initial actions).Sound inst :=
    Machine.after_conform _ (fun _ _ hStep h => h.step hStep) MatchServer.sound_initial hPermitted
  exact hSound.idempotent

/-! A match that is asked for twice. -/

namespace MatchServer

variable {inst : Installation} {s : MatchServer}

/-- Steps of the service alone. -/
theorem after_service (s : MatchServer) (actions : List ServiceAction) :
    (matchServer inst).after s (actions.map .service) =
      { s with pool := (service inst).after s.pool actions } := by
  induction actions generalizing s with
  | nil => rfl
  | cons action actions ih =>
      rw [List.map_cons, Machine.after_cons, ih]
      rfl

end MatchServer

def hookMatch : CreateAgentMatchRequest where
  language := .english
  mode := .practice
  seats := [.agent .codex none, .human "Ada"]
  idempotencyKey := hookCreate.idempotencyKey

def hookCatalog : List AgentCatalogEntry := [⟨.codex, true, true, some "1.0.0"⟩]

theorem hookMatch_valid : hookMatch.validate hookCatalog = .ok () := by
  decide +kernel

/-- All that a request does once its game is there. -/
def finishing (i : Nat) : List MatchAction :=
  [.proceed i, .issue i (.ok "public"), .issue i (.ok "spectator"), .issue i (.ok "codex"), .register i,
    .issue i (.ok "human"), .insert i true, .start i]

theorem expiry_ok {game : CreatedGame} {lifetime : Int} (hTime : game.createdAt = 0)
    (hShort : lifetime < 2 ^ 63) : expiry game lifetime = .ok lifetime := by
  rw [expiry, hTime, Int.zero_add, if_pos hShort]

namespace MatchServer

variable {inst : Installation} {s : MatchServer} {i : Nat} {call : MatchCall} {game : CreatedGame}

theorem moveTo_calls (hi : i < s.calls.length) (stage : MatchStage) :
    (s.moveTo i call stage).calls[i]? = some { call with stage := stage } :=
  List.getElem?_set_self hi

theorem moveTo_moveTo (stage stage' : MatchStage) :
    (s.moveTo i call stage).moveTo i { call with stage := stage } stage' = s.moveTo i call stage' := by
  rw [moveTo, moveTo, moveTo, List.set_set]

/-- What one answered `issue_capability` does to a request that just moved. -/
theorem issued_moved (hTime : game.createdAt = 0) {lifetime : Int} (hShort : lifetime < 2 ^ 63)
    (stage : MatchStage) (token : String) (next : String → MatchStage) :
    (s.moveTo i call stage).issued i { call with stage := stage } game lifetime (.ok token) next =
      s.moveTo i call (next token) := by
  unfold issued
  rw [expiry_ok hTime hShort]
  exact moveTo_moveTo stage (next token)

end MatchServer

/-- A request that is left alone spawns a runner. -/
theorem finishing_starts {inst : Installation} {s : MatchServer} {i thread : Nat}
    {command : CreateGameCommand} {game : CreatedGame} {served : ServiceCall} {log : Log}
    (hCall : s.calls[i]? = some ⟨hookMatch, command, .creating thread⟩)
    (hReply : s.pool.threads[thread]? =
      some (⟨served, log, .done (.created (.ok game))⟩ : ServiceThread))
    (hTime : game.createdAt = 0) :
    ∃ response, ((matchServer inst).after s (finishing i)).calls =
        s.calls.set i ⟨hookMatch, command, .done game response⟩ ∧
      ((matchServer inst).after s (finishing i)).pool = s.pool ∧
      ((matchServer inst).after s (finishing i)).runners =
        s.runners ++ [⟨i, game.access, "spectator"⟩] := by
  obtain ⟨hi, -⟩ := List.getElem?_eq_some_iff.mp hCall
  have hProceed : s.proceed i =
      s.moveTo i ⟨hookMatch, command, .creating thread⟩ (.created game) := by
    simp only [MatchServer.proceed, hCall, hReply]
  have hPublic : (s.moveTo i ⟨hookMatch, command, .creating thread⟩ (.created game)).issue i
      (.ok "public") =
      s.moveTo i ⟨hookMatch, command, .creating thread⟩ (.publicIssued game "public") := by
    rw [MatchServer.issue, MatchServer.moveTo_calls hi]
    exact MatchServer.issued_moved hTime (by decide) _ _ _
  have hSpectator : (s.moveTo i ⟨hookMatch, command, .creating thread⟩
      (.publicIssued game "public")).issue i (.ok "spectator") =
      s.moveTo i ⟨hookMatch, command, .creating thread⟩
        (.seating game ⟨"public", "spectator", none⟩ 0) := by
    rw [MatchServer.issue, MatchServer.moveTo_calls hi]
    exact MatchServer.issued_moved hTime (by decide) _ _ fun spectator =>
      .seating game ⟨"public", spectator, none⟩ 0
  have hAgent : (s.moveTo i ⟨hookMatch, command, .creating thread⟩
      (.seating game ⟨"public", "spectator", none⟩ 0)).issue i (.ok "codex") =
      s.moveTo i ⟨hookMatch, command, .creating thread⟩
        (.registering game ⟨"public", "spectator", none⟩ 0 "codex") := by
    rw [MatchServer.issue, MatchServer.moveTo_calls hi]
    exact MatchServer.issued_moved hTime (by decide) _ _ _
  obtain ⟨t, hCalls, hPool, hRunners, hRegister⟩ : ∃ t : MatchServer, t.calls = s.calls ∧
      t.pool = s.pool ∧ t.runners = s.runners ∧
      (s.moveTo i ⟨hookMatch, command, .creating thread⟩
        (.registering game ⟨"public", "spectator", none⟩ 0 "codex")).register i =
      t.moveTo i ⟨hookMatch, command, .creating thread⟩
        (.seating game ⟨"public", "spectator", none⟩ 1) := by
    rw [MatchServer.register, MatchServer.moveTo_calls hi]
    dsimp only
    rw [MatchServer.moveTo_moveTo]
    exact ⟨{ s with
      manager := s.manager.registerAgentCapability game.gameId .one
        ⟨"codex", game.createdAt + seatCapabilityLifetimeMs⟩ }, rfl, rfl, rfl, rfl⟩
  have ht : i < t.calls.length := by rw [hCalls]; exact hi
  have hHuman : (t.moveTo i ⟨hookMatch, command, .creating thread⟩
      (.seating game ⟨"public", "spectator", none⟩ 1)).issue i (.ok "human") =
      t.moveTo i ⟨hookMatch, command, .creating thread⟩
        (.seating game ⟨"public", "spectator", some "human"⟩ 2) := by
    rw [MatchServer.issue, MatchServer.moveTo_calls ht]
    exact MatchServer.issued_moved hTime (by decide) _ _ _
  obtain ⟨u, status, hCalls', hPool', hRunners', hInsert⟩ : ∃ (u : MatchServer) (status : _),
      u.calls = t.calls ∧ u.pool = t.pool ∧ u.runners = t.runners ∧
      (t.moveTo i ⟨hookMatch, command, .creating thread⟩
        (.seating game ⟨"public", "spectator", some "human"⟩ 2)).insert i true =
      u.moveTo i ⟨hookMatch, command, .creating thread⟩
        (.inserted game ⟨"public", "spectator", some "human"⟩ status) := by
    rw [MatchServer.insert, MatchServer.moveTo_calls ht]
    dsimp only
    rw [if_neg (by decide), if_pos rfl, MatchServer.moveTo_moveTo]
    exact ⟨{ t with
      manager := t.manager.insert (initialStatus game.gameId hookMatch.language game.publicView
        hookMatch.seats game.createdAt)
      notes := t.notes ++ [.inserted game.gameId] }, _, rfl, rfl, rfl, rfl⟩
  have hu : i < u.calls.length := by rw [hCalls']; exact ht
  have hStart : (u.moveTo i ⟨hookMatch, command, .creating thread⟩
      (.inserted game ⟨"public", "spectator", some "human"⟩ status)).start i =
      { u.moveTo i ⟨hookMatch, command, .creating thread⟩ (.done game ⟨game.gameId, game.publicView,
          ⟨"public", "spectator", some "human"⟩, status⟩) with
        runners := u.runners ++ [⟨i, game.access, "spectator"⟩] } := by
    rw [MatchServer.start, MatchServer.moveTo_calls hu]
    dsimp only
    rw [MatchServer.moveTo_moveTo]
    rfl
  have hAfter : (matchServer inst).after s (finishing i) =
      ((((((((s.proceed i).issue i (.ok "public")).issue i (.ok "spectator")).issue i
        (.ok "codex")).register i).issue i (.ok "human")).insert i true).start i) := rfl
  rw [hAfter, hProceed, hPublic, hSpectator, hAgent, hRegister, hHuman, hInsert, hStart]
  refine ⟨⟨game.gameId, game.publicView, ⟨"public", "spectator", some "human"⟩, status⟩, ?_,
    hPool'.trans hPool, ?_⟩
  · change u.calls.set i _ = _
    rw [hCalls', hCalls]
  · change u.runners ++ _ = _
    rw [hRunners', hRunners]

/-- A creation that is stored already is answered from the store. -/
theorem runs_stored {inst : Installation} {inputs : Nat → Input} {command : CreateGameCommand}
    {store : Store} {created : CreatedGame} (h : CreatedAs inst command store created) :
    Runs inst inputs (createGame inst command) store (.ok created) store := by
  obtain ⟨row, hRow, hPayload, rfl⟩ := h
  refine Runs.ask_bind ?_
  have hLookup : loadCreationIdempotency store (digestKey inst.platform command.idempotencyKey)
      (payloadSha256 inst.platform command.payload.json) = .found row.result := by
    rw [loadCreationIdempotency, hRow]
    exact if_neg (not_not.mpr hPayload)
  change Runs inst _ (Service.settle (creationReply (loadCreationIdempotency store _ _)) >>= _) store _
    store
  rw [hLookup]
  exact Runs.value Runs.settle

/-- A match that one request has created. -/
structure Hosted (actions : List MatchAction) (store : Store) (game : CreatedGame) : Prop where
  calls : ∃ response, ((matchServer hookInstallation).after .initial actions).calls =
    [⟨hookMatch, hookCreate, .done game response⟩]
  pool : ∃ log, ((matchServer hookInstallation).after .initial actions).pool =
    ⟨store, [⟨.create hookCreate, log, .done (.created (.ok game))⟩]⟩
  runners : ((matchServer hookInstallation).after .initial actions).runners =
    [⟨0, game.access, "spectator"⟩]
  permitted : (matchServer hookInstallation).Conform (MatchServer.Permitted hookInstallation) .initial
    actions
  time : game.createdAt = 0

/-- Only taking a game asks for anything. -/
theorem conform_free {inst : Installation} {s : MatchServer} {actions : List MatchAction}
    (h : ∀ action ∈ actions, ∀ i, action ≠ .proceed i) :
    (matchServer inst).Conform (MatchServer.Permitted inst) s actions := by
  induction actions generalizing s with
  | nil => trivial
  | cons action actions ih =>
      refine ⟨?_, ih fun other hOther => h other (List.mem_cons_of_mem _ hOther)⟩
      cases action with
      | proceed i => exact absurd rfl (h _ List.mem_cons_self i)
      | _ => trivial

/-- A request arrives, and the service goes on for some steps. -/
theorem after_arrive {inst : Installation} (s : MatchServer) (gameId : GameId)
    (actions : List ServiceAction) :
    (matchServer inst).after s (.arrive hookMatch hookCatalog gameId :: actions.map .service) =
      { s with
        pool := (service inst).after s.pool
          (.start (.create (prepareCreate hookMatch gameId)) :: actions)
        calls := s.calls ++ [⟨hookMatch, prepareCreate hookMatch gameId,
          .creating s.pool.threads.length⟩] } := by
  have hStep : ((matchServer inst).step s (.arrive hookMatch hookCatalog gameId)).2 =
      { s with
        pool := ((service inst).step s.pool (.start (.create (prepareCreate hookMatch gameId)))).2
        calls := s.calls ++ [⟨hookMatch, prepareCreate hookMatch gameId,
          .creating s.pool.threads.length⟩] } := by
    change s.arrive inst hookMatch hookCatalog gameId = _
    rw [MatchServer.arrive, hookMatch_valid]
  rw [Machine.after_cons, hStep, MatchServer.after_service]
  rfl

theorem exists_hosted : ∃ actions store game, Hosted actions store game := by
  obtain ⟨game, store, record, g, hRun, hTime, -⟩ := exists_dealt 0 (by decide)
  obtain ⟨first, log, hFirst⟩ := exists_served .empty (serve_alone_create hRun)
  have hArrived := @after_arrive hookInstallation .initial hookId first
  have hPool : (service hookInstallation).after MatchServer.initial.pool
      (.start (.create (prepareCreate hookMatch hookId)) :: first) =
        ⟨store, [⟨.create hookCreate, log, .done (.created (.ok game))⟩]⟩ := hFirst
  rw [hPool] at hArrived
  obtain ⟨response, hCalls, hAlone, hRunners⟩ := @finishing_starts hookInstallation
    { MatchServer.initial with
      pool := ⟨store, [⟨.create hookCreate, log, .done (.created (.ok game))⟩]⟩
      calls := [⟨hookMatch, hookCreate, .creating 0⟩] }
    0 0 hookCreate game (.create hookCreate) log rfl rfl hTime
  have hBoth := (matchServer hookInstallation).after_append .initial
    (.arrive hookMatch hookCatalog hookId :: first.map .service) (finishing 0)
  rw [hArrived] at hBoth
  refine ⟨.arrive hookMatch hookCatalog hookId :: first.map .service ++ finishing 0, store, game,
    ⟨response, ?_⟩, ⟨log, ?_⟩, ?_, ?_, hTime⟩
  · rw [hBoth]
    exact hCalls
  · rw [hBoth]
    exact hAlone
  · rw [hBoth]
    exact hRunners
  · rw [Machine.conform_append, hArrived]
    refine ⟨conform_free fun action hAction i => ?_, ?_, conform_free fun action hAction i => ?_⟩
    · rcases List.mem_cons.mp hAction with rfl | hService
      · exact MatchAction.noConfusion
      · obtain ⟨other, -, rfl⟩ := List.mem_map.mp hService
        exact MatchAction.noConfusion
    · intro call thread hCall hStage j other hOther hApplied
      cases j with
      | zero =>
          cases hOther
          cases hApplied
      | succ j => cases hOther
    · simp only [List.mem_cons, List.not_mem_nil, or_false] at hAction
      rcases hAction with rfl | rfl | rfl | rfl | rfl | rfl | rfl <;> exact MatchAction.noConfusion

/-- The match of one request keeps one runner. -/
theorem hosted_match_idempotent : ∃ (actions : List MatchAction) (game : CreatedGame),
    ((matchServer hookInstallation).after .initial actions).runners =
      [⟨0, game.access, "spectator"⟩] ∧
    ((matchServer hookInstallation).after .initial actions).Idempotent := by
  obtain ⟨actions, store, game, hHosted⟩ := exists_hosted
  exact ⟨actions, game, hHosted.runners,
    match_creation_idempotent hookInstallation actions hHosted.permitted⟩

def otherId : GameId := ⟨"other", by decide⟩

/-- A request that is sent again starts another runner of its game. -/
theorem retry_starts_again :
    ¬ ∀ (inst : Installation) (actions : List MatchAction),
      ((matchServer inst).after .initial actions).Idempotent := by
  intro h
  obtain ⟨actions, store, game, hHosted⟩ := exists_hosted
  obtain ⟨response, hCalls⟩ := hHosted.calls
  obtain ⟨log, hPool⟩ := hHosted.pool
  have hStored : CreatedAs hookInstallation (prepareCreate hookMatch otherId) store game := by
    have hSound : ((matchServer hookInstallation).after .initial actions).Sound hookInstallation :=
      Machine.after_conform _ (fun _ _ hStep h => h.step hStep) MatchServer.sound_initial
        hHosted.permitted
    have hGame := hSound.games _ (hCalls ▸ List.mem_singleton_self _) game rfl
    rw [hPool] at hGame
    exact hGame
  obtain ⟨second, log', hSecond⟩ := @exists_served hookInstallation (standing 0)
    ⟨store, [⟨.create hookCreate, log, .done (.created (.ok game))⟩]⟩ _ _ _
    (serve_alone_create (runs_stored hStored))
  have hArrived := @after_arrive hookInstallation
    ((matchServer hookInstallation).after .initial actions) otherId second
  rw [hPool, hSecond, hCalls] at hArrived
  obtain ⟨response', -, -, hRunners⟩ := @finishing_starts hookInstallation _ 1 1
    (prepareCreate hookMatch otherId) game (.create (prepareCreate hookMatch otherId)) log'
    (congrArg (fun s : MatchServer => s.calls[1]?) hArrived)
    (congrArg (fun s : MatchServer => s.pool.threads[1]?) hArrived) hHosted.time
  have hTwo := (h hookInstallation (actions ++
    (.arrive hookMatch hookCatalog otherId :: second.map .service ++ finishing 1))).single 0 1
      ⟨0, game.access, "spectator"⟩ ⟨1, game.access, "spectator"⟩
  rw [Machine.after_append, Machine.after_append, hRunners, hArrived] at hTwo
  have hSame := hTwo (by rw [hHosted.runners]; rfl) (by rw [hHosted.runners]; rfl) rfl
  cases hSame

end WordArena.Server
