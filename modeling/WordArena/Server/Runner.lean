import WordArena.Agent.Process
import WordArena.Library.Sequential
import WordArena.Server.Matches

/-! The runner of an agent-managed match. It is a program over single requests to
what surrounds it: the manager, the workspaces and drivers, and the service. Agents
are known by their seats. -/
namespace WordArena.Service

open WordArena.Engine

def CreatedGameAccess.seat (access : CreatedGameAccess) (seat : Seat) :
    Option CompetitiveSeatCredential :=
  access.seats[seat.index]?

end WordArena.Service

namespace WordArena.Server

open WordArena.Engine WordArena.Lexicon WordArena.Application WordArena.Service WordArena.Agent

inductive WorkspaceOutcome where
  | completed
  | failed
deriving DecidableEq, Repr

/-! Texts. -/

def seatNumber (seat : Seat) : Nat := seat.index + 1

def turnPromptTemplate : String :=
  "You are playing one Word Arena turn. Use only the word_arena MCP server. " ++
  "Follow the explicit game-language guidance below. Observe the game and your private rack, " ++
  "inspect the rules when useful, then submit exactly one legal action. Keep trying legal actions " ++
  "until one is accepted. Never ask for human input and never stop before the referee accepts a move."

def languageTurnGuidance : Language → String
  | .english => "English: play only legal English words."
  | .french =>
      "French: play only legal French words. Board and rack tiles use physical unaccented A-Z " ++
      "letters; the offline French lexicon performs the game's documented normalization."
  | .german => "German: play only legal German words."
  | .spanish => "Spanish: play only legal Spanish words."

def turnPrompt (gameId : GameId) (seat : Seat) (version : UInt64) (language : Language) : String :=
  s!"{turnPromptTemplate}\n\n{languageTurnGuidance language}\nGame: {gameId.asStr}\n" ++
    s!"Seat: {seatNumber seat}\nAuthoritative version: {version}"

/-! Requests. -/

/-- What a runner needs before it starts any agent. -/
inductive Preparation where
  | authorityPolicy (spectatorCapability : String)
  | sandbox
  | workspaces
deriving DecidableEq

/-- How a failed preparation is shown, and why it resigns the game. -/
def Preparation.code : Preparation → String
  | .authorityPolicy _ => "authority_policy"
  | .sandbox => "sandbox_unavailable"
  | .workspaces => "workspace_unavailable"

def Preparation.reason : Preparation → String
  | .authorityPolicy _ => "authority-policy"
  | .sandbox => "sandbox-unavailable"
  | .workspaces => "workspace-unavailable"

/-- Steps of the start of an agent after its token was taken. -/
inductive StartStep where
  | capability (pending : PendingAgentCapability)
  | manifest (harness : AgentHarnessId) (model : Option String) (version : String)
  | workspace
  | providerAuth
  | installAuth
  | driver
  | start
deriving DecidableEq

def StartStep.code : StartStep → String
  | .capability _ => "seat_capability_invalid"
  | .manifest .. => "agent_manifest_invalid"
  | .workspace => "workspace_allocation_failed"
  | .providerAuth => "provider_auth_missing"
  | .installAuth => "provider_auth_invalid"
  | .driver => "agent_driver_invalid"
  | .start => "agent_start_failed"

/-- Where the runner looks at the public game. -/
inductive Look where
  | turn
  | outcome
  | abort
  | resign
deriving DecidableEq

inductive RunnerRequest where
  | status
  | prepare (preparation : Preparation)
  | catalog
  | report (change : MatchUpdate)
  | takeCapability (seat : Seat)
  | startStep (seat : Seat) (step : StartStep)
  | look (place : Look)
  | requestTurn (seat : Seat) (request : TurnRequest)
  | act (credential : CompetitiveSeatCredential) (command : GameActionCommand)
  | publish (version : UInt64)
  | terminate (seat : Seat) (reason : TerminationReason)
  | finishLease (seat : Seat) (outcome : WorkspaceOutcome)
  | sleep
deriving DecidableEq

/-- Steps that may fail are answered with whether they succeeded. -/
def RunnerRequest.Response : RunnerRequest → Type
  | .status => Option AgentMatchStatus
  | .prepare _ => Bool
  | .catalog => List AgentCatalogEntry
  | .report _ => Unit
  | .takeCapability _ => Option PendingAgentCapability
  | .startStep _ _ => Bool
  | .look _ => Option PublicProjection
  | .requestTurn _ _ => Bool
  | .act _ _ => Option GameActionResult
  | .publish _ => Unit
  | .terminate _ _ => Unit
  | .finishLease _ _ => Unit
  | .sleep => Unit

abbrev Runner (α : Type) := Program RunnerRequest RunnerRequest.Response α

namespace Runner

def status : Runner (Option AgentMatchStatus) := Program.ask RunnerRequest.status

def prepare (preparation : Preparation) : Runner Bool := Program.ask (RunnerRequest.prepare preparation)

def catalog : Runner (List AgentCatalogEntry) := Program.ask RunnerRequest.catalog

def report (change : MatchUpdate) : Runner Unit := Program.ask (RunnerRequest.report change)

def takeCapability (seat : Seat) : Runner (Option PendingAgentCapability) :=
  Program.ask (RunnerRequest.takeCapability seat)

def startStep (seat : Seat) (step : StartStep) : Runner Bool := Program.ask (RunnerRequest.startStep seat step)

def look (place : Look) : Runner (Option PublicProjection) := Program.ask (RunnerRequest.look place)

def requestTurn (seat : Seat) (request : TurnRequest) : Runner Bool :=
  Program.ask (RunnerRequest.requestTurn seat request)

def act (credential : CompetitiveSeatCredential) (command : GameActionCommand) :
    Runner (Option GameActionResult) :=
  Program.ask (RunnerRequest.act credential command)

def publish (version : UInt64) : Runner Unit := Program.ask (RunnerRequest.publish version)

def terminate (seat : Seat) (reason : TerminationReason) : Runner Unit :=
  Program.ask (RunnerRequest.terminate seat reason)

def finishLease (seat : Seat) (outcome : WorkspaceOutcome) : Runner Unit :=
  Program.ask (RunnerRequest.finishLease seat outcome)

def sleep : Runner Unit := Program.ask RunnerRequest.sleep

end Runner

/-! Ending a match. -/

def orchestratorKey (reason : String) (version : UInt64) : Except ApplicationError IdempotencyKey :=
  IdempotencyKey.new s!"agent-orchestrator-{reason}-{version}"

def resignCommand (gameId : GameId) (seat : Seat) (version : UInt64) (key : IdempotencyKey) :
    GameActionCommand where
  gameId := gameId
  expectedVersion := version
  turn := ⟨version, seat⟩
  idempotencyKey := key
  action := .resign

/-- Whatever keeps the action from being accepted is ignored. -/
def resign (access : CreatedGameAccess) (seat : Seat) (reason : String) : Runner Unit := do
  match ← Runner.look .resign with
  | none => pure ()
  | some view =>
      if view.state.phase = .finished ∨ view.state.currentPlayer ≠ seat then pure ()
      else
        match access.seat seat with
        | none => pure ()
        | some credential =>
            match orchestratorKey reason view.state.version with
            | .error _ => pure ()
            | .ok key => do
                let command := resignCommand access.publicViewer.gameId seat view.state.version key
                match ← Runner.act credential command with
                | none => pure ()
                | some result => do
                    Runner.report (.updatePublic result.game.publicView)
                    Runner.publish result.game.publicView.state.version

/-- Whoever is to move resigns. -/
def abortMatch (access : CreatedGameAccess) (reason : String) : Runner Unit := do
  match ← Runner.look .abort with
  | none => pure ()
  | some view => resign access view.state.currentPlayer reason

/-! Agents. -/

structure RunningAgent where
  seat : Seat
deriving DecidableEq

def workspaceOutcome (status : AgentSeatStatusKind) : WorkspaceOutcome :=
  if status.isFailed = true then .failed else .completed

def RunningAgent.finish (agent : RunningAgent) (outcome : WorkspaceOutcome) : Runner Unit := do
  Runner.terminate agent.seat (if outcome = .failed then .gameEnded else .completed)
  Runner.finishLease agent.seat outcome

def finishEach (outcomes : List WorkspaceOutcome) : List RunningAgent → Runner Unit
  | [] => pure ()
  | agent :: rest => do
      agent.finish (outcomes.getD agent.seat.index .failed)
      finishEach outcomes rest

def finishAgents (agents : List (Option RunningAgent)) : Runner Unit := do
  let status ← Runner.status
  let outcomes := match status with
    | none => List.replicate agents.length WorkspaceOutcome.failed
    | some record => record.seats.map fun seat => workspaceOutcome seat.status
  finishEach outcomes (agents.filterMap id)
  Runner.report .finishSeats

/-! Starting the agents. -/

/-- The first step that fails ends the start with its code. -/
def startSteps (seat : Seat) : List StartStep → Runner (Except String RunningAgent)
  | [] => pure (.ok ⟨seat⟩)
  | step :: rest => do
      match ← Runner.startStep seat step with
      | true => startSteps seat rest
      | false => pure (.error step.code)

/-- Only Codex needs a copy of its login. -/
def startPlan (pending : PendingAgentCapability) (harness : AgentHarnessId) (model : Option String)
    (version : String) : List StartStep :=
  [.capability pending, .manifest harness model version, .workspace] ++
    (if harness = .codex then [.providerAuth, .installAuth] else []) ++ [.driver, .start]

def startAgent (seat : Seat) (harness : AgentHarnessId) (model : Option String) (version : String) :
    Runner (Except String RunningAgent) := do
  match ← Runner.takeCapability seat with
  | none => pure (.error "seat_capability_missing")
  | some pending => startSteps seat (startPlan pending harness model version)

/-- An agent that does not come up ends the match. -/
def failStart (access : CreatedGameAccess) (agents : List (Option RunningAgent)) (seat : Seat)
    (code reason : String) : Runner Unit := do
  Runner.report (.setSeatStatus seat (.failed code))
  abortMatch access reason
  finishAgents agents

def AgentCatalogEntry.serves (entry : AgentCatalogEntry) (harness : AgentHarnessId) : Bool :=
  entry.id = harness && entry.compatible

/-- Start the agents in the order of their seats. -/
def startSeats (access : CreatedGameAccess) (catalog : List AgentCatalogEntry) :
    List (Seat × AgentSeatSelection) → List (Option RunningAgent) →
      Runner (Option (List (Option RunningAgent)))
  | [], agents => pure (some agents)
  | (_, .human _) :: rest, agents => startSeats access catalog rest agents
  | (seat, .agent harness model) :: rest, agents => do
      Runner.report (.setSeatStatus seat .starting)
      match catalog.find? (·.serves harness) with
      | none => do
          failStart access agents seat "agent_unavailable" "agent-unavailable"
          pure none
      | some entry => do
          match ← startAgent seat harness model (entry.version.getD "") with
          | .error code => do
              failStart access agents seat code code
              pure none
          | .ok agent => do
              Runner.report (.setSeatStatus seat .ready)
              startSeats access catalog rest (agents.set seat.index (some agent))

/-! Playing. -/

/-- How one round of the loop ends. -/
inductive Round where
  | again
  | ended
  | panicked
deriving DecidableEq

/-- A turn that did not advance the game ends the match. -/
def failTurn (access : CreatedGameAccess) (seat : Seat) (code reason : String) : Runner Round := do
  Runner.report (.setSeatStatus seat (.failed code))
  resign access seat reason
  pure .again

def turnRequest (gameId : GameId) (language : Language) (seat : Seat) (version : UInt64) :
    TurnRequest where
  turnId := s!"{seatNumber seat}-{version}"
  visibleInput := turnPrompt gameId seat version language

def playTurn (access : CreatedGameAccess) (language : Language) (seat : Seat) (before : UInt64) :
    Runner Round := do
  Runner.report (.setSeatStatus seat .thinking)
  match ← Runner.requestTurn seat (turnRequest access.publicViewer.gameId language seat before) with
  | false => failTurn access seat "agent_turn_failed" "agent-turn-failed"
  | true => do
      match ← Runner.look .outcome with
      | none => failTurn access seat "agent_did_not_move" "agent-did-not-move"
      | some after =>
          if before < after.state.version then do
            Runner.report (.updatePublic after)
            Runner.report (.setSeatStatus seat .ready)
            Runner.publish after.state.version
            pure .again
          else failTurn access seat "agent_did_not_move" "agent-did-not-move"

/-- The source indexes the agents by the seat to move. -/
def playRound (access : CreatedGameAccess) (language : Language)
    (agents : List (Option RunningAgent)) : Runner Round := do
  match ← Runner.look .turn with
  | none => do
      Runner.report (.failAgents "game_unavailable")
      pure .ended
  | some view => do
      Runner.report (.updatePublic view)
      if view.state.phase = .finished then do
        finishAgents agents
        pure .ended
      else
        match agents[view.state.currentPlayer.index]? with
        | none => pure .panicked
        | some none => do
            Runner.report (.setSeatStatus view.state.currentPlayer .waitingForHuman)
            Runner.sleep
            pure .again
        | some (some _) => playTurn access language view.state.currentPlayer view.state.version

/-- The loop, for so many rounds. It has not returned by then when the result is missing,
nor when a round panicked. -/
def playLoop (access : CreatedGameAccess) (language : Language)
    (agents : List (Option RunningAgent)) : Nat → Runner (Option Unit)
  | 0 => pure none
  | rounds + 1 => do
      match ← playRound access language agents with
      | .again => playLoop access language agents rounds
      | .ended => pure (some ())
      | .panicked => pure none

/-! The whole run. -/

/-- A preparation that fails ends the match before any agent is started. -/
def prepareAll (access : CreatedGameAccess) : List Preparation → Runner Bool
  | [] => pure true
  | preparation :: rest => do
      match ← Runner.prepare preparation with
      | true => prepareAll access rest
      | false => do
          Runner.report (.failAgents preparation.code)
          abortMatch access preparation.reason
          pure false

def AgentMatchStatus.participants (status : AgentMatchStatus) : List (Seat × AgentSeatSelection) :=
  Seat.all.zip (status.seats.map (·.participant))

def runMatch (access : CreatedGameAccess) (spectatorCapability : String) (rounds : Nat) :
    Runner (Option Unit) := do
  match ← Runner.status with
  | none => pure (some ())
  | some initial => do
      match ← prepareAll access [.authorityPolicy spectatorCapability, .sandbox, .workspaces] with
      | false => pure (some ())
      | true => do
          let catalog ← Runner.catalog
          match ← startSeats access catalog initial.participants
            (List.replicate initial.seats.length none) with
          | none => pure (some ())
          | some agents => playLoop access initial.language agents rounds

/-! What surrounds a runner. -/

/-- The service, as far as a runner meets it. -/
structure Referee (World Input : Type) where
  look : Input → World → Look → Option PublicProjection × World
  act : Input → World → CompetitiveSeatCredential → GameActionCommand →
    Option GameActionResult × World

structure HostInput (Input : Type) where
  now : UnixMillis
  succeeds : Bool
  catalog : List AgentCatalogEntry
  world : Input

structure HostState (World : Type) where
  manager : AgentMatchManager
  world : World

/-- The manager answers for itself, the referee for the game, and the outside for
everything else. -/
def host {World Input : Type} (referee : Referee World Input) (gameId : GameId) :
    Program.Interface (HostState World) (HostInput Input) RunnerRequest RunnerRequest.Response where
  perform input s
    | .status => (s.manager.status gameId, s)
    | .prepare _ => (input.succeeds, s)
    | .catalog => (input.catalog, s)
    | .report change => ((), { s with manager := s.manager.update gameId input.now change })
    | .takeCapability seat =>
        ((s.manager.takeCapability gameId seat).1,
          { s with manager := (s.manager.takeCapability gameId seat).2 })
    | .startStep _ _ => (input.succeeds, s)
    | .look place =>
        ((referee.look input.world s.world place).1,
          { s with world := (referee.look input.world s.world place).2 })
    | .requestTurn _ _ => (input.succeeds, s)
    | .act credential command =>
        ((referee.act input.world s.world credential command).1,
          { s with world := (referee.act input.world s.world credential command).2 })
    | .publish _ => ((), s)
    | .terminate _ _ => ((), s)
    | .finishLease _ _ => ((), s)
    | .sleep => ((), s)

section

variable {World Input : Type} {referee : Referee World Input} {gameId : GameId}
  {input : HostInput Input} {s : HostState World} {world : World}

theorem host_look {place : Look} {view : Option PublicProjection}
    (h : referee.look input.world s.world place = (view, world)) :
    (host referee gameId).perform input s (.look place) =
      ((view : Option PublicProjection), { s with world := world }) := by
  simp only [host, h]
  rfl

theorem host_act {credential : CompetitiveSeatCredential} {command : GameActionCommand}
    {result : Option GameActionResult}
    (h : referee.act input.world s.world credential command = (result, world)) :
    (host referee gameId).perform input s (.act credential command) =
      ((result : Option GameActionResult), { s with world := world }) := by
  simp only [host, h]
  rfl

end

abbrev RunnerEvent (World Input : Type) :=
  Program.Event (HostState World) (HostInput Input) RunnerRequest RunnerRequest.Response

end WordArena.Server
