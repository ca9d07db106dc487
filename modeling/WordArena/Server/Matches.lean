import Mathlib.Data.List.AList
import WordArena.Server.Handlers

/-! Agent-managed matches: what the manager keeps of them. Activity logs are left
out, since nothing reads them back, and so is the archive, a copy of the statuses. -/
namespace WordArena.Server

open WordArena.Engine WordArena.Lexicon WordArena.Application WordArena.Service

inductive AgentHarnessId where
  | codex
  | claudeCode
  | cline
  | pi
deriving DecidableEq, Repr

/-- What the probe of one command line tool found. -/
structure AgentCatalogEntry where
  id : AgentHarnessId
  available : Bool
  compatible : Bool
  version : Option String
deriving DecidableEq, Repr

inductive AgentSeatSelection where
  | agent (harness : AgentHarnessId) (model : Option String)
  | human (name : String)
deriving DecidableEq, Repr

def AgentSeatSelection.isHuman : AgentSeatSelection → Bool
  | .agent _ _ => false
  | .human _ => true

structure CreateAgentMatchRequest where
  language : Language
  mode : GameMode
  seats : List AgentSeatSelection
  idempotencyKey : IdempotencyKey
deriving DecidableEq

inductive AgentSeatStatusKind where
  | queued
  | starting
  | ready
  | thinking
  | waitingForHuman
  | finished
  | failed (code : String)
deriving DecidableEq, Repr

def AgentSeatStatusKind.isFailed : AgentSeatStatusKind → Bool
  | .failed _ => true
  | _ => false

structure AgentSeatStatus where
  seat : Seat
  participant : AgentSeatSelection
  status : AgentSeatStatusKind
deriving DecidableEq, Repr

inductive AgentMatchLifecycle where
  | active
  | finished
  | interrupted
deriving DecidableEq, Repr

structure AgentMatchStatus where
  schemaVersion : UInt16
  gameId : GameId
  language : Language
  mode : GameMode
  phase : GamePhase
  orchestration : AgentMatchLifecycle
  version : UInt64
  currentSeat : Seat
  scores : List Int32
  createdAt : UnixMillis
  updatedAt : UnixMillis
  seats : List AgentSeatStatus
deriving DecidableEq

/-- The raw token of an agent's seat, until the agent is started with it. -/
structure PendingAgentCapability where
  raw : String
  expiresAt : UnixMillis
deriving DecidableEq

structure AgentMatchManager where
  statuses : AList fun _ : GameId => AgentMatchStatus
  capabilities : AList fun _ : GameId × Seat => PendingAgentCapability

def AgentMatchManager.empty : AgentMatchManager := ⟨∅, ∅⟩

/-! The status of one match. -/

def initialSeatStatus : AgentSeatSelection → AgentSeatStatusKind
  | .agent _ _ => .queued
  | .human _ => .waitingForHuman

def initialStatus (gameId : GameId) (language : Language) (publicView : PublicProjection)
    (seats : List AgentSeatSelection) (createdAt : UnixMillis) : AgentMatchStatus where
  schemaVersion := apiSchemaVersion
  gameId := gameId
  language := language
  mode := publicView.state.mode
  phase := publicView.state.phase
  orchestration := .active
  version := publicView.state.version
  currentSeat := publicView.state.currentPlayer
  scores := publicView.state.scores.map (·.value)
  createdAt := createdAt
  updatedAt := createdAt
  seats := List.zipWith (fun seat participant => ⟨seat, participant, initialSeatStatus participant⟩)
    Seat.all seats

/-- What a runner reports of its match. -/
inductive MatchUpdate where
  | setSeatStatus (seat : Seat) (status : AgentSeatStatusKind)
  | updatePublic (publicView : PublicProjection)
  | failAgents (code : String)
  | finishSeats
deriving DecidableEq

def AgentMatchStatus.setSeatStatus (status : AgentMatchStatus) (seat : Seat)
    (kind : AgentSeatStatusKind) : AgentMatchStatus :=
  { status with seats := status.seats.modify seat.index fun entry => { entry with status := kind } }

def AgentMatchStatus.updatePublic (status : AgentMatchStatus) (publicView : PublicProjection) :
    AgentMatchStatus :=
  { status with
    phase := publicView.state.phase
    orchestration := if publicView.state.phase = .finished then .finished else status.orchestration
    version := publicView.state.version
    currentSeat := publicView.state.currentPlayer
    scores := publicView.state.scores.map (·.value) }

def AgentMatchStatus.failAgents (status : AgentMatchStatus) (code : String) : AgentMatchStatus :=
  { status with
    seats := status.seats.map fun entry =>
      if entry.participant.isHuman = true then entry else { entry with status := .failed code } }

/-- The last part of `finish_agents`. -/
def AgentMatchStatus.finishSeats (status : AgentMatchStatus) : AgentMatchStatus :=
  { status with
    seats := status.seats.map fun entry =>
      if entry.status.isFailed = true then entry else { entry with status := .finished } }

def AgentMatchStatus.apply (status : AgentMatchStatus) (now : UnixMillis) (update : MatchUpdate) :
    AgentMatchStatus :=
  let updated := match update with
    | .setSeatStatus seat kind => status.setSeatStatus seat kind
    | .updatePublic publicView => status.updatePublic publicView
    | .failAgents code => status.failAgents code
    | .finishSeats => status.finishSeats
  { updated with updatedAt := now }

/-! The manager. -/

namespace AgentMatchManager

variable (manager : AgentMatchManager)

def status (gameId : GameId) : Option AgentMatchStatus := manager.statuses.lookup gameId

def insert (status : AgentMatchStatus) : AgentMatchManager :=
  { manager with statuses := manager.statuses.insert status.gameId status }

/-- An update of a match the manager does not know is lost. -/
def update (gameId : GameId) (now : UnixMillis) (change : MatchUpdate) : AgentMatchManager :=
  match manager.status gameId with
  | some status =>
      { manager with statuses := manager.statuses.insert gameId (status.apply now change) }
  | none => manager

def registerAgentCapability (gameId : GameId) (seat : Seat) (pending : PendingAgentCapability) :
    AgentMatchManager :=
  { manager with capabilities := manager.capabilities.insert (gameId, seat) pending }

/-- Starting an agent takes its token away. -/
def takeCapability (gameId : GameId) (seat : Seat) :
    Option PendingAgentCapability × AgentMatchManager :=
  (manager.capabilities.lookup (gameId, seat),
    { manager with capabilities := manager.capabilities.erase (gameId, seat) })

end AgentMatchManager

end WordArena.Server
