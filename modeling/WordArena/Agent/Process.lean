import WordArena.Application.Text
import WordArena.Library.Async

/-! Agent processes and what both drivers keep of a run: the lifecycle, the telemetry and
the process in hand. Processes, the cancellation token and the wall clock of the budget
are outside, so an operation takes a reading of them at each of its await points. -/
namespace WordArena.Agent

open WordArena.Application

def driverCheckpointSchemaVersion : Nat := 1

def driverTelemetrySchemaVersion : Nat := 1

def turnProtocolSchemaVersion : Nat := 1

section Processes

structure ProcessSpec where
  executable : String
  arguments : List String
  workingDirectory : Option String
deriving DecidableEq

structure ProcessHandle where
  value : String
deriving DecidableEq

structure ExitStatus where
  success : Bool
  code : Option Int
  signal : Option Int
deriving DecidableEq

/-- The exit of a process that reported none. -/
def syntheticFailure : ExitStatus := ⟨false, none, none⟩

inductive ProcessEvent where
  | stdout (bytes : List UInt8)
  | stderr (bytes : List UInt8)
  | exited (status : ExitStatus)
deriving DecidableEq

inductive ProcessError where
  | spawn
  | write
  | read
  | terminate
  | reattachUnsupported
  | missing
  | limitExceeded
deriving DecidableEq

def ProcessError.display : ProcessError → String
  | .spawn => "process could not be spawned"
  | .write => "process input could not be written"
  | .read => "process output could not be read"
  | .terminate => "process could not be terminated"
  | .reattachUnsupported => "process cannot be reattached by this adapter"
  | .missing => "process handle no longer exists"
  | .limitExceeded => "process resource budget was exceeded"

/-- A process, known by the place of its acquisition in the log of its driver. -/
structure ProcessInstance where
  place : Nat
deriving DecidableEq

/-- What is outside at one await point: whether the token is cancelled, whether the wall
time is over and how much of it has passed, and what each operation would be answered. -/
structure Moment where
  cancelled : Bool
  deadline : Bool
  elapsedMs : Nat
  spawned : Except ProcessError Unit
  reattached : Except ProcessError Unit
  written : Except ProcessError Unit
  inputClosed : Except ProcessError Unit
  event : Except ProcessError ProcessEvent
  terminated : Except ProcessError ExitStatus

/-- What was done with processes. -/
inductive ProcessAct where
  | spawned (process : ProcessInstance) (spec : ProcessSpec)
  | reattached (process : ProcessInstance) (handle : ProcessHandle)
  | refused
  | wrote (process : ProcessInstance) (bytes : List UInt8)
  | failed (process : ProcessInstance)
  | exited (process : ProcessInstance)
  | terminated (process : ProcessInstance)
deriving DecidableEq

end Processes

section Telemetry

inductive TerminationReason where
  | completed
  | cancelled
  | gameEnded
  | operator
  | budgetExceeded
deriving DecidableEq

inductive DriverLifecycleState where
  | pending
  | starting
  | ready
  | turnRunning (turnId : String)
  | terminating
  | terminated (reason : TerminationReason)
  | crashed (exit : ExitStatus)
deriving DecidableEq

/-- The states of an operation in progress. -/
def DriverLifecycleState.transient : DriverLifecycleState → Bool
  | .starting => true
  | .turnRunning _ => true
  | .terminating => true
  | _ => false

inductive DiagnosticStream where
  | driver
  | stderr
deriving DecidableEq

structure DiagnosticRecord where
  sequence : Nat
  atUnixMs : Int
  stream : DiagnosticStream
  code : String
  visibleText : String
deriving DecidableEq

structure VisibleToolCall where
  tool : String
  arguments : String
  result : String
deriving DecidableEq

structure VisibleTurnOutput where
  schemaVersion : Nat
  turnId : String
  visibleOutput : String
  toolCalls : List VisibleToolCall
deriving DecidableEq

structure TurnRequest where
  turnId : String
  visibleInput : String
deriving DecidableEq

structure TurnTelemetry where
  turnId : String
  startedAtUnixMs : Int
  completedAtUnixMs : Int
  visibleInput : String
  visibleOutput : String
  toolCalls : List VisibleToolCall
deriving DecidableEq

structure LifecycleTransition where
  sequence : Nat
  atUnixMs : Int
  state : DriverLifecycleState
deriving DecidableEq

structure AgentManifestIdentity where
  schemaVersion : Nat
  hashAlgorithm : String
  manifestSha256 : String
deriving DecidableEq

structure DriverTelemetry where
  schemaVersion : Nat
  runId : String
  manifest : AgentManifestIdentity
  restarts : Nat
  lifecycle : List LifecycleTransition
  turns : List TurnTelemetry
  diagnostics : List DiagnosticRecord
deriving DecidableEq

inductive DriverError where
  | unsupportedHarness
  | invalidTransition (operation : String) (state : DriverLifecycleState)
  | cancelled
  | process (e : ProcessError)
  | unexpectedExit (exit : ExitStatus)
  | invalidFrame
  | frameTooLarge
  | turnMismatch
  | invalidCheckpoint
  | harnessUnavailable (harness executable : String)
  | harnessVersionUnparseable (harness : String)
  | harnessVersionUnsupported (harness installed minimum : String)
  | harnessVersionMismatch (harness expected installed : String)
  | harnessExit (harness : String) (exit : ExitStatus)
  | harnessOutput (harness : String)
  | invalidHarnessRuntime
  | budgetExceeded
deriving DecidableEq

end Telemetry

section Budget

inductive BudgetDimension where
  | wallTime
  | cpuTime
  | memory
  | networkBytes
  | inputTokens
  | outputTokens
  | attempts
  | toolCalls
  | outputBytes
  | cost
deriving DecidableEq

structure BudgetLimitEvent where
  sequence : Nat
  atUnixMs : Int
  dimension : BudgetDimension
  limit : Nat
  observed : Nat
  source : String
deriving DecidableEq

/-- The budget controller that a driver shares with its process adapter: limits, the clock
as it is read for each event, `u64` counters, and the limits that were reached. -/
structure BudgetController where
  limits : BudgetDimension → Nat
  clock : Nat → Int
  consumption : BudgetDimension → Nat
  limitEvents : List BudgetLimitEvent

def BudgetController.new (limits : BudgetDimension → Nat) (clock : Nat → Int) : BudgetController :=
  ⟨limits, clock, fun _ => 0, []⟩

def saturatingAdd (left right : Nat) : Nat := min (left + right) (2 ^ 64 - 1)

def BudgetController.recordLimit (c : BudgetController) (dimension : BudgetDimension)
    (observed : Nat) (source : String) : BudgetController :=
  { c with limitEvents := c.limitEvents ++
      [⟨c.limitEvents.length, c.clock c.limitEvents.length, dimension, c.limits dimension, observed,
        source⟩] }

/-- Consumption is counted first, and the limit is checked against the count. -/
def BudgetController.addAndCheck (c : BudgetController) (dimension : BudgetDimension)
    (amount : Nat) (source : String) : Bool × BudgetController :=
  let observed := saturatingAdd (c.consumption dimension) amount
  let counted := { c with
    consumption := fun other => if other = dimension then observed else c.consumption other }
  if c.limits dimension < observed then (false, counted.recordLimit dimension observed source)
  else (true, counted)

def BudgetController.beginAttempt (c : BudgetController) : Bool × BudgetController :=
  c.addAndCheck .attempts 1 "driver_turn_boundary"

def BudgetController.recordToolCalls (c : BudgetController) (count : Nat) :
    Bool × BudgetController :=
  c.addAndCheck .toolCalls count "normalized_visible_tool_calls"

def BudgetController.recordOutputBytes (c : BudgetController) (count : Nat) :
    Bool × BudgetController :=
  c.addAndCheck .outputBytes count "process_stream_meter"

def BudgetController.recordNetworkBytes (c : BudgetController) (count : Nat) :
    Bool × BudgetController :=
  c.addAndCheck .networkBytes count "platform_network_meter"

/-- The loop over reported fields. It leaves at the first one that is above its limit. -/
def BudgetController.addEach (c : BudgetController) (source : String) :
    List (BudgetDimension × Option Nat) → Bool × BudgetController
  | [] => (true, c)
  | (_, none) :: rest => c.addEach source rest
  | (dimension, some value) :: rest =>
      match c.addAndCheck dimension value source with
      | (false, c) => (false, c)
      | (true, c) => c.addEach source rest

def BudgetController.recordReportedUsage (c : BudgetController)
    (inputTokens outputTokens costMicrousd : Option Nat) : Bool × BudgetController :=
  c.addEach "provider_reported_usage"
    [(.inputTokens, inputTokens), (.outputTokens, outputTokens), (.cost, costMicrousd)]

structure BudgetTelemetry where
  consumption : BudgetDimension → Nat
  limitEvents : List BudgetLimitEvent

/-- The wall time is read when a snapshot is taken, and is kept. -/
def BudgetController.snapshot (c : BudgetController) (elapsedMs : Nat) :
    BudgetTelemetry × BudgetController :=
  let measured := { c with consumption := fun other =>
    if other = .wallTime then min elapsedMs (2 ^ 64 - 1) else c.consumption other }
  (⟨measured.consumption, measured.limitEvents⟩, measured)

/-- The wall time is over. The first such event is kept. -/
def BudgetController.recordWallTimeout (c : BudgetController) (elapsedMs : Nat) :
    BudgetController :=
  if c.limitEvents.any (·.dimension == .wallTime) then c
  else c.recordLimit .wallTime
    (max elapsedMs (saturatingAdd (c.limits .wallTime) 1)) "tokio_deadline"

end Budget

section Worlds

/-- What both drivers keep. The injected clock is read once for every record. -/
structure DriverCore where
  clock : Nat → Int
  readings : Nat
  state : DriverLifecycleState
  manifest : AgentManifestIdentity
  process : Option ProcessInstance
  runId : String
  telemetry : DriverTelemetry

/-- A driver with what it was told by its adapter and the controller of its budget. -/
structure World (Own : Type) where
  core : DriverCore
  own : Own
  acts : List ProcessAct
  budget : BudgetController

abbrev Op (Own : Type) := Async (World Own) Moment DriverError

variable {Own : Type}

def DriverCore.transition (d : DriverCore) (state : DriverLifecycleState) : DriverCore :=
  { d with
    readings := d.readings + 1
    state := state
    telemetry := { d.telemetry with lifecycle := d.telemetry.lifecycle ++
      [⟨d.telemetry.lifecycle.length, d.clock d.readings, state⟩] } }

def DriverCore.diagnostic (d : DriverCore) (stream : DiagnosticStream)
    (code visibleText : String) : DriverCore :=
  { d with
    readings := d.readings + 1
    telemetry := { d.telemetry with diagnostics := d.telemetry.diagnostics ++
      [⟨d.telemetry.diagnostics.length, d.clock d.readings, stream, code, visibleText⟩] } }

/-- One more restart, counted in a `u32`. -/
def DriverCore.restarted (d : DriverCore) : DriverCore :=
  { d with telemetry := { d.telemetry with
    restarts := min (d.telemetry.restarts + 1) (2 ^ 32 - 1) } }

def DriverCore.completed (d : DriverCore) (request : TurnRequest) (startedAtUnixMs : Int)
    (output : VisibleTurnOutput) : DriverCore :=
  { d with
    readings := d.readings + 1
    telemetry := { d.telemetry with turns := d.telemetry.turns ++
      [⟨request.turnId, startedAtUnixMs, d.clock d.readings, request.visibleInput,
        output.visibleOutput, output.toolCalls⟩] } }

def World.withCore (w : World Own) (core : DriverCore) : World Own := { w with core := core }

def update (f : DriverCore → DriverCore) : Op Own Unit :=
  Async.modify fun w => w.withCore (f w.core)

def transition (state : DriverLifecycleState) : Op Own Unit := update (·.transition state)

def diagnostic (stream : DiagnosticStream) (code visibleText : String) : Op Own Unit :=
  update (·.diagnostic stream code visibleText)

def hold (process : Option ProcessInstance) : Op Own Unit :=
  update fun d => { d with process := process }

/-- The injected clock, read once. -/
def readClock : Op Own Int := do
  let w ← Async.get
  update fun d => { d with readings := d.readings + 1 }
  return w.core.clock w.core.readings

def record (act : ProcessAct) : Op Own Unit :=
  Async.modify fun w => { w with acts := w.acts ++ [act] }

/-- The lifecycle of a new driver. -/
def DriverCore.fresh (clock : Nat → Int) (manifest : AgentManifestIdentity) (runId : String) :
    DriverCore where
  clock := clock
  readings := 1
  state := .pending
  manifest := manifest
  process := none
  runId := runId
  telemetry := ⟨driverTelemetrySchemaVersion, runId, manifest, 0, [⟨0, clock 0, .pending⟩], [], []⟩

end Worlds

section Adapter

/-- Processes come from the adapter directly or through the meter of the budget. -/
inductive Backend where
  | plain
  | budgeted
deriving DecidableEq

variable {Own : Type}

/-- A process that the adapter hands out is numbered by the log. -/
def settle (answer : Except ProcessError Unit) (act : ProcessInstance → ProcessAct) :
    Op Own (Except ProcessError ProcessInstance) := do
  let w ← Async.get
  match answer with
  | .ok _ => do
      record (act ⟨w.acts.length⟩)
      return .ok ⟨w.acts.length⟩
  | .error e => do
      record .refused
      return .error e

def terminateProcess (process : ProcessInstance) : Op Own (Except ProcessError ExitStatus) := do
  record (.terminated process)
  let moment ← Async.await
  return moment.terminated

def recordWallTimeout (elapsedMs : Nat) : Op Own Unit :=
  Async.modify fun w => { w with budget := w.budget.recordWallTimeout elapsedMs }

def spawn (backend : Backend) (spec : ProcessSpec) :
    Op Own (Except ProcessError ProcessInstance) := do
  let moment ← Async.await
  if backend = .budgeted ∧ moment.deadline = true then do
    recordWallTimeout moment.elapsedMs
    return .error .limitExceeded
  else settle moment.spawned (.spawned · spec)

def reattach (handle : ProcessHandle) : Op Own (Except ProcessError ProcessInstance) := do
  let moment ← Async.await
  settle moment.reattached (.reattached · handle)

def write (process : ProcessInstance) (bytes : List UInt8) : Op Own (Except ProcessError Unit) := do
  let moment ← Async.await
  record (.wrote process bytes)
  return moment.written

def closeInput (process : ProcessInstance) : Op Own (Except ProcessError Unit) := do
  let moment ← Async.await
  match moment.inputClosed with
  | .ok _ => return .ok ()
  | .error e => do
      record (.failed process)
      return .error e

/-- What the process itself reports. -/
def report (process : ProcessInstance) (event : Except ProcessError ProcessEvent) :
    Op Own (Except ProcessError ProcessEvent) :=
  match event with
  | .ok (.exited status) => do
      record (.exited process)
      return .ok (.exited status)
  | .error e => do
      record (.failed process)
      return .error e
  | event => return event

/-- A process whose budget is used up is terminated before its event is shown. -/
def overrun (process : ProcessInstance) : Op Own (Except ProcessError ProcessEvent) := do
  let _ ← terminateProcess process
  return .error .limitExceeded

def meter (process : ProcessInstance) (event : ProcessEvent) (bytes : List UInt8) :
    Op Own (Except ProcessError ProcessEvent) := do
  let w ← Async.get
  Async.modify fun w => { w with budget := (w.budget.recordOutputBytes bytes.length).2 }
  if (w.budget.recordOutputBytes bytes.length).1 = true then return .ok event
  else overrun process

def nextEvent (backend : Backend) (process : ProcessInstance) :
    Op Own (Except ProcessError ProcessEvent) := do
  let moment ← Async.await
  match backend, moment.event with
  | .plain, event => report process event
  | .budgeted, event =>
      if moment.deadline = true then do
        recordWallTimeout moment.elapsedMs
        overrun process
      else
        match event with
        | .ok (.stdout bytes) => meter process (.stdout bytes) bytes
        | .ok (.stderr bytes) => meter process (.stderr bytes) bytes
        | event => report process event

end Adapter

/-- The token wins every race. -/
def race {Own α : Type} (m : Op Own α) : Op Own (Option α) := Async.select (·.cancelled) m

end WordArena.Agent
