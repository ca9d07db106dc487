import WordArena.Agent.Process
import WordArena.Library.Fallible
import WordArena.Library.Bytes
import WordArena.Library.Replace

/-! The secrets of a seat workspace and the process adapter that removes them from the
output of agents. Texts are their bytes. -/
namespace WordArena.Agent

open Fallible

section Secrets

inductive WorkspaceError where
  | invalidCapability
  | forbiddenAuthority
  | invalidProviderCredential
  | filesystem
  | corrupt
deriving DecidableEq

def isLowerHex (value : List UInt8) (length : Nat) : Bool :=
  decide (value.length = length) &&
    value.all fun byte => (decide (48 ≤ byte) && decide (byte ≤ 57)) ||
      (decide (97 ≤ byte) && decide (byte ≤ 102))

/-- The first part of a capability, `wa_cap_v1`. -/
def capabilityTag : List UInt8 := [119, 97, 95, 99, 97, 112, 95, 118, 49]

def validWire (raw : List UInt8) : Bool :=
  match raw.splitOn 46 with
  | [tag, id, secret] => decide (tag = capabilityTag) && isLowerHex id 32 && isLowerHex secret 64
  | _ => false

/-- A seat capability is on the wire in its exact form. -/
structure SeatCapability where
  raw : List UInt8
  expiresAtUnixMs : Int
  wire : validWire raw = true

/-- A parsed provider document. -/
inductive JsonValue where
  | null
  | bool (value : Bool)
  | number (text : String)
  | string (text : String)
  | array (values : List JsonValue)
  | object (values : List (String × JsonValue))

mutual

/-- The strings of a document that are long enough to be secrets. -/
def collectJsonRedactions : JsonValue → List (List UInt8)
  | .object values => collectFields values
  | .array values => collectValues values
  | .string text => if 8 ≤ (Bytes.utf8 text).length then [Bytes.utf8 text] else []
  | .null => []
  | .bool _ => []
  | .number _ => []

def collectValues : List JsonValue → List (List UInt8)
  | [] => []
  | value :: values => collectJsonRedactions value ++ collectValues values

def collectFields : List (String × JsonValue) → List (List UInt8)
  | [] => []
  | (_, value) :: values => collectJsonRedactions value ++ collectFields values

end

def asciiAlphanumeric (byte : UInt8) : Bool :=
  (decide (48 ≤ byte) && decide (byte ≤ 57)) || (decide (65 ≤ byte) && decide (byte ≤ 90)) ||
    (decide (97 ≤ byte) && decide (byte ≤ 122))

def validFileName (name : List UInt8) : Bool :=
  decide (name ≠ []) && decide (name.length ≤ 64) && decide (47 ∉ name) && decide (92 ∉ name) &&
    decide (name.head? ≠ some 46) &&
    name.all fun byte => asciiAlphanumeric byte || byte == 46 || byte == 95 || byte == 45

/-- What a lease redacts from the output of its processes. -/
structure SeatWorkspaceLease where
  redactions : List (List UInt8)

def SeatWorkspaceLease.new (capability : SeatCapability) : SeatWorkspaceLease := ⟨[capability.raw]⟩

/-- The outside of an installation: the authorities that may not reach an agent, the JSON
reader, and the file system. -/
structure Provider where
  forbidden : List UInt8 → Bool
  parse : List UInt8 → Option JsonValue
  written : Except WorkspaceError Unit

def SeatWorkspaceLease.installProviderJson (lease : SeatWorkspaceLease) (provider : Provider)
    (fileName : String) (bytes : List UInt8) : Except WorkspaceError SeatWorkspaceLease := do
  reject (validFileName (Bytes.utf8 fileName) = false ∨ bytes = [] ∨ 1048576 < bytes.length)
    .invalidProviderCredential
  reject (provider.forbidden bytes = true) .forbiddenAuthority
  let value ← okOr (provider.parse bytes) .invalidProviderCredential
  reject (collectJsonRedactions value = []) .invalidProviderCredential
  provider.written
  return ⟨lease.redactions ++ collectJsonRedactions value⟩

end Secrets

section Redactor

/-- `[REDACTED]` -/
def redactedMarker : List UInt8 := [91, 82, 69, 68, 65, 67, 84, 69, 68, 93]

def redactionStreamChunkBytes : Nat := 16384

def redactBytes (value : List UInt8) (secrets : List (List UInt8)) : List UInt8 :=
  Replace.replaceAll (secrets.filter fun secret => !secret.isEmpty) redactedMarker value

structure RedactingProcess where
  secrets : List (List UInt8)
  stdout : List UInt8
  stderr : List UInt8
  queued : List ProcessEvent

def RedactingProcess.new (secrets : List (List UInt8)) : RedactingProcess := ⟨secrets, [], [], []⟩

/-- The first line of a buffer, and the rest of it. -/
def takeLine (buffer : List UInt8) (secrets : List (List UInt8)) :
    Option (List UInt8 × List UInt8) :=
  match buffer.idxOf? 10 with
  | none => none
  | some newline => some (redactBytes (buffer.take (newline + 1)) secrets, buffer.drop (newline + 1))

/-- Most of a long buffer without a line end. As much as the longest secret might need is
kept. -/
def takeBoundedChunk (buffer : List UInt8) (secrets : List (List UInt8)) :
    Option (List UInt8 × List UInt8) :=
  if buffer.length ≤ redactionStreamChunkBytes then none
  else
    let retained := (secrets.map List.length).max?.getD 0 - 1
    let emitted := buffer.length - retained
    some (buffer.take emitted, buffer.drop emitted)

def appendRedacted (buffer bytes : List UInt8) (secrets : List (List UInt8)) : List UInt8 :=
  redactBytes (buffer ++ bytes) secrets

namespace RedactingProcess

def flush (event : List UInt8 → ProcessEvent) (buffer : List UInt8) (secrets : List (List UInt8)) :
    List ProcessEvent :=
  if buffer = [] then [] else [event (redactBytes buffer secrets)]

def queueExit (p : RedactingProcess) (exit : ExitStatus) : RedactingProcess :=
  { p with
    stdout := []
    stderr := []
    queued := p.queued ++ flush .stdout p.stdout p.secrets ++ flush .stderr p.stderr p.secrets ++
      [.exited exit] }

/-- The event that can be shown without reading the process. -/
def ready (p : RedactingProcess) : Option (ProcessEvent × RedactingProcess) :=
  match p.queued with
  | event :: queued => some (event, { p with queued := queued })
  | [] =>
      match takeLine p.stdout p.secrets, takeLine p.stderr p.secrets,
        takeBoundedChunk p.stdout p.secrets, takeBoundedChunk p.stderr p.secrets with
      | some (line, rest), _, _, _ => some (.stdout line, { p with stdout := rest })
      | none, some (line, rest), _, _ => some (.stderr line, { p with stderr := rest })
      | none, none, some (chunk, rest), _ => some (.stdout chunk, { p with stdout := rest })
      | none, none, none, some (chunk, rest) => some (.stderr chunk, { p with stderr := rest })
      | none, none, none, none => none

def absorb (p : RedactingProcess) : ProcessEvent → RedactingProcess
  | .stdout bytes => { p with stdout := appendRedacted p.stdout bytes p.secrets }
  | .stderr bytes => { p with stderr := appendRedacted p.stderr bytes p.secrets }
  | .exited exit => p.queueExit exit

/-- The next event, given what the process goes on to report. -/
def nextEvent (p : RedactingProcess) :
    List ProcessEvent → Option (ProcessEvent × RedactingProcess × List ProcessEvent)
  | [] => p.ready.map fun shown => (shown.1, shown.2, [])
  | event :: events =>
      match p.ready with
      | some shown => some (shown.1, shown.2, event :: events)
      | none => (p.absorb event).nextEvent events

/-- What some calls show. -/
def shown (p : RedactingProcess) (events : List ProcessEvent) : Nat → List ProcessEvent
  | 0 => []
  | n + 1 =>
      match p.nextEvent events with
      | none => []
      | some (event, p, events) => event :: p.shown events n

end RedactingProcess

inductive Stream where
  | stdout
  | stderr
deriving DecidableEq

def Stream.event : Stream → List UInt8 → ProcessEvent
  | .stdout => .stdout
  | .stderr => .stderr

def Stream.buffer (p : RedactingProcess) : Stream → List UInt8
  | .stdout => p.stdout
  | .stderr => p.stderr

/-- The bytes of an event on a stream. -/
def Stream.bytes (stream : Stream) : ProcessEvent → List UInt8
  | .stdout bytes => if stream = .stdout then bytes else []
  | .stderr bytes => if stream = .stderr then bytes else []
  | .exited _ => []

/-- A process that writes some chunks and exits. -/
def chunked (chunks : List (Stream × List UInt8)) (exit : ExitStatus) : List ProcessEvent :=
  chunks.map (fun chunk => chunk.1.event chunk.2) ++ [.exited exit]

end Redactor

end WordArena.Agent
