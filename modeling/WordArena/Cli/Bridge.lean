import WordArena.Cli.Notifications
import WordArena.Library.Mailbox

/-! The stdio bridge: a loop that posts the lines of its input, a writer, and a forwarder of
notifications that shares the channel to the writer with the loop. Each step ends one await. -/
namespace WordArena.Cli

open Fallible
open Mailbox (Box)

section Messages

/-- What is used of JSON values. Only objects have members. -/
structure JsonAccess extends SerdeJson where
  isObject : Value → Bool
  get : Value → String → Option Value
  asStr : Value → Option String

/-- The configuration that requests are made with. -/
structure RemoteClient where
  json : JsonAccess
  mcpUrl : Except CliError String
  token : Except CliError String

/-- A response before its body is read. Headers that are no texts are absent. -/
structure Response where
  status : Nat
  session : Option String
  contentType : Option String

/-- The answer to a request, if there is one. -/
def sendMcp : Option Response → Except CliError Response
  | none => .error (.remote ⟨none, none, "MCP server is unavailable"⟩)
  | some response =>
      if response.status = 401 ∨ response.status = 403 then .error .authentication
      else .ok response

def maxResponseBytes : Nat := 4 * 1024 * 1024

/-- The chunks of a body; a chunk that is missing is a failure of the connection. -/
def boundedBody (chunks : List (Option (List UInt8))) : Except CliError (List UInt8) :=
  chunks.foldlM (fun bytes chunk => do
    let chunk ← okOr chunk (.remote ⟨none, none, "response stream failed"⟩)
    reject (maxResponseBytes < bytes.length + chunk.length) (.protocol "response exceeded 4 MiB")
    return bytes ++ chunk) []

def fromSlice (serde : SerdeJson) (bytes : List UInt8) : Option serde.Value :=
  (Bytes.decode bytes).bind serde.fromStr

def remoteMcpError (json : JsonAccess) (status : Nat) (bytes : List UInt8) : CliError :=
  let payload := fromSlice json.toSerdeJson bytes
  let code := (payload.bind fun value => json.get value "code").bind json.asStr
  .remote ⟨some status, code, "MCP server rejected the request"⟩

def responseFrames (json : JsonAccess) (response : Response)
    (chunks : List (Option (List UInt8))) : Except CliError (List String) :=
  if response.status = 202 ∨ response.status = 204 then .ok []
  else do
    let contentType := response.contentType.getD ""
    let bytes ← boundedBody chunks
    reject (response.status < 200 ∨ 300 ≤ response.status)
      (remoteMcpError json response.status bytes)
    if "text/event-stream".toList.isPrefixOf contentType.toList then
      parseSseBytes json.toSerdeJson bytes
    else if bytes = [] then return []
    else
      let value ← okOr (fromSlice json.toSerdeJson bytes)
        (.protocol "MCP server returned invalid JSON")
      return [json.toString value]

def validateJsonRpc (json : JsonAccess) (frame : String) : Except CliError Unit := do
  let value ← okOr (json.fromStr frame) (.protocol "stdin frame is not valid JSON")
  reject (json.isObject value = false) (.protocol "stdin frame must be a JSON object")
  reject ((json.get value "jsonrpc").bind json.asStr ≠ some "2.0" ∨
      (json.get value "method").bind json.asStr = none)
    (.protocol "stdin frame must be a JSON-RPC 2.0 request or notification")

/-- What a line of the input is to the loop. An empty read is the end of the input. -/
inductive Line where
  | ended
  | oversized
  | blank
  | frame (text : String)
deriving DecidableEq

def readLine (line : String) : Line :=
  if line = "" then .ended
  else if maxFrameBytes < (Bytes.utf8 line).length then .oversized
  else
    let frame := String.ofList
      (line.toList.reverse.dropWhile fun c => c == '\x0d' || c == '\n').reverse
    if frame = "" then .blank else .frame frame

/-- What is checked of a frame before it is posted. -/
def checkFrame (client : RemoteClient) (frame : String) : Except CliError Unit := do
  validateJsonRpc client.json frame
  let _ ← client.mcpUrl
  let _ ← client.token

end Messages

section State

/-- A frame on its way to the output, and whether it belongs to a response. -/
structure Frame where
  text : String
  response : Bool
deriving DecidableEq

/-- Where the loop waits, or how it was left. -/
inductive Main where
  | reading
  | posting (frame : String)
  | decoding (response : Response)
  | forwarding (frames : List String) (session : Option String)
  | joining (result : Except CliError Unit)
  | deleting (result : Except CliError Unit)
  | closing (result : Except CliError Unit)
  | returned (result : Except CliError Unit)

inductive Writer where
  | receiving
  | writing (frame : Frame)
  | ended
  | failed (message : String)

inductive Waits where
  | starting
  | requesting
  | streaming (pending : List Char)
  | emitting (events : List String) (pending : List Char)
  | sleeping
  | stopped

/-- The forwarder of notifications; the time that it sleeps next is in milliseconds. -/
structure Forwarder where
  waits : Waits
  backoff : Nat

def initialBackoff : Nat := 100

def maxBackoff : Nat := 2000

/-- The bridge. What was received, decoded and asked for is kept to speak about it. -/
structure Bridge where
  main : Main
  session : Option String
  forwarder : Option Forwarder
  frames : Box Frame 32
  writer : Writer
  cancelled : Bool
  written : List Frame
  received : Option String
  decoded : List String
  deletes : List String

def Bridge.start : Bridge :=
  ⟨.reading, none, none, Mailbox.empty Frame 32 1, .receiving, false, [], none, [], []⟩

end State

section Steps

/-- The loop is left with an error, and nothing is shut down. -/
def Bridge.abort (b : Bridge) (error : CliError) : Bridge :=
  { b with main := .returned (.error error), frames := b.frames.release }

/-- The loop is left, and the shutdown begins. -/
def Bridge.shutdown (b : Bridge) (result : Except CliError Unit) : Bridge :=
  { b with main := .joining result, cancelled := true }

def Bridge.forwarderDone (b : Bridge) : Bool :=
  match b.forwarder with
  | some ⟨.stopped, _⟩ => true
  | none => true
  | some _ => false

inductive MainEvent where
  | interrupted
  | read (line : Except String String)
  | answered (answer : Option Response)
  | body (chunks : List (Option (List UInt8)))
  | sent
  | joined
  | deleted
  | closed

def stepMain (client : RemoteClient) (b : Bridge) (event : MainEvent) : Option Bridge :=
  match b.main, event with
  | .reading, .interrupted =>
      if b.cancelled then some (b.shutdown (.error .interrupted)) else none
  | .reading, .read (.error message) => some (b.abort (.io message))
  | .reading, .read (.ok line) =>
      match readLine line with
      | .ended => some (b.shutdown (.ok ()))
      | .oversized => some (b.shutdown (.error (.protocol "stdin frame exceeded 1 MiB")))
      | .blank => some b
      | .frame frame =>
          match checkFrame client frame with
          | .error error => some (b.abort error)
          | .ok () => some { b with main := .posting frame }
  | .posting _, .interrupted =>
      if b.cancelled then some (b.shutdown (.error .interrupted)) else none
  | .posting _, .answered answer =>
      match sendMcp answer with
      | .error error => some (b.abort error)
      | .ok response =>
          some { b with main := .decoding response, received := b.received.or response.session }
  | .decoding response, .body chunks =>
      match responseFrames client.json response chunks with
      | .error error => some (b.abort error)
      | .ok frames =>
          some { b with main := .forwarding frames response.session, decoded := b.decoded ++ frames }
  | .forwarding (frame :: rest) session, .sent =>
      match b.frames.send ⟨frame, true⟩ with
      | .closed => some (b.abort (.io "stdout closed"))
      | .full => none
      | .sent frames => some { b with main := .forwarding rest session, frames }
  | .forwarding [] session, .sent =>
      -- All frames of the response are in the channel.
      match b.session, session with
      | none, some id =>
          some { b with
            main := .reading
            session := some id
            forwarder := some ⟨.starting, initialBackoff⟩
            frames := b.frames.retain }
      | _, _ => some { b with main := .reading }
  | .joining result, .joined =>
      if b.forwarderDone then
        match b.session with
        | none => some { b with main := .closing result, frames := b.frames.release }
        | some id =>
            match client.mcpUrl >>= fun _ => client.token with
            | .error error => some (b.abort error)
            | .ok _ => some { b with main := .deleting result, deletes := b.deletes ++ [id] }
      else none
  | .deleting result, .deleted => some { b with main := .closing result, frames := b.frames.release }
  | .closing result, .closed =>
      match b.writer with
      | .ended => some { b with main := .returned result }
      | .failed message => some { b with main := .returned (.error (.io message)) }
      | _ => none
  | _, _ => none

inductive WriterEvent where
  | received
  | wrote (result : Except String Unit)

/-- A frame is written with its line end and flushed, or the output fails. -/
def stepWriter (b : Bridge) (event : WriterEvent) : Option Bridge :=
  match b.writer, event with
  | .receiving, .received =>
      match b.frames.receive with
      | .received frame frames => some { b with writer := .writing frame, frames }
      | .ended => some { b with writer := .ended, frames := b.frames.close }
      | .waiting => none
  | .writing frame, .wrote (.ok ()) =>
      some { b with writer := .receiving, written := b.written ++ [frame] }
  | .writing _, .wrote (.error message) =>
      some { b with writer := .failed message, frames := b.frames.close }
  | _, _ => none

inductive ForwarderEvent where
  | started
  | interrupted
  | answered (answer : Option Response)
  | ended
  | arrived (arrival : Option (List UInt8))
  | sent
  | slept

/-- The events in the text that has arrived, and the rest of it. -/
def pushChunk (serde : SerdeJson) (pending : List Char) (chunk : Option (List UInt8)) :
    Except CliError (List String × List Char) := do
  let bytes ← okOr chunk (.remote ⟨none, none, "MCP notification stream failed"⟩)
  let text ← okOr (Bytes.decode bytes) (.protocol "MCP SSE was not UTF-8")
  let pending := pending ++ text.toList
  reject (maxFrameBytes < (Bytes.utf8 (String.ofList pending)).length)
    (.protocol "MCP SSE frame exceeded 1 MiB")
  drainSseEvents serde pending

def Bridge.wait (b : Bridge) (waits : Waits) (backoff : Nat) : Bridge :=
  { b with forwarder := some ⟨waits, backoff⟩ }

/-- The forwarder ends, and its end of the channel with it. -/
def Bridge.stop (b : Bridge) (backoff : Nat) : Bridge :=
  { b with forwarder := some ⟨.stopped, backoff⟩, frames := b.frames.release }

def stepForwarder (client : RemoteClient) (b : Bridge) (event : ForwarderEvent) : Option Bridge :=
  match b.forwarder with
  | none => none
  | some ⟨waits, backoff⟩ =>
      match waits, event with
      | .starting, .started =>
          if b.cancelled then some (b.stop backoff)
          else
            match client.mcpUrl >>= fun _ => client.token with
            | .error _ => some (b.stop backoff)
            | .ok _ => some (b.wait .requesting backoff)
      | .requesting, .interrupted => if b.cancelled then some (b.stop backoff) else none
      | .requesting, .answered answer =>
          match sendMcp answer with
          | .error _ => some (b.wait .sleeping backoff)
          | .ok response =>
              if 200 ≤ response.status ∧ response.status < 300 then
                some (b.wait (.streaming []) initialBackoff)
              else if response.status = 401 ∨ response.status = 403 ∨ response.status = 404 then
                some (b.stop backoff)
              else some (b.wait .sleeping backoff)
      | .streaming _, .interrupted => if b.cancelled then some (b.wait .sleeping backoff) else none
      | .streaming _, .ended => some (b.wait .sleeping backoff)
      | .streaming pending, .arrived chunk =>
          match pushChunk client.json.toSerdeJson pending chunk with
          | .error _ => some (b.wait .sleeping backoff)
          | .ok (events, pending) => some (b.wait (.emitting events pending) backoff)
      | .emitting (event :: rest) pending, .sent =>
          match b.frames.send ⟨event, false⟩ with
          | .closed => some (b.wait .sleeping backoff)
          | .full => none
          | .sent frames => some { b.wait (.emitting rest pending) backoff with frames }
      | .emitting [] pending, .sent => some (b.wait (.streaming pending) backoff)
      | .sleeping, .interrupted => if b.cancelled then some (b.stop backoff) else none
      | .sleeping, .slept => some (b.wait .starting (min (backoff * 2) maxBackoff))
      | _, _ => none

inductive Event where
  | cancel
  | main (event : MainEvent)
  | writer (event : WriterEvent)
  | forwarder (event : ForwarderEvent)

def step (client : RemoteClient) (b : Bridge) : Event → Option Bridge
  | .cancel => some { b with cancelled := true }
  | .main event => stepMain client b event
  | .writer event => stepWriter b event
  | .forwarder event => stepForwarder client b event

/-- The states that the bridge gets to, in any order of steps. -/
inductive Reachable (client : RemoteClient) : Bridge → Prop where
  | start : Reachable client Bridge.start
  | step {b t : Bridge} {event : Event} (prior : Reachable client b)
      (last : step client b event = some t) : Reachable client t

end Steps

end WordArena.Cli
