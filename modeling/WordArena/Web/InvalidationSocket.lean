import Mathlib.Algebra.Group.Int.Defs
import Mathlib.Data.List.Basic

/-! The invalidation socket of the browser client. Its state is what the closure of the
client keeps, together with the sockets, the timers and the network of the browser. A call
that throws leaves the state as it was and skips the rest of its handler. -/
namespace WordArena.Web

section Markers

structure GameInvalidation where
  schemaVersion : Int
  gameId : String
  version : Int
deriving DecidableEq

structure GameSession where
  gameId : String
  serverOrigin : String
deriving DecidableEq

/-- A document that `JSON.parse` returns. A number is known by its value if it is an integer. -/
inductive Document where
  | null
  | boolean (value : Bool)
  | number (value : Option Int)
  | string (value : String)
  | array (values : List Document)
  | object (fields : List (String × Document))

/-- A field of an object. Of fields with one name the last one counts. -/
def field (fields : List (String × Document)) (name : String) : Option Document :=
  (fields.reverse.find? fun entry => entry.1 == name).map (·.2)

def apiSchemaVersion : Int := 1

def maxSafeInteger : Int := 2 ^ 53 - 1

def record : Document → Option (List (String × Document))
  | .object fields => some fields
  | _ => none

def integer : Option Document → Option Int
  | some (.number (some n)) => if -maxSafeInteger ≤ n ∧ n ≤ maxSafeInteger then some n else none
  | _ => none

def string : Option Document → Option String
  | some (.string text) => if text = "" then none else some text
  | _ => none

/-- Nothing where the decoder throws. -/
def decodeInvalidation (value : Document) : Option GameInvalidation := do
  let marker ← record value
  let schemaVersion ← integer (field marker "schema_version")
  if schemaVersion ≠ apiSchemaVersion then none
  let gameId ← string (field marker "game_id")
  let version ← integer (field marker "version")
  return ⟨schemaVersion, gameId, version⟩

def shouldInvalidate (marker : GameInvalidation) (session : GameSession)
    (snapshotVersion : Int) : Bool :=
  marker.gameId == session.gameId && decide (snapshotVersion < marker.version)

def reconnectDelaysMs : List Nat := [250, 500, 1000, 2000, 5000]

def reconnectDelay (attempt : Nat) : Nat :=
  reconnectDelaysMs.getD (min attempt (reconnectDelaysMs.length - 1)) 0

end Markers

section Client

inductive ConnectionState where
  | connecting
  | live
  | reconnecting
  | offline
deriving DecidableEq

/-- What the client calls back with. -/
inductive Callback where
  | stateChange (state : ConnectionState)
  | invalidation (marker : GameInvalidation)
deriving DecidableEq

/-- A socket, with the codes of the close calls that did not throw. The last three fields
are seen from outside: whether it has delivered its close event, whether it was retired by a
change of the network or by the stop, and whether it delivered what cannot be decoded. -/
structure WebSocket where
  generation : Nat
  afterVersion : Int
  closes : List Nat
  ended : Bool
  retired : Bool
  spoiled : Bool
deriving DecidableEq

/-- The options of a client, with `JSON.parse`. The callbacks do not throw. -/
structure InvalidationSocketOptions where
  session : GameSession
  parse : String → Option Document

/-- A client in its browser. Changes of the network are told one after another, each some
time after `navigator.onLine` has changed. -/
structure Client where
  onLine : Bool
  notices : List Bool
  listening : Bool
  stopped : Bool
  attempt : Nat
  socket : Option Nat
  socketGeneration : Nat
  timer : Option Nat
  sockets : List WebSocket
  timers : List (Nat × Nat)
  nextTimer : Nat
  calls : List Callback
deriving DecidableEq

/-- The codes that a page may close a socket with. -/
def closeAllowed (code : Nat) : Bool := code == 1000 || (3000 ≤ code && code ≤ 4999)

def Client.call (c : Client) (callback : Callback) : Client :=
  { c with calls := c.calls ++ [callback] }

def Client.onStateChange (c : Client) (state : ConnectionState) : Client :=
  c.call (.stateChange state)

def Client.seen (c : Client) (i : Nat) (f : WebSocket → WebSocket) : Client :=
  { c with sockets := c.sockets.modify i f }

/-- `WebSocket.close`, which throws for a code that is not allowed. -/
def Client.close (c : Client) (i code : Nat) : Except Client Client :=
  if closeAllowed code then .ok (c.seen i fun s => { s with closes := s.closes ++ [code] })
  else .error c

/-- `socket?.close(code)`. -/
def Client.closeHeld (c : Client) (code : Nat) : Except Client Client :=
  match c.socket with
  | none => .ok c
  | some i => c.close i code

/-- A new generation begins, and the socket in hand is not listened to any more. -/
def Client.retire (c : Client) : Client :=
  let retired := { c with socketGeneration := c.socketGeneration + 1 }
  match c.socket with
  | none => retired
  | some i => retired.seen i fun s => { s with retired := true }

def Client.clearTimer (c : Client) : Client :=
  match c.timer with
  | none => c
  | some id => { c with timers := c.timers.filter (·.1 ≠ id), timer := none }

def Client.scheduleReconnect (c : Client) : Client :=
  if c.stopped then c
  else
    let c := c.clearTimer
    if !c.onLine then c.onStateChange .offline
    else
      let c := c.onStateChange .reconnecting
      { c with
        attempt := c.attempt + 1
        timers := c.timers ++ [(c.nextTimer, reconnectDelay c.attempt)]
        nextTimer := c.nextTimer + 1
        timer := some c.nextTimer }

/-- The version is what `getVersion` returns at the time. -/
def Client.connect (c : Client) (version : Int) : Client :=
  if c.stopped then c
  else
    let c := c.clearTimer
    if !c.onLine then c.onStateChange .offline
    else
      let c := c.onStateChange (if c.attempt = 0 then .connecting else .reconnecting)
      { c with
        socketGeneration := c.socketGeneration + 1
        sockets := c.sockets ++ [⟨c.socketGeneration + 1, version, [], false, false, false⟩]
        socket := some c.sockets.length }

end Client

section Handlers

/-- The generation that the listeners of a socket were created for. -/
def Client.generation (c : Client) (i : Nat) : Nat := ((c.sockets[i]?).map (·.generation)).getD 0

def handleOpen (c : Client) (i : Nat) : Except Client Client :=
  if c.generation i ≠ c.socketGeneration then .ok c
  else .ok ({ c with attempt := 0 }.onStateChange .live)

def handleMessage (options : InvalidationSocketOptions) (c : Client) (i : Nat) (data : String)
    (version : Int) : Except Client Client :=
  if c.generation i ≠ c.socketGeneration then .ok c
  else
    match (options.parse data).bind decodeInvalidation with
    | some marker =>
        if shouldInvalidate marker options.session version then .ok (c.call (.invalidation marker))
        else .ok c
    | none => c.close i 1002

def handleClose (c : Client) (i : Nat) : Except Client Client :=
  if c.generation i ≠ c.socketGeneration then .ok c else .ok c.scheduleReconnect

def handleOnline (c : Client) (version : Int) : Except Client Client :=
  if c.stopped then .ok c
  else do
    let c ← c.retire.closeHeld 1000
    return { c with socket := none, attempt := 0 }.connect version

def handleOffline (c : Client) : Except Client Client := do
  let c ← (c.clearTimer.onStateChange .offline).retire.closeHeld 1001
  return { c with socket := none }

def stop (c : Client) : Except Client Client :=
  let c := { c with stopped := true }.retire.clearTimer
  { c with listening := false }.closeHeld 1000

end Handlers

section Events

/-- What happens to a client. A version is what `getVersion` returns at the time. -/
inductive Event where
  | open (i : Nat)
  | message (i : Nat) (data : String) (version : Int)
  | close (i : Nat)
  | timer (id : Nat) (version : Int)
  | network
  | notice (version : Int)
  | stop
deriving DecidableEq

/-- A handler that throws leaves what it did before. -/
def settle : Except Client Client → Client
  | .ok c => c
  | .error c => c

/-- A socket that has not delivered its close event. -/
def Client.delivers (c : Client) (i : Nat) : Bool := (c.sockets[i]?).any fun s => !s.ended

/-- One event. Sockets deliver nothing after their close event, a timer fires once, and a
change of the network is told only to a client that listens. -/
def step (options : InvalidationSocketOptions) (c : Client) : Event → Option Client
  | .open i => if c.delivers i then some (settle (handleOpen c i)) else none
  | .message i data version =>
      if c.delivers i then
        let seen := if ((options.parse data).bind decodeInvalidation).isNone then
          c.seen i fun s => { s with spoiled := true } else c
        some (settle (handleMessage options seen i data version))
      else none
  | .close i =>
      if c.delivers i then
        some (settle (handleClose (c.seen i fun s => { s with ended := true }) i))
      else none
  | .timer id version =>
      if c.timers.any (·.1 == id) then
        some ({ c with timers := c.timers.filter (·.1 ≠ id) }.connect version)
      else none
  | .network => some { c with onLine := !c.onLine, notices := c.notices ++ [!c.onLine] }
  | .notice version =>
      match c.notices with
      | [] => none
      | onLine :: rest =>
          let c := { c with notices := rest }
          if !c.listening then some c
          else if onLine then some (settle (handleOnline c version))
          else some (settle (handleOffline c))
  | .stop => some (settle (stop c))

/-- A client as `connectInvalidationSocket` starts it. -/
def start (onLine : Bool) (version : Int) : Client :=
  Client.connect ⟨onLine, [], true, false, 0, none, 0, none, [], [], 0, []⟩ version

/-- Events one after another. -/
def run (options : InvalidationSocketOptions) (c : Client) (events : List Event) : Option Client :=
  events.foldlM (step options) c

end Events

end WordArena.Web
