import WordArena.Lexicon.Key
import WordArena.Library.Delimiters

/-! Server-sent events as the command line client reads them, from a whole body or chunk by
chunk from a stream. -/
namespace WordArena.Cli

open Delimiters (find First Cut InfixFree)
open Fallible
open WordArena.Lexicon (isWhitespace)

section Errors

structure RemoteError where
  status : Option Nat
  code : Option String
  message : String
deriving DecidableEq

inductive CliError where
  | usage (message : String)
  | config (message : String)
  | authentication
  | remote (error : RemoteError)
  | protocol (message : String)
  | io (message : String)
  | interrupted
deriving DecidableEq

/-- What is used of `serde_json`. Values are always written. -/
structure SerdeJson where
  Value : Type
  fromStr : String → Option Value
  toString : Value → String

end Errors

section Events

def maxFrameBytes : Nat := 1024 * 1024

/-- The lines of a text, with neither line feeds nor the carriage return before one. -/
def lines (text : List Char) : List (List Char) :=
  let pieces := text.splitOn '\n'
  let ended := pieces.dropLast.map fun line =>
    if line.getLast? = some '\x0d' then line.dropLast else line
  ended ++ (pieces.getLast?.filter (· ≠ [])).toList

def stripPrefix (front line : List Char) : Option (List Char) :=
  if front.isPrefixOf line then some (line.drop front.length) else none

def eventData (event : List Char) : String :=
  let fields := (lines event).filterMap (stripPrefix "data:".toList)
  String.ofList (['\n'].intercalate (fields.map (·.dropWhile isWhitespace)))

/-- The frames of one event: none, or its data in compact form. -/
def eventFrames (serde : SerdeJson) (event : List Char) : Except CliError (List String) :=
  if eventData event = "" then .ok []
  else
    match serde.fromStr (eventData event) with
    | none => .error (.protocol "MCP SSE data was not JSON")
    | some value => .ok [serde.toString value]

def lineFeeds : List Char := ['\n', '\n']

def carriageReturns : List Char := ['\x0d', '\n', '\x0d', '\n']

/-- The blank lines that end an event. -/
def blankLines : List (List Char) := [lineFeeds, carriageReturns]

/-- Where the next event ends, and the length of the blank line there. -/
def nextEventBoundary (value : List Char) : Option (Nat × Nat) :=
  match find lineFeeds value, find carriageReturns value with
  | some left, some right => if right < left then some (right, 4) else some (left, 2)
  | some left, none => some (left, 2)
  | none, some right => some (right, 4)
  | none, none => none

theorem infixFree_blankLines : InfixFree blankLines := by
  constructor
  · decide
  · decide

/-- The boundary that is found is the first one. -/
theorem nextEventBoundary_first {value : List Char} {start len : Nat}
    (h : nextEventBoundary value = some (start, len)) :
    ∃ d, First blankLines value start d ∧ d.length = len := by
  rw [nextEventBoundary] at h
  cases hLeft : find lineFeeds value with
  | none =>
      cases hRight : find carriageReturns value with
      | none => simp [hLeft, hRight] at h
      | some right =>
          simp only [hLeft, hRight, Option.some.injEq, Prod.mk.injEq] at h
          obtain ⟨rfl, rfl⟩ := h
          refine ⟨carriageReturns, Delimiters.first_of_find (by decide) hRight ?_, rfl⟩
          simp [blankLines, hLeft, hRight]
  | some left =>
      cases hRight : find carriageReturns value with
      | none =>
          simp only [hLeft, hRight, Option.some.injEq, Prod.mk.injEq] at h
          obtain ⟨rfl, rfl⟩ := h
          refine ⟨lineFeeds, Delimiters.first_of_find (by decide) hLeft ?_, rfl⟩
          simp [blankLines, hLeft, hRight]
      | some right =>
          simp only [hLeft, hRight] at h
          split_ifs at h with hEarlier
          · obtain ⟨rfl, rfl⟩ := Prod.mk.inj (Option.some.inj h)
            refine ⟨carriageReturns, Delimiters.first_of_find (by decide) hRight ?_, rfl⟩
            simp [blankLines, hLeft, hRight, Nat.le_of_lt hEarlier]
          · obtain ⟨rfl, rfl⟩ := Prod.mk.inj (Option.some.inj h)
            refine ⟨lineFeeds, Delimiters.first_of_find (by decide) hLeft ?_, rfl⟩
            simp [blankLines, hLeft, hRight, Nat.le_of_not_lt hEarlier]

theorem not_first_of_boundary {value : List Char} (h : nextEventBoundary value = none) (i : Nat)
    (d : List Char) : ¬ First blankLines value i d := by
  apply Delimiters.not_first_of_find infixFree_blankLines
  rw [nextEventBoundary] at h
  cases hLeft : find lineFeeds value with
  | none =>
      cases hRight : find carriageReturns value with
      | none => simp [blankLines, hLeft, hRight]
      | some right => simp [hLeft, hRight] at h
  | some left =>
      cases hRight : find carriageReturns value with
      | none => simp [hLeft, hRight] at h
      | some right =>
          simp only [hLeft, hRight] at h
          split_ifs at h

theorem nextEventBoundary_bound {value : List Char} {start len : Nat}
    (h : nextEventBoundary value = some (start, len)) :
    start + len ≤ value.length ∧ 0 < len := by
  obtain ⟨d, hFirst, rfl⟩ := nextEventBoundary_first h
  exact hFirst.bound infixFree_blankLines

/-- The frames of all events that have ended, and what is left of the text. -/
def drainSseEvents (serde : SerdeJson) (pending : List Char) :
    Except CliError (List String × List Char) :=
  match hBoundary : nextEventBoundary pending with
  | none => .ok ([], pending)
  | some (start, len) =>
      have hBound := nextEventBoundary_bound hBoundary
      have : pending.length - (start + len) < pending.length := by omega
      do
        let frames ← eventFrames serde (pending.take (start + len))
        let (later, rest) ← drainSseEvents serde (pending.drop (start + len))
        return (frames ++ later, rest)
termination_by pending.length

/-- The frames of a whole body. An event that is not ended is taken as ended. -/
def parseSseBytes (serde : SerdeJson) (bytes : List UInt8) : Except CliError (List String) := do
  let text ← okOr (Bytes.decode bytes) (.protocol "MCP SSE was not UTF-8")
  let (events, pending) ← drainSseEvents serde text.toList
  if pending.all isWhitespace then return events
  else
    let (later, _) ← drainSseEvents serde (pending ++ lineFeeds)
    return events ++ later

end Events

section Forwarding

/-- What a stream gives when it is asked for the next chunk. The end of the stream is the end
of all that arrives. -/
inductive Arrival where
  | chunk (bytes : List UInt8)
  | failed
  | cancelled

/-- Sends frames one after another, and whether all were taken. A channel that is closed takes
only so many more. -/
def sendAll (room : Option Nat) (sent frames : List String) : List String × Bool :=
  match room with
  | none => (sent ++ frames, true)
  | some n => (sent ++ frames.take (n - sent.length), decide (frames.length ≤ n - sent.length))

def forwardFrom (serde : SerdeJson) (room : Option Nat) (pending : List Char) (sent : List String) :
    List Arrival → List String × Except CliError Unit
  | [] => (sent, .ok ())
  | .cancelled :: _ => (sent, .ok ())
  | .failed :: _ => (sent, .error (.remote ⟨none, none, "MCP notification stream failed"⟩))
  | .chunk bytes :: later =>
      match Bytes.decode bytes with
      | none => (sent, .error (.protocol "MCP SSE was not UTF-8"))
      | some text =>
          let pending := pending ++ text.toList
          if maxFrameBytes < (Bytes.utf8 (String.ofList pending)).length then
            (sent, .error (.protocol "MCP SSE frame exceeded 1 MiB"))
          else
            match drainSseEvents serde pending with
            | .error error => (sent, .error error)
            | .ok (events, pending) =>
                let (sent, taken) := sendAll room sent events
                if taken then forwardFrom serde room pending sent later
                else (sent, .error (.io "stdout closed"))

/-- The frames that are sent for what arrives, and how the forwarding ends. -/
def forwardSse (serde : SerdeJson) (room : Option Nat) (arrivals : List Arrival) :
    List String × Except CliError Unit :=
  forwardFrom serde room [] [] arrivals

end Forwarding

end WordArena.Cli
