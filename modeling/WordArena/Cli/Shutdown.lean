import WordArena.Cli.Bridge

/-! How the bridge ends. The loop keeps an account of its frames, of the channel and of its session;
only where it is left without a shutdown can something be owed when it returns. -/
namespace WordArena.Cli

open Fallible
open Mailbox (Box)

section Invariant

def responses (frames : List Frame) : List String :=
  (frames.filter (·.response)).map (·.text)

theorem responses_append (a b : List Frame) : responses (a ++ b) = responses a ++ responses b := by
  simp [responses]

/-- The frames of a response that are still to be sent. -/
def Main.unsent : Main → List String
  | .forwarding frames _ => frames
  | _ => []

/-- The session in the header of a response that is being worked on. -/
def Main.header : Main → Option String
  | .decoding response => response.session
  | .forwarding _ session => session
  | _ => none

/-- The loop has its end of the channel. -/
def Main.holds : Main → Bool
  | .closing _ => false
  | .returned _ => false
  | _ => true

/-- The session has been deleted if there was one. -/
def Main.asked : Main → Bool
  | .deleting _ => true
  | .closing _ => true
  | _ => false

/-- A request has been made. -/
def Main.posted : Main → Bool
  | .posting _ => true
  | .decoding _ => true
  | .forwarding _ _ => true
  | _ => false

def Writer.held : Writer → List Frame
  | .writing frame => [frame]
  | _ => []

def Writer.broken : Writer → Bool
  | .failed _ => true
  | _ => false

def Writer.alive : Writer → Bool
  | .receiving => true
  | .writing _ => true
  | _ => false

/-- What is in the channel or with the writer. -/
def Bridge.undelivered (b : Bridge) : List String :=
  responses (b.writer.held ++ b.frames.queue)

/-- What holds of the bridge until it returns. -/
structure Sound (client : RemoteClient) (b : Bridge) : Prop where
  receiving : b.frames.receiving = b.writer.alive
  drained : b.writer.alive = false → b.frames.queue = []
  ended : b.writer.alive = false → b.writer.broken = false → b.frames.senders = 0
  senders : b.frames.senders = b.main.holds.toNat + (!b.forwarderDone).toNat
  accounts : b.writer.broken = false →
    responses b.written ++ b.undelivered ++ b.main.unsent = b.decoded
  deletes : b.deletes = if b.main.asked then b.session.toList else []
  received : b.received = b.session.or b.main.header
  done : b.main.asked = true → b.forwarderDone = true
  forwarder : b.session = none → b.forwarder = none
  configured : b.session ≠ none ∨ b.main.posted = true →
    ∃ token, (client.mcpUrl >>= fun _ => client.token) = .ok token

variable {client : RemoteClient} {b t : Bridge}

theorem sound_start : Sound client Bridge.start := by
  constructor <;> simp [Bridge.start, Mailbox.empty, Writer.alive, Writer.broken, Main.holds,
    Bridge.forwarderDone, Main.asked, Main.header, Main.posted, Main.unsent, Bridge.undelivered,
    Writer.held, responses]

/-- What makes the loop return without a shutdown. -/
def Bridge.Fails (client : RemoteClient) (b : Bridge) : MainEvent → Prop
  | .read (.error _) => b.main = .reading
  | .read (.ok line) => b.main = .reading ∧
      ∃ frame error, readLine line = .frame frame ∧ checkFrame client frame = .error error
  | .answered answer => (∃ frame, b.main = .posting frame) ∧ ∃ error, sendMcp answer = .error error
  | .body chunks => ∃ response error, b.main = .decoding response ∧
      responseFrames client.json response chunks = .error error
  | .sent => (∃ frame rest session, b.main = .forwarding (frame :: rest) session) ∧
      b.frames.receiving = false
  | _ => False

/-- Everything that a step of the loop can do. -/
inductive MainStepped (client : RemoteClient) (b : Bridge) : MainEvent → Bridge → Prop where
  | aborted {event : MainEvent} (error : CliError) (hFails : b.Fails client event) :
      MainStepped client b event (b.abort error)
  | left {event : MainEvent} (result : Except CliError Unit) (hSafe : ¬ b.Fails client event)
      (hMain : b.main = .reading ∨ ∃ frame, b.main = .posting frame) :
      MainStepped client b event (b.shutdown result)
  | skipped {event : MainEvent} : MainStepped client b event b
  | posted {event : MainEvent} {frame : String} (hMain : b.main = .reading)
      (hCheck : checkFrame client frame = .ok ()) :
      MainStepped client b event { b with main := .posting frame }
  | answered {event : MainEvent} {frame : String} {response : Response}
      (hMain : b.main = .posting frame) :
      MainStepped client b event
        { b with main := .decoding response, received := b.received.or response.session }
  | decoded {event : MainEvent} {response : Response} {frames : List String}
      (hMain : b.main = .decoding response) :
      MainStepped client b event
        { b with main := .forwarding frames response.session, decoded := b.decoded ++ frames }
  | sent {frame : String} {rest : List String} {session : Option String} {frames : Box Frame 32}
      (hMain : b.main = .forwarding (frame :: rest) session)
      (hSend : b.frames.send ⟨frame, true⟩ = .sent frames) :
      MainStepped client b .sent { b with main := .forwarding rest session, frames }
  | connected {id : String} (hMain : b.main = .forwarding [] (some id)) (hSession : b.session = none) :
      MainStepped client b .sent { b with
        main := .reading
        session := some id
        forwarder := some ⟨.starting, initialBackoff⟩
        frames := b.frames.retain }
  | continued {session : Option String} (hMain : b.main = .forwarding [] session)
      (hKnown : ∀ id, b.session = none → session ≠ some id) :
      MainStepped client b .sent { b with main := .reading }
  | released {result : Except CliError Unit} (hMain : b.main = .joining result)
      (hDone : b.forwarderDone = true) (hSession : b.session = none) :
      MainStepped client b .joined { b with main := .closing result, frames := b.frames.release }
  | unconfigured {result : Except CliError Unit} {error : CliError} (hMain : b.main = .joining result)
      (hSession : b.session ≠ none)
      (hConfig : (client.mcpUrl >>= fun _ => client.token) = .error error) :
      MainStepped client b .joined (b.abort error)
  | asked {result : Except CliError Unit} {id : String} (hMain : b.main = .joining result)
      (hDone : b.forwarderDone = true) (hSession : b.session = some id) :
      MainStepped client b .joined { b with main := .deleting result, deletes := b.deletes ++ [id] }
  | deleted {result : Except CliError Unit} (hMain : b.main = .deleting result) :
      MainStepped client b .deleted { b with main := .closing result, frames := b.frames.release }
  | returned {result : Except CliError Unit} (last : Except CliError Unit)
      (hMain : b.main = .closing result) (hWriter : b.writer.alive = false) :
      MainStepped client b .closed { b with main := .returned last }

theorem mainStepped {event : MainEvent} (h : stepMain client b event = some t) :
    MainStepped client b event t := by
  revert h
  fun_cases stepMain client b event <;> intro h
  case case1 hMain _ =>
      cases h
      exact .left _ id (.inl hMain)
  case case3 hMain =>
      cases h
      exact .aborted _ hMain
  case case4 line hMain hLine =>
      cases h
      exact .left _ (by simp [Bridge.Fails, hLine]) (.inl hMain)
  case case5 line hMain hLine =>
      cases h
      exact .left _ (by simp [Bridge.Fails, hLine]) (.inl hMain)
  case case6 =>
      cases h
      exact .skipped
  case case7 hMain frame hLine error hCheck =>
      cases h
      exact .aborted _ ⟨hMain, frame, error, hLine, hCheck⟩
  case case8 hMain frame _ hCheck =>
      cases h
      exact .posted hMain hCheck
  case case9 frame hMain _ =>
      cases h
      exact .left _ id (.inr ⟨frame, hMain⟩)
  case case11 frame answer hMain error hAnswer =>
      cases h
      exact .aborted _ ⟨⟨frame, hMain⟩, error, hAnswer⟩
  case case12 frame answer hMain response hAnswer =>
      cases h
      exact .answered hMain
  case case13 response chunks hMain error hFrames =>
      cases h
      exact .aborted _ ⟨response, error, hMain, hFrames⟩
  case case14 response chunks hMain frames hFrames =>
      cases h
      exact .decoded hMain
  case case15 frame rest session hMain hSend =>
      cases h
      exact .aborted _ ⟨⟨frame, rest, session, hMain⟩, Mailbox.send_closed.mp hSend⟩
  case case17 frame rest session hMain frames hSend =>
      cases h
      exact .sent hMain hSend
  case case18 id hSession hMain =>
      cases h
      exact .connected hMain hSession
  case case19 session hMain hKnown =>
      cases h
      exact .continued hMain fun id hNone hSome => hKnown id hNone hSome
  case case20 result hMain hDone hSession =>
      cases h
      exact .released hMain hDone hSession
  case case21 result hMain _ id hSession error hConfig =>
      cases h
      exact .unconfigured hMain (by simp [hSession]) hConfig
  case case22 result hMain hDone id hSession _ _ =>
      cases h
      exact .asked hMain hDone hSession
  case case24 result hMain =>
      cases h
      exact .deleted hMain
  case case25 result hMain hWriter =>
      cases h
      exact .returned _ hMain (by simp [hWriter, Writer.alive])
  case case26 result hMain message hWriter =>
      cases h
      exact .returned _ hMain (by simp [hWriter, Writer.alive])
  all_goals cases h

theorem ok_of_checkFrame {frame : String} (h : checkFrame client frame = .ok ()) :
    ∃ token, (client.mcpUrl >>= fun _ => client.token) = .ok token := by
  obtain ⟨_, -, h⟩ := bind_eq_ok.mp h
  obtain ⟨url, hUrl, h⟩ := bind_eq_ok.mp h
  obtain ⟨token, hToken, -⟩ := bind_eq_ok.mp h
  exact ⟨token, by rw [hUrl, ok_bind, hToken]⟩

theorem Sound.cancel (h : Sound client b) : Sound client { b with cancelled := true } := { h with }

/-- The loop goes on without touching anything else. -/
theorem Sound.goes (h : Sound client b) {next : Main} (hHolds : next.holds = b.main.holds)
    (hUnsent : next.unsent = b.main.unsent) (hAsked : next.asked = b.main.asked)
    (hHeader : b.session.or next.header = b.session.or b.main.header)
    (hPosted : next.posted = true → ∃ token, (client.mcpUrl >>= fun _ => client.token) = .ok token) :
    Sound client { b with main := next } :=
  { h with
    senders := by
      show b.frames.senders = next.holds.toNat + (!b.forwarderDone).toNat
      rw [hHolds, h.senders]
    accounts := by
      show b.writer.broken = false → responses b.written ++ b.undelivered ++ next.unsent = b.decoded
      rw [hUnsent]
      exact h.accounts
    deletes := by
      show b.deletes = if next.asked then b.session.toList else []
      rw [hAsked, h.deletes]
    received := h.received.trans hHeader.symm
    done := by
      show next.asked = true → b.forwarderDone = true
      rw [hAsked]
      exact h.done
    configured := by
      intro hNeeds
      rcases hNeeds with hSession | hNext
      · exact h.configured (.inl hSession)
      · exact hPosted hNext }

theorem Sound.main (h : Sound client b) {event : MainEvent} (hStep : MainStepped client b event t)
    (hGoing : ∀ result, t.main ≠ .returned result) : Sound client t := by
  cases hStep with
  | aborted error => exact absurd rfl (hGoing _)
  | unconfigured => exact absurd rfl (hGoing _)
  | returned => exact absurd rfl (hGoing _)
  | skipped => exact h
  | left result _ hMain =>
      have hNext : Sound client { b with main := .joining result } := by
        rcases hMain with hMain | ⟨frame, hMain⟩
        · apply h.goes <;> simp [hMain, Main.holds, Main.unsent, Main.asked, Main.header, Main.posted]
        · apply h.goes <;> simp [hMain, Main.holds, Main.unsent, Main.asked, Main.header, Main.posted]
      exact hNext.cancel
  | posted hMain hCheck =>
      apply h.goes
      case hPosted => exact fun _ => ok_of_checkFrame hCheck
      all_goals simp [hMain, Main.holds, Main.unsent, Main.asked, Main.header]
  | continued hMain hKnown =>
      apply h.goes
      case hHeader =>
        rw [hMain]
        show b.session.or none = b.session.or _
        cases hSession : b.session with
        | some id => rfl
        | none =>
            rename_i session
            cases session with
            | none => rfl
            | some id => exact absurd rfl (hKnown id hSession)
      all_goals simp [hMain, Main.holds, Main.unsent, Main.asked, Main.posted]
  | answered hMain =>
      have hConfig := h.configured (.inr (by rw [hMain, Main.posted]))
      exact { h with
        senders := by simpa [hMain, Main.holds, Bridge.forwarderDone] using h.senders
        accounts := by simpa [hMain, Main.unsent, Bridge.undelivered] using h.accounts
        deletes := by simpa [hMain, Main.asked] using h.deletes
        received := by
          rw [h.received, hMain]
          simp [Main.header]
        done := by simp [Main.asked]
        configured := fun _ => hConfig }
  | decoded hMain =>
      have hConfig := h.configured (.inr (by rw [hMain, Main.posted]))
      exact { h with
        senders := by simpa [hMain, Main.holds, Bridge.forwarderDone] using h.senders
        accounts := by
          intro hWriter
          have hAll := h.accounts hWriter
          rw [hMain] at hAll
          show responses b.written ++ b.undelivered ++ _ = b.decoded ++ _
          rw [← hAll]
          simp [Main.unsent]
        deletes := by simpa [hMain, Main.asked] using h.deletes
        received := by simpa [hMain, Main.header] using h.received
        done := by simp [Main.asked]
        configured := fun _ => hConfig }
  | sent hMain hSend =>
      have hConfig := h.configured (.inr (by rw [hMain, Main.posted]))
      obtain ⟨hOpen, hQueue, hSenders, hStays⟩ := Mailbox.send_sent hSend
      have hAlive : b.writer.alive = true := h.receiving ▸ hOpen
      exact { h with
        receiving := hStays.trans hAlive.symm
        drained := by simp [hAlive]
        ended := by simp [hAlive]
        senders := by
          rw [hSenders, h.senders, hMain]
          rfl
        accounts := by
          intro hWriter
          have hAll := h.accounts hWriter
          rw [hMain] at hAll
          simpa [Bridge.undelivered, hQueue, Main.unsent, responses] using hAll
        deletes := by simpa [hMain, Main.asked] using h.deletes
        received := by simpa [hMain, Main.header] using h.received
        done := by simp [Main.asked]
        configured := fun _ => hConfig }
  | connected hMain hSession =>
      have hConfig := h.configured (.inr (by rw [hMain, Main.posted]))
      have hForwarder := h.forwarder hSession
      exact { h with
        ended := by
          intro hEnded hIntact
          have hSenders := h.ended hEnded hIntact
          rw [h.senders, hMain] at hSenders
          simp [Main.holds] at hSenders
        senders := by
          have hSenders := h.senders
          rw [hMain, Bridge.forwarderDone, hForwarder] at hSenders
          simp [hSenders, Main.holds, Bridge.forwarderDone]
        accounts := by simpa [hMain, Main.unsent, Bridge.undelivered] using h.accounts
        deletes := by simpa [hMain, Main.asked] using h.deletes
        received := by simpa [hMain, Main.header, hSession] using h.received
        done := by simp [Main.asked]
        forwarder := by simp
        configured := fun _ => hConfig }
  | released hMain hDone hSession =>
      exact { h with
        ended := by
          intro hEnded hIntact
          rw [Mailbox.release_senders, h.ended hEnded hIntact]
        senders := by
          have hSenders := h.senders
          rw [hMain, hDone] at hSenders
          simp_all [Main.holds, Bridge.forwarderDone]
        accounts := by simpa [hMain, Main.unsent, Bridge.undelivered] using h.accounts
        deletes := by simpa [hMain, Main.asked, hSession] using h.deletes
        received := by simpa [hMain, Main.header] using h.received
        done := fun _ => hDone
        configured := fun hNeeds => h.configured (.inl (by simpa [Main.posted] using hNeeds)) }
  | asked hMain hDone hSession =>
      exact { h with
        senders := by simpa [hMain, Main.holds, Bridge.forwarderDone] using h.senders
        accounts := by simpa [hMain, Main.unsent, Bridge.undelivered] using h.accounts
        deletes := by simpa [hMain, Main.asked, hSession] using h.deletes
        received := by simpa [hMain, Main.header] using h.received
        done := fun _ => hDone
        configured := fun _ => h.configured (.inl (by simp [hSession])) }
  | deleted hMain =>
      have hDone := h.done (by rw [hMain, Main.asked])
      exact { h with
        ended := by
          intro hEnded hIntact
          rw [Mailbox.release_senders, h.ended hEnded hIntact]
        senders := by
          have hSenders := h.senders
          rw [hMain, hDone] at hSenders
          simp_all [Main.holds, Bridge.forwarderDone]
        accounts := by simpa [hMain, Main.unsent, Bridge.undelivered] using h.accounts
        deletes := by simpa [hMain, Main.asked] using h.deletes
        received := by simpa [hMain, Main.header] using h.received
        done := fun _ => hDone
        configured := fun hNeeds => h.configured (.inl (by simpa [Main.posted] using hNeeds)) }

theorem Sound.writer (h : Sound client b) {event : WriterEvent}
    (hStep : stepWriter b event = some t) : Sound client t := by
  revert hStep
  fun_cases stepWriter b event <;> intro hStep <;> cases hStep
  case case1 hWriter frame frames hReceive =>
      obtain ⟨hQueue, hSenders, hReceiving⟩ := Mailbox.receive_received hReceive
      exact { h with
        receiving := by simpa [hReceiving, hWriter, Writer.alive] using h.receiving
        drained := by simp [Writer.alive]
        ended := by simp [Writer.alive]
        senders := hSenders.trans h.senders
        accounts := by
          intro _
          have hAll := h.accounts (by rw [hWriter, Writer.broken]; exact nofun)
          rw [Bridge.undelivered, hWriter, hQueue] at hAll
          exact hAll }
  case case2 hWriter hReceive =>
      obtain ⟨hQueue, hSenders⟩ := Mailbox.receive_ended hReceive
      exact { h with
        receiving := rfl
        drained := fun _ => rfl
        ended := fun _ _ => hSenders
        accounts := by
          intro _
          have hAll := h.accounts (by rw [hWriter, Writer.broken]; exact nofun)
          rw [Bridge.undelivered, hWriter, hQueue] at hAll
          exact hAll }
  case case4 frame hWriter =>
      exact { h with
        receiving := by simpa [hWriter, Writer.alive] using h.receiving
        drained := by simp [Writer.alive]
        ended := by simp [Writer.alive]
        accounts := by
          intro _
          have hAll := h.accounts (by rw [hWriter, Writer.broken]; exact nofun)
          rw [Bridge.undelivered, hWriter] at hAll
          show responses (b.written ++ [frame]) ++ responses ([] ++ b.frames.queue) ++ _ = _
          rw [← hAll, responses_append, responses_append, responses_append]
          simp [Writer.held, responses] }
  case case5 frame message hWriter =>
      exact { h with
        receiving := rfl
        drained := fun _ => rfl
        ended := by simp [Writer.broken]
        accounts := by simp [Writer.broken] }

/-- Everything that a step of the forwarder can do. -/
inductive ForwarderStepped (b : Bridge) : Bridge → Prop where
  | waits {waits : Waits} (backoff : Nat) (hActive : b.forwarderDone = false)
      (hGoing : waits ≠ .stopped) : ForwarderStepped b (b.wait waits backoff)
  | stops (backoff : Nat) (hActive : b.forwarderDone = false) : ForwarderStepped b (b.stop backoff)
  | emits {waits : Waits} {event : String} {frames : Box Frame 32} (backoff : Nat)
      (hActive : b.forwarderDone = false) (hGoing : waits ≠ .stopped)
      (hSend : b.frames.send ⟨event, false⟩ = .sent frames) :
      ForwarderStepped b { b.wait waits backoff with frames }

theorem active_of_waits {waits : Waits} {backoff : Nat} (h : b.forwarder = some ⟨waits, backoff⟩)
    (hGoing : waits ≠ .stopped) : b.forwarderDone = false := by
  rw [Bridge.forwarderDone, h]
  cases waits <;> simp_all

theorem forwarderStepped {event : ForwarderEvent} (h : stepForwarder client b event = some t) :
    ForwarderStepped b t := by
  revert h
  fun_cases stepForwarder client b event <;> intro h <;> cases h
  case case2 backoff _ hWaits => exact .stops _ (active_of_waits hWaits nofun)
  case case3 backoff _ _ _ hWaits => exact .stops _ (active_of_waits hWaits nofun)
  case case5 backoff _ hWaits => exact .stops _ (active_of_waits hWaits nofun)
  case case9 backoff _ _ _ _ _ hWaits => exact .stops _ (active_of_waits hWaits nofun)
  case case20 backoff _ hWaits => exact .stops _ (active_of_waits hWaits nofun)
  case case18 backoff event rest pending frames hSend hWaits =>
      exact .emits _ (active_of_waits hWaits nofun) nofun hSend
  all_goals
    rename_i hWaits
    exact .waits _ (active_of_waits hWaits nofun) nofun

theorem wait_active {waits : Waits} {backoff : Nat} (hGoing : waits ≠ .stopped) :
    (b.wait waits backoff).forwarderDone = false :=
  active_of_waits rfl hGoing

theorem Sound.wait (h : Sound client b) {waits : Waits} {backoff : Nat}
    (hActive : b.forwarderDone = false) (hGoing : waits ≠ .stopped) :
    Sound client (b.wait waits backoff) :=
  { h with
    senders := by
      rw [wait_active hGoing, ← hActive]
      exact h.senders
    done := by
      intro hAsked
      rw [h.done hAsked] at hActive
      cases hActive
    forwarder := by
      intro hSession
      rw [Bridge.forwarderDone, h.forwarder hSession] at hActive
      cases hActive }

theorem Sound.forward (h : Sound client b) {event : ForwarderEvent}
    (hStep : stepForwarder client b event = some t) : Sound client t := by
  cases forwarderStepped hStep with
  | waits backoff hActive hGoing => exact h.wait hActive hGoing
  | stops backoff hActive =>
      exact { h with
        ended := by
          intro hEnded hIntact
          show b.frames.senders - 1 = 0
          rw [h.ended hEnded hIntact]
        senders := by
          have hSenders := h.senders
          rw [hActive] at hSenders
          show b.frames.senders - 1 = _
          rw [hSenders]
          rfl
        done := fun _ => rfl
        forwarder := by
          intro hSession
          rw [Bridge.forwarderDone, h.forwarder hSession] at hActive
          cases hActive }
  | @emits waits event frames backoff hActive hGoing hSend =>
      obtain ⟨hOpen, hQueue, hSenders, hStays⟩ := Mailbox.send_sent hSend
      have hAlive : b.writer.alive = true := h.receiving ▸ hOpen
      have hWait : Sound client (b.wait waits backoff) := h.wait hActive hGoing
      exact { hWait with
        receiving := hStays.trans hAlive.symm
        drained := by simp [Bridge.wait, hAlive]
        ended := by simp [Bridge.wait, hAlive]
        senders := hSenders.trans hWait.senders
        accounts := by
          intro hWriter
          have hAll := h.accounts hWriter
          simpa [Bridge.undelivered, Bridge.wait, hQueue, responses] using hAll }

theorem main_of_writer {event : WriterEvent} (hStep : stepWriter b event = some t) :
    t.main = b.main := by
  revert hStep
  fun_cases stepWriter b event <;> intro hStep <;> cases hStep <;> rfl

theorem main_of_forwarder {event : ForwarderEvent} (hStep : stepForwarder client b event = some t) :
    t.main = b.main := by
  cases forwarderStepped hStep <;> rfl

/-- A loop that fails has not begun to shut down, and its frames are in the channel unless that
is closed. -/
theorem Bridge.Fails.main {event : MainEvent} (h : b.Fails client event) :
    b.main.holds = true ∧ b.main.asked = false ∧
      (b.main.unsent = [] ∨ b.frames.receiving = false) := by
  cases event with
  | read line =>
      cases line with
      | error message =>
          have hMain : b.main = .reading := h
          simp [hMain, Main.holds, Main.asked, Main.unsent]
      | ok line =>
          have hMain : b.main = .reading := h.1
          simp [hMain, Main.holds, Main.asked, Main.unsent]
  | answered answer =>
      obtain ⟨⟨frame, hMain⟩, -⟩ := h
      simp [hMain, Main.holds, Main.asked, Main.unsent]
  | body chunks =>
      obtain ⟨response, error, hMain, -⟩ := h
      simp [hMain, Main.holds, Main.asked, Main.unsent]
  | sent =>
      obtain ⟨⟨frame, rest, session, hMain⟩, hClosed⟩ := h
      simp [hMain, hClosed, Main.holds, Main.asked]
  | _ => exact absurd h id

theorem step_returned {event : Event} {result : Except CliError Unit}
    (hStep : step client b event = some t) (hMain : b.main = .returned result) :
    t.main = .returned result := by
  cases event with
  | cancel =>
      cases hStep
      exact hMain
  | writer event => exact (main_of_writer hStep).trans hMain
  | forwarder event => exact (main_of_forwarder hStep).trans hMain
  | main event =>
      cases mainStepped hStep with
      | skipped => exact hMain
      | aborted error hFails =>
          have hHolds := hFails.main.1
          rw [hMain] at hHolds
          cases hHolds
      | left _ _ hOther =>
          rw [hMain] at hOther
          rcases hOther with hOther | ⟨frame, hOther⟩ <;> cases hOther
      | _ =>
          rename_i hOther _
          simp_all

/-- Until it returns, the bridge is sound. -/
theorem Reachable.sound (h : Reachable client b) (hGoing : ∀ result, b.main ≠ .returned result) :
    Sound client b := by
  induction h with
  | start => exact sound_start
  | @step b t event prior last ih =>
      have hBefore : ∀ result, b.main ≠ .returned result := fun result hMain =>
        hGoing result (step_returned last hMain)
      have hSound := ih hBefore
      cases event with
      | cancel =>
          cases last
          exact hSound.cancel
      | main event => exact hSound.main (mainStepped last) hGoing
      | writer event => exact hSound.writer last
      | forwarder event => exact hSound.forward last

/-- Nothing is owed: the frames of responses are written unless the output failed, the forwarder
has stopped, and the session is deleted. -/
structure CleanShutdown (b : Bridge) : Prop where
  delivered : b.writer.broken = true ∨ responses b.written = b.decoded
  stopped : b.forwarderDone = true
  deleted : ∀ id, b.received = some id → b.deletes = [id]

theorem Sound.aborted (h : Sound client b) {event : MainEvent} (hFails : b.Fails client event)
    (error : CliError) : CleanShutdown (b.abort error) ↔
      b.received = none ∧ (b.writer.broken = true ∨ b.undelivered = []) := by
  obtain ⟨hHolds, hAsked, hUnsent⟩ := hFails.main
  have hDeletes := h.deletes
  rw [hAsked] at hDeletes
  constructor
  · intro ⟨hDelivered, _, hDeleted⟩
    constructor
    · cases hReceived : b.received with
      | none => rfl
      | some id =>
          have hAsks : b.deletes = [id] := hDeleted id hReceived
          rw [hDeletes] at hAsks
          cases hAsks
    · cases hBroken : b.writer.broken with
      | true => exact .inl rfl
      | false =>
          right
          have hAll := h.accounts hBroken
          have hWritten : responses b.written = b.decoded :=
            hDelivered.resolve_left (by simp [Bridge.abort, hBroken])
          rw [← hWritten, List.append_assoc, List.append_right_eq_self] at hAll
          exact (List.append_eq_nil_iff.mp hAll).1
  · intro ⟨hReceived, hDelivered⟩
    have hSession : b.session = none := by
      have hSame := h.received
      rw [hReceived] at hSame
      cases hSession : b.session with
      | none => rfl
      | some id =>
          rw [hSession] at hSame
          cases hSame
    constructor
    · cases hBroken : b.writer.broken with
      | true => exact .inl hBroken
      | false =>
          right
          have hAll := h.accounts hBroken
          rcases hUnsent with hUnsent | hClosed
          · have hEmpty := hDelivered.resolve_left (by simp [hBroken])
            show responses b.written = b.decoded
            simpa [hEmpty, hUnsent] using hAll
          · have hSenders := h.ended (h.receiving ▸ hClosed) hBroken
            rw [h.senders, hHolds] at hSenders
            simp at hSenders
    · show b.forwarderDone = true
      rw [Bridge.forwarderDone, h.forwarder hSession]
    · intro id hSome
      rw [Bridge.abort, hReceived] at hSome
      cases hSome

/-- The bridge owes nothing when it returns exactly unless its loop fails after a session was
received or while a frame of a response is on its way to the output. -/
theorem clean_shutdown_iff {client : RemoteClient} {b t : Bridge} {event : Event}
    {result : Except CliError Unit} (hReachable : Reachable client b)
    (hGoing : ∀ result, b.main ≠ .returned result) (hStep : step client b event = some t)
    (hReturned : t.main = .returned result) :
    CleanShutdown t ↔ ((∀ e, event = .main e → ¬ b.Fails client e) ∨
      (b.received = none ∧ (b.writer.broken = true ∨ b.undelivered = []))) := by
  have hSound := hReachable.sound hGoing
  cases event with
  | cancel =>
      cases hStep
      exact absurd hReturned (hGoing result)
  | writer event => exact absurd ((main_of_writer hStep).symm.trans hReturned) (hGoing result)
  | forwarder event => exact absurd ((main_of_forwarder hStep).symm.trans hReturned) (hGoing result)
  | main event =>
      cases mainStepped hStep with
      | aborted error hFails =>
          rw [hSound.aborted hFails]
          constructor
          · exact .inr
          · intro hEither
            rcases hEither with hNever | hOwes
            · exact absurd hFails (hNever event rfl)
            · exact hOwes
      | unconfigured _ hSession hConfig =>
          obtain ⟨token, hToken⟩ := hSound.configured (.inl hSession)
          rw [hConfig] at hToken
          cases hToken
      | returned last hMain hWriter =>
          have hAsked : b.main.asked = true := by rw [hMain, Main.asked]
          have hDeletes := hSound.deletes
          rw [hAsked, if_pos rfl] at hDeletes
          have hReceived : b.received = b.session := by
            have hHeader := hSound.received
            rw [hMain] at hHeader
            exact hHeader.trans Option.or_none
          refine iff_of_true ⟨?_, hSound.done hAsked, ?_⟩ (.inl ?_)
          · show b.writer.broken = true ∨ responses b.written = b.decoded
            cases hBroken : b.writer.broken with
            | true => exact .inl rfl
            | false =>
                right
                have hHeld : b.writer.held = [] := by
                  cases hState : b.writer <;> simp_all [Writer.alive, Writer.held]
                have hAll := hSound.accounts hBroken
                rw [Bridge.undelivered, hHeld, hSound.drained hWriter, hMain] at hAll
                simpa [responses, Main.unsent] using hAll
          · intro id hSome
            show b.deletes = [id]
            have hSession : b.session = some id := hReceived.symm.trans hSome
            rw [hDeletes, hSession, Option.toList_some]
          · intro e hEvent
            cases hEvent
            exact id
      | skipped => exact absurd hReturned (hGoing result)
      | _ => cases hReturned

/-- Values are texts. Only the empty object has members, those of a request. -/
def demoClient : RemoteClient where
  json :=
    { Value := String
      fromStr := some
      toString := id
      isObject := fun value => value == "{}"
      get := fun value member =>
        if value = "{}" then some (if member = "jsonrpc" then "2.0" else "initialize") else none
      asStr := some }
  mcpUrl := .ok "http://127.0.0.1:3000/api/v1/games/game-1/mcp"
  token := .ok "token"

/-- A request was answered with a session and without a frame. -/
def opened : Bridge :=
  { Bridge.start with
    session := some "session-1"
    received := some "session-1"
    forwarder := some ⟨.starting, initialBackoff⟩
    frames := (Mailbox.empty Frame 32 1).retain }

theorem opened_reachable : Reachable demoClient opened := by
  have hLine : readLine "{}\n" = .frame "{}" := by decide +kernel
  have hCheck : checkFrame demoClient "{}" = .ok () := by decide +kernel
  have hRead : step demoClient Bridge.start (.main (.read (.ok "{}\n"))) =
      some { Bridge.start with main := .posting "{}" } := by
    simp only [step, stepMain, Bridge.start, hLine, hCheck]
  have hPosted := Reachable.start.step hRead
  have hAnswered := @Reachable.step demoClient _ _
    (.main (.answered (some ⟨202, some "session-1", none⟩))) hPosted rfl
  have hDecoded := @Reachable.step demoClient _ _ (.main (.body [])) hAnswered rfl
  exact @Reachable.step demoClient _ _ (.main .sent) hDecoded rfl

/-- What the bridge returns with when the next line is no object. -/
def leaked : Bridge := opened.abort (.protocol "stdin frame must be a JSON object")

theorem opened_step : step demoClient opened (.main (.read (.ok "[]\n"))) = some leaked := by
  have hLine : readLine "[]\n" = .frame "[]" := by decide +kernel
  have hCheck : checkFrame demoClient "[]" =
      .error (.protocol "stdin frame must be a JSON object") := by decide +kernel
  simp only [step, stepMain, opened, Bridge.start, hLine, hCheck, leaked]

theorem session_left_open : Reachable demoClient opened ∧
    step demoClient opened (.main (.read (.ok "[]\n"))) = some leaked ∧
    leaked.main = .returned (.error (.protocol "stdin frame must be a JSON object")) ∧
    ¬ CleanShutdown leaked := by
  refine ⟨opened_reachable, opened_step, rfl, ?_⟩
  intro hClean
  exact absurd hClean.stopped (by decide)

theorem clean_shutdown_iff_opened : CleanShutdown leaked ↔
    ((∀ e, Event.main (.read (.ok "[]\n")) = .main e → ¬ opened.Fails demoClient e) ∨
      (opened.received = none ∧ (opened.writer.broken = true ∨ opened.undelivered = []))) :=
  clean_shutdown_iff opened_reachable nofun opened_step rfl

end Invariant

end WordArena.Cli
