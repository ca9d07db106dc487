import Mathlib.Data.List.Induction
import WordArena.Web.Reconnection

/-! Runs of the invalidation socket. Only a close call that throws can leave a socket behind,
and a client that makes none never wedges. -/
namespace WordArena.Web

section Steps

variable {options : InvalidationSocketOptions} {c t : Client} {event : Event}

/-- A client that neither wedges nor leaks. A browser that is back online counts from when the
client has been told. -/
structure Unwedged (c : Client) : Prop where
  timers : c.timers.length ≤ 1
  current : ∀ (i j : Nat) (s r : WebSocket), c.sockets[i]? = some s → c.sockets[j]? = some r →
    s.generation = c.socketGeneration → r.generation = c.socketGeneration → i = j
  alive : c.onLine = true → c.notices = [] → c.stopped = false → c.alive
  released : ∀ (j : Nat) (s : WebSocket), c.sockets[j]? = some s → s.released

theorem Steady.unwedged (h : Steady c) (hWaits : Waits c) (hClean : Clean c) : Unwedged c := by
  constructor
  · rcases h.timers with hNone | ⟨id, delay, hOne, -⟩
    · simp [hNone]
    · simp [hOne]
  · intro i j s r hs hr hCurrent hOther
    have hHeld := h.socket_of_current hs hCurrent
    rw [h.socket_of_current hr hOther] at hHeld
    exact (Option.some.inj hHeld).symm
  · exact hWaits.alive
  · exact hClean.released

/-- The listeners of a client that has stopped do nothing. -/
theorem Steady.not_heard (h : Steady c) (hStopped : c.stopped = true) {i : Nat}
    (hDelivers : c.delivers i = true) : ¬ c.heard i := by
  obtain ⟨s, hAt, -⟩ := exists_delivering hDelivers
  intro hHeard
  apply (h.stopped hStopped).2.2
  rw [← (heard_iff hAt).mp hHeard]
  exact List.mem_of_getElem? (getElem?_generations hAt)

/-- What has stopped stays as it is to the outside. -/
theorem Stepped.silent (h : Steady c) (hStopped : c.stopped = true)
    (hStep : Stepped options c event t) :
    t.stopped = true ∧ t.calls = c.calls ∧ t.sockets.length = c.sockets.length := by
  cases hStep with
  | opened hDelivers hHeard => exact absurd hHeard (h.not_heard hStopped hDelivers)
  | openedLate => exact ⟨hStopped, rfl, rfl⟩
  | marked hDelivers hHeard => exact absurd hHeard (h.not_heard hStopped hDelivers)
  | ignored => exact ⟨hStopped, rfl, rfl⟩
  | spoiled => exact ⟨hStopped, rfl, length_seen⟩
  | lost hDelivers hHeard => exact absurd hHeard (h.not_heard hStopped hDelivers)
  | closedLate => exact ⟨hStopped, rfl, length_seen⟩
  | retried hPending => exact absurd (h.stopped hStopped).2.1 hPending
  | network => exact ⟨hStopped, rfl, rfl⟩
  | unheard => exact ⟨hStopped, rfl, rfl⟩
  | online _ hGoing => exact absurd (hGoing.symm.trans hStopped) Bool.false_ne_true
  | offline _ hGoing => exact absurd (hGoing.symm.trans hStopped) Bool.false_ne_true
  | stopped =>
      rw [halted_eq h, closedHeld_stopped, closedHeld_calls, closedHeld_length]
      obtain ⟨sockets, hEq, -, hLength⟩ := retire_eq (c := c)
      rw [hEq]
      exact ⟨rfl, rfl, hLength⟩

/-- A message that cannot be decoded comes from the socket in hand, and the close call throws. -/
theorem Clean.leaks_message (h : Clean c) (hSteady : Steady c) {i : Nat}
    (hDelivers : c.delivers i = true) (hHeard : c.heard i) :
    ∃ (j : Nat) (s : WebSocket), (c.seen i WebSocket.spoil).sockets[j]? = some s ∧ ¬ s.released := by
  obtain ⟨s, hAt, -⟩ := exists_delivering hDelivers
  have hHeld := hSteady.socket_of_current hAt ((heard_iff hAt).mp hHeard)
  have hGoing : c.stopped = false := by
    cases hStopped : c.stopped with
    | false => rfl
    | true => exact absurd hHeard (hSteady.not_heard hStopped hDelivers)
  refine ⟨i, s.spoil, ?_, ?_⟩
  · rw [getElem?_seen, hAt, Option.map_some, if_pos rfl]
  · intro hReleased
    exact hReleased (.inr rfl) (h.fresh hGoing i s hHeld hAt).2.1

/-- The socket in hand when the browser goes offline is retired, and the close call throws. -/
theorem Clean.leaks_offline (h : Clean c) (hSteady : Steady c) (hGoing : c.stopped = false) {i : Nat}
    (hHeld : c.socket = some i) :
    ∃ (j : Nat) (s : WebSocket), c.retire.sockets[j]? = some s ∧ ¬ s.released := by
  have hBound := hSteady.held i hHeld
  have hAt := List.getElem?_eq_getElem hBound
  refine ⟨i, { c.sockets[i] with retired := true }, ?_, ?_⟩
  · rw [Client.retire]
    simp only [hHeld]
    rw [getElem?_seen]
    simp only [if_true]
    exact congrArg (Option.map fun s : WebSocket => { s with retired := true }) hAt
  · intro hReleased
    exact hReleased (.inl rfl) (h.fresh hGoing i _ hHeld hAt).2.1

/-- An event that makes a close call that throws leaves a socket behind. -/
theorem Clean.leaks (h : Clean c) (hSteady : Steady c) (hHarm : ¬ Harmless options c event) :
    ∃ t, step options c event = some t ∧ ¬ Unwedged t := by
  cases event with
  | message i data version =>
      simp only [Harmless, Classical.not_imp, not_not] at hHarm
      obtain ⟨hDelivers, hMarker, hHeard⟩ := hHarm
      cases hStep : step options c (.message i data version) with
      | none => simp [step, hDelivers] at hStep
      | some t =>
          refine ⟨t, rfl, ?_⟩
          intro hUnwedged
          cases hSteady.stepped hStep with
          | marked _ _ hSome => exact absurd (hMarker.symm.trans hSome) (by simp)
          | ignored _ hSome => exact absurd (hMarker.symm.trans hSome) (by simp)
          | spoiled =>
              obtain ⟨j, s, hAt, hLeak⟩ := h.leaks_message hSteady hDelivers hHeard
              exact hLeak (hUnwedged.released j s hAt)
  | notice version =>
      simp only [Harmless, Classical.not_imp] at hHarm
      obtain ⟨hListening, hHead, hSome⟩ := hHarm
      obtain ⟨i, hHeld⟩ := Option.ne_none_iff_exists'.mp hSome
      obtain ⟨rest, hNotices⟩ := List.head?_eq_some_iff.mp hHead
      cases hStep : step options c (.notice version) with
      | none => simp [step, hNotices, hListening] at hStep
      | some t =>
          refine ⟨t, rfl, ?_⟩
          intro hUnwedged
          cases hSteady.stepped hStep with
          | unheard _ hStopped => simp [(hSteady.stopped hStopped).1] at hListening
          | online hOther => simp [hNotices] at hOther
          | @offline later _ hOther hGoing =>
              -- the client has only noted the change when it retires the socket
              have hNoticed := hSteady.noticed hOther
              rw [clearTimer_eq hNoticed] at hUnwedged
              have hTold : Clean (Client.onStateChange
                  { c with notices := later, timers := [], timer := none } .offline) :=
                ⟨h.released, h.fresh⟩
              have hRetired : Steady (Client.onStateChange
                  { c with notices := later, timers := [], timer := none } .offline) := by
                have hCleared := hNoticed.clearTimer
                rw [clearTimer_eq hNoticed] at hCleared
                exact hCleared.call _
              obtain ⟨j, s, hAt, hLeak⟩ := hTold.leaks_offline hRetired hGoing hHeld
              exact hLeak (hUnwedged.released j s hAt)
  | «open» => exact absurd trivial hHarm
  | close => exact absurd trivial hHarm
  | timer => exact absurd trivial hHarm
  | network => exact absurd trivial hHarm
  | stop => exact absurd trivial hHarm

end Steps

section Runs

variable {options : InvalidationSocketOptions} {c d t : Client} {onLine : Bool} {version : Int}

/-- What a client that makes no call that throws keeps to. -/
structure Sound (c : Client) : Prop where
  steady : Steady c
  waits : Waits c
  clean : Clean c

theorem sound_start (onLine : Bool) (version : Int) : Sound (start onLine version) := by
  have hSteady : Steady ⟨onLine, [], true, false, 0, none, 0, none, [], [], 0, []⟩ :=
    ⟨.inl rfl, .nil, (fun g hMem => by cases hMem), (by simp), fun i hi => by simp [Client.generations] at hi, (by simp),
      fun _ => rfl, (by simp)⟩
  have hClean : Clean ⟨onLine, [], true, false, 0, none, 0, none, [], [], 0, []⟩ :=
    ⟨fun j s hAt => by simp at hAt, (by simp)⟩
  constructor
  · exact hSteady.connect version
  · exact .connect hSteady version fun j s hAt => by simp at hAt
  · exact hClean.connect hSteady version

theorem run_append (before later : List Event) :
    run options c (before ++ later) = (run options c before).bind fun d => run options d later :=
  List.foldlM_append

theorem run_singleton (event : Event) : run options c [event] = step options c event := by
  simp [run]

theorem run_concat {before : List Event} {event : Event}
    (h : run options c (before ++ [event]) = some t) :
    ∃ d, run options c before = some d ∧ step options d event = some t := by
  rw [run_append, Option.bind_eq_some_iff] at h
  simpa only [run_singleton] using h

/-- Every client that is reached is steady and waits for what is to come. -/
theorem steady_run {before : List Event} (h : run options (start onLine version) before = some c) :
    Steady c ∧ Waits c := by
  induction before using List.reverseRecOn generalizing c with
  | nil =>
      cases h
      exact ⟨(sound_start onLine version).steady, (sound_start onLine version).waits⟩
  | append_singleton before event ih =>
      obtain ⟨d, hBefore, hStep⟩ := run_concat h
      have hStepped := (ih hBefore).1.stepped hStep
      exact ⟨(ih hBefore).1.after hStepped, (ih hBefore).2.stepped (ih hBefore).1 hStepped⟩

/-- All events of a run that the run can come to are harmless. -/
def HarmlessRun (options : InvalidationSocketOptions) (onLine : Bool) (version : Int)
    (events : List Event) : Prop :=
  ∀ (before : List Event) (event : Event) (c : Client), before ++ [event] <+: events →
    run options (start onLine version) before = some c → Harmless options c event

/-- A run of harmless events keeps the client clean. -/
theorem clean_run {before : List Event} (hHarmless : HarmlessRun options onLine version before)
    (h : run options (start onLine version) before = some c) : Clean c := by
  induction before using List.reverseRecOn generalizing c with
  | nil =>
      cases h
      exact (sound_start onLine version).clean
  | append_singleton before event ih =>
      obtain ⟨d, hBefore, hStep⟩ := run_concat h
      have hEarlier : HarmlessRun options onLine version before := fun first other e hPrefix =>
        hHarmless first other e (hPrefix.trans (List.prefix_append _ _))
      obtain ⟨hSteady, hWaits⟩ := steady_run hBefore
      have hEvent := hHarmless before event d (List.prefix_refl _) hBefore
      exact (ih hEarlier hBefore).after hSteady hWaits hEvent (hSteady.stepped hStep)

/-- A client that has stopped is silent from then on. -/
theorem silent_run {later : List Event} (hSteady : Steady c) (hStopped : c.stopped = true)
    (h : run options c later = some d) :
    Steady d ∧ d.stopped = true ∧ d.calls = c.calls ∧ d.sockets.length = c.sockets.length := by
  induction later using List.reverseRecOn generalizing d with
  | nil =>
      cases h
      exact ⟨hSteady, hStopped, rfl, rfl⟩
  | append_singleton later event ih =>
      obtain ⟨e, hBefore, hStep⟩ := run_concat h
      obtain ⟨hSteady', hStopped', hCalls, hLength⟩ := ih hBefore
      have hStepped := hSteady'.stepped hStep
      obtain ⟨hStill, hSame, hSockets⟩ := hStepped.silent hSteady' hStopped'
      exact ⟨hSteady'.after hStepped, hStill, hSame.trans hCalls, hSockets.trans hLength⟩

/-- A run in which the client never wedges, never leaks and is silent after the stop. -/
structure NeverWedges (options : InvalidationSocketOptions) (onLine : Bool) (version : Int)
    (events : List Event) : Prop where
  unwedged : ∀ (before : List Event) (c : Client), before <+: events →
    run options (start onLine version) before = some c → Unwedged c
  silent : ∀ (before later : List Event) (c d : Client), before ++ later <+: events →
    run options (start onLine version) before = some c → run options c later = some d →
    c.stopped = true → d.calls = c.calls ∧ d.sockets.length = c.sockets.length

/-- The first event that is not harmless leaves a socket behind. -/
theorem NeverWedges.harmless {events : List Event} (h : NeverWedges options onLine version events)
    (before : List Event) (hPrefix : before <+: events) :
    HarmlessRun options onLine version before := by
  induction before using List.reverseRecOn with
  | nil =>
      intro first event c hFirst
      simp at hFirst
  | append_singleton before last ih =>
      intro first event c hFirst hRun
      have hEarlier := ih ((List.prefix_append _ _).trans hPrefix)
      rcases (List.prefix_concat_iff).mp hFirst with hSame | hProper
      · obtain ⟨rfl, hLast⟩ := List.append_inj' hSame rfl
        cases hLast
        by_contra hHarm
        obtain ⟨t, hStep, hWedged⟩ :=
          (clean_run hEarlier hRun).leaks (steady_run hRun).1 hHarm
        apply hWedged
        apply h.unwedged _ t hPrefix
        rw [run_append, hRun, Option.bind_some, run_singleton, hStep]
      · exact hEarlier first event c hProper hRun

/-- Nothing wedges and nothing leaks exactly if the client is never told that it is offline while
it has a socket, and its current socket delivers only what can be decoded. -/
theorem never_wedges_iff (options : InvalidationSocketOptions) (onLine : Bool) (version : Int)
    (events : List Event) :
    NeverWedges options onLine version events ↔ HarmlessRun options onLine version events := by
  constructor
  · exact fun h => h.harmless events (List.prefix_refl _)
  · intro h
    constructor
    · intro before c hPrefix hRun
      obtain ⟨hSteady, hWaits⟩ := steady_run hRun
      apply hSteady.unwedged hWaits
      exact clean_run (fun first event d hFirst => h first event d (hFirst.trans hPrefix)) hRun
    · intro before later c d _ hRun hLater hStopped
      obtain ⟨-, -, hCalls, hLength⟩ := silent_run (steady_run hRun).1 hStopped hLater
      exact ⟨hCalls, hLength⟩

/-- A page whose messages are all undecodable. -/
def demoOptions : InvalidationSocketOptions := ⟨⟨"game", "https://arena.example"⟩, fun _ => none⟩

/-- The close call of a client that goes offline while it is connected throws, and the socket is
left open. -/
theorem offline_leaks : ¬ NeverWedges demoOptions true 0 [.open 0, .network, .notice 0] := by
  intro h
  have hRun : run demoOptions (start true 0) [.open 0, .network, .notice 0] =
      some ⟨false, [], true, false, 0, some 0, 2, none, [⟨1, 0, [], false, true, false⟩], [], 0,
        [.stateChange .connecting, .stateChange .live, .stateChange .offline]⟩ := by decide
  exact (h.unwedged _ _ (List.prefix_refl _) hRun).released 0 _ rfl (.inl rfl) rfl

/-- A client that loses its socket, waits for the next one and is then stopped has closed what it
retired. -/
example : (run demoOptions (start false 0) [.network, .notice 3, .open 0, .close 0, .timer 0 4,
    .network, .stop, .notice 5]).map (·.sockets) =
      some [⟨2, 3, [], true, false, false⟩, ⟨3, 4, [1000], false, true, false⟩] := by decide

end Runs

end WordArena.Web
