import WordArena.Web.Generations

/-! A client that is online has a socket or waits to open one. What can go wrong is a close
call with a code that a page may not use, since the rest of its handler is then skipped. -/
namespace WordArena.Web

section Waiting

variable {options : InvalidationSocketOptions} {c t : Client} {event : Event} {i j : Nat}
  {f : WebSocket → WebSocket} {s : WebSocket}

/-- The client has a socket that can still deliver, or a timer. -/
def Client.alive (c : Client) : Prop :=
  c.timers ≠ [] ∨ ∃ (j : Nat) (s : WebSocket), c.sockets[j]? = some s ∧
    s.generation = c.socketGeneration ∧ s.ended = false

/-- A timer is pending only after the current socket has ended, a socket that is not current
has ended or was retired, and a client that was told of the network as it is is alive. -/
structure Waits (c : Client) : Prop where
  idle : c.timers ≠ [] → ∀ (j : Nat) (s : WebSocket), c.sockets[j]? = some s →
    s.generation = c.socketGeneration → s.ended = true
  closed : ∀ (j : Nat) (s : WebSocket), c.sockets[j]? = some s →
    s.generation ≠ c.socketGeneration → s.ended = true ∨ s.retired = true
  alive : c.onLine = true → c.notices = [] → c.stopped = false → c.alive

theorem seen_cases (h : (c.seen i f).sockets[j]? = some s) :
    ∃ old, c.sockets[j]? = some old ∧ (i = j ∧ s = f old ∨ i ≠ j ∧ s = old) := by
  rw [getElem?_seen, Option.map_eq_some_iff] at h
  obtain ⟨old, hOld, hNew⟩ := h
  by_cases hSame : i = j
  · exact ⟨old, hOld, .inl ⟨hSame, by rw [← hNew, if_pos hSame]⟩⟩
  · exact ⟨old, hOld, .inr ⟨hSame, by rw [← hNew, if_neg hSame]⟩⟩

theorem getElem?_generations (h : c.sockets[j]? = some s) :
    c.generations[j]? = some s.generation := by simp [Client.generations, h]

/-- The current socket is the one in hand. -/
theorem Steady.socket_of_current (h : Steady c) (hAt : c.sockets[j]? = some s)
    (hCurrent : s.generation = c.socketGeneration) : c.socket = some j := by
  apply h.current
  rw [getElem?_generations hAt, hCurrent]

theorem heard_iff (hAt : c.sockets[i]? = some s) :
    c.heard i ↔ s.generation = c.socketGeneration := by
  simp [Client.heard, Client.generation, hAt]

theorem exists_delivering (h : c.delivers i = true) :
    ∃ s, c.sockets[i]? = some s ∧ s.ended = false := by
  simpa [Client.delivers, Option.any_eq_true] using h

/-- A socket that was not current before it changed is still over. -/
theorem Waits.over_seen (h : Waits c) (hg : ∀ s, (f s).generation = s.generation)
    (he : ∀ s, s.ended = true → (f s).ended = true)
    (hr : ∀ s, s.retired = true → (f s).retired = true)
    (hAt : (c.seen i f).sockets[j]? = some s) (hOld : s.generation ≠ c.socketGeneration) :
    s.ended = true ∨ s.retired = true := by
  obtain ⟨old, hBefore, ⟨-, rfl⟩ | ⟨-, rfl⟩⟩ := seen_cases hAt
  · rw [hg] at hOld
    rcases h.closed j old hBefore hOld with hEnded | hRetired
    · exact .inl (he old hEnded)
    · exact .inr (hr old hRetired)
  · exact h.closed j s hBefore hOld

/-- What is noted of a socket does not matter to the client while the socket goes on. -/
theorem Waits.seen (h : Waits c) (hg : ∀ s, (f s).generation = s.generation)
    (he : ∀ s, (f s).ended = s.ended) (hr : ∀ s, s.retired = true → (f s).retired = true) :
    Waits (c.seen i f) := by
  constructor
  · intro hPending j s hAt hCurrent
    obtain ⟨old, hBefore, ⟨-, rfl⟩ | ⟨-, rfl⟩⟩ := seen_cases hAt
    · rw [he]
      exact h.idle hPending j old hBefore ((hg old).symm.trans hCurrent)
    · exact h.idle hPending j s hBefore hCurrent
  · intro j s hAt hOld
    exact h.over_seen hg (fun s hEnded => (he s).trans hEnded) hr hAt hOld
  · intro hOnLine hTold hGoing
    rcases h.alive hOnLine hTold hGoing with hPending | ⟨j, s, hAt, hCurrent, hEnded⟩
    · exact .inl hPending
    · right
      by_cases hSame : i = j
      · refine ⟨j, f s, ?_, (hg s).trans hCurrent, (he s).trans hEnded⟩
        rw [getElem?_seen, hAt, Option.map_some, if_pos hSame]
      · refine ⟨j, s, ?_, hCurrent, hEnded⟩
        rw [getElem?_seen, hAt, Option.map_some, if_neg hSame]

theorem Waits.call (h : Waits c) (callback : Callback) : Waits (c.call callback) :=
  ⟨h.idle, h.closed, h.alive⟩

/-- A socket that was in hand and is not current any more is retired. -/
theorem Steady.over_retire (h : Steady c)
    (hOver : ∀ (j : Nat) (s : WebSocket), c.sockets[j]? = some s →
      s.generation ≠ c.socketGeneration → s.ended = true ∨ s.retired = true)
    (hAt : c.retire.sockets[j]? = some s) : s.ended = true ∨ s.retired = true := by
  rw [Client.retire] at hAt
  cases hSocket : c.socket with
  | none =>
      rw [hSocket] at hAt
      apply hOver j s hAt
      intro hCurrent
      have hHeld := h.socket_of_current hAt hCurrent
      rw [hSocket] at hHeld
      cases hHeld
  | some i =>
      rw [hSocket] at hAt
      obtain ⟨old, hBefore, ⟨-, rfl⟩ | ⟨hOther, rfl⟩⟩ := seen_cases hAt
      · exact .inr rfl
      · apply hOver j s hBefore
        intro hCurrent
        have hHeld := h.socket_of_current hBefore hCurrent
        rw [hSocket] at hHeld
        exact hOther (Option.some.inj hHeld)

@[simp] theorem closedHeld_timers (code : Nat) : (c.closedHeld code).timers = c.timers := by
  rw [Client.closedHeld]
  cases c.socket <;> rfl

@[simp] theorem closedHeld_stopped (code : Nat) : (c.closedHeld code).stopped = c.stopped := by
  rw [Client.closedHeld]
  cases c.socket <;> rfl

@[simp] theorem closedHeld_calls (code : Nat) : (c.closedHeld code).calls = c.calls := by
  rw [Client.closedHeld]
  cases c.socket <;> rfl

@[simp] theorem closedHeld_length (code : Nat) :
    (c.closedHeld code).sockets.length = c.sockets.length := by
  rw [Client.closedHeld]
  cases c.socket with
  | none => rfl
  | some i => exact length_seen

theorem closedHeld_congr {d : Client} {code : Nat} (hSockets : d.sockets = c.sockets)
    (hSocket : d.socket = c.socket) :
    (d.closedHeld code).sockets = (c.closedHeld code).sockets := by
  rw [Client.closedHeld, Client.closedHeld, hSocket]
  cases c.socket with
  | none => exact hSockets
  | some i => simp only [Client.seen, hSockets]

theorem closedHeld_cases {code : Nat} (hAt : (c.closedHeld code).sockets[j]? = some s) :
    ∃ old, c.sockets[j]? = some old ∧
      (c.socket = some j ∧ s = { old with closes := old.closes ++ [code] } ∨
        c.socket ≠ some j ∧ s = old) := by
  rw [Client.closedHeld] at hAt
  cases hSocket : c.socket with
  | none =>
      rw [hSocket] at hAt
      exact ⟨s, hAt, .inr ⟨(by simp), rfl⟩⟩
  | some i =>
      rw [hSocket] at hAt
      obtain ⟨old, hBefore, ⟨rfl, hNew⟩ | ⟨hOther, hNew⟩⟩ := seen_cases hAt
      · exact ⟨old, hBefore, .inl ⟨rfl, hNew⟩⟩
      · exact ⟨old, hBefore, .inr ⟨fun hSame => hOther (Option.some.inj hSame), hNew⟩⟩

/-- A client without timers and current sockets waits for nothing. -/
theorem Waits.of_retired (hTimers : c.timers = [])
    (hOver : ∀ (j : Nat) (s : WebSocket), c.sockets[j]? = some s → s.ended = true ∨ s.retired = true)
    (hDown : c.onLine = false ∨ c.notices ≠ [] ∨ c.stopped = true) : Waits c := by
  constructor
  · exact fun hPending => absurd hTimers hPending
  · exact fun j s hAt _ => hOver j s hAt
  · intro hOnLine hTold hGoing
    simp [hOnLine, hTold, hGoing] at hDown

/-- A socket that is not current may be followed by the next generation. -/
theorem Waits.opened (version : Int)
    (hOver : ∀ (j : Nat) (s : WebSocket), c.sockets[j]? = some s → s.ended = true ∨ s.retired = true) :
    Waits (c.opened version) := by
  constructor
  · exact fun hPending => absurd rfl hPending
  · intro j s hAt hOld
    by_cases hBefore : j < c.sockets.length
    · rw [Client.opened, List.getElem?_append_left hBefore] at hAt
      exact hOver j s hAt
    · have hLast : j = c.sockets.length := by
        have hBound := (List.getElem?_eq_some_iff.mp hAt).1
        simp only [Client.opened, List.length_append, List.length_singleton] at hBound
        omega
      rw [Client.opened, hLast] at hAt
      simp only [List.getElem?_concat_length, Option.some.injEq] at hAt
      rw [← hAt] at hOld
      exact absurd rfl hOld
  · intro _ _ _
    right
    refine ⟨c.sockets.length, ⟨c.socketGeneration + 1, version, [], false, false, false⟩, ?_, rfl, rfl⟩
    simp [Client.opened]

/-- Connecting a client whose sockets are all over. -/
theorem Waits.connect (hSteady : Steady c) (version : Int)
    (hOver : ∀ (j : Nat) (s : WebSocket), c.sockets[j]? = some s → s.ended = true ∨ s.retired = true) :
    Waits (c.connect version) := by
  rcases connect_cases hSteady version with ⟨hStopped, hSame⟩ | ⟨-, hOffLine, hSame⟩ | ⟨-, -, hSame⟩
  · rw [hSame]
    exact ⟨fun hPending => absurd (hSteady.stopped hStopped).2.1 hPending,
      fun j s hAt _ => hOver j s hAt, fun _ _ hGoing => absurd (hGoing.symm.trans hStopped) Bool.false_ne_true⟩
  · rw [hSame, clearTimer_eq hSteady]
    exact ⟨fun hPending => absurd rfl hPending, fun j s hAt _ => hOver j s hAt,
      fun hOnLine => absurd (hOffLine.symm.trans hOnLine) Bool.false_ne_true⟩
  · rw [hSame]
    exact .opened version hOver

/-- The current socket has ended. -/
theorem Waits.lost (h : Waits c) (hSteady : Steady c) (hHeard : c.heard i)
    (hAt : c.sockets[i]? = some s) : Waits (c.seen i WebSocket.end).scheduleReconnect := by
  have hCurrent := (heard_iff hAt).mp hHeard
  have hHeld := hSteady.socket_of_current hAt hCurrent
  have hSteady' : Steady (c.seen i WebSocket.end) := hSteady.seen fun s => rfl
  have hIdle : ∀ (j : Nat) (s : WebSocket), (c.seen i WebSocket.end).sockets[j]? = some s →
      s.generation = c.socketGeneration → s.ended = true := by
    intro j s hAt hCurrent
    obtain ⟨old, hBefore, ⟨-, rfl⟩ | ⟨hOther, rfl⟩⟩ := seen_cases hAt
    · rfl
    · have hSame := hSteady.socket_of_current hBefore hCurrent
      rw [hHeld] at hSame
      exact absurd (Option.some.inj hSame) hOther
  have hOver : ∀ (j : Nat) (s : WebSocket), (c.seen i WebSocket.end).sockets[j]? = some s →
      s.generation ≠ c.socketGeneration → s.ended = true ∨ s.retired = true := fun j s hAt hOld =>
    h.over_seen (f := WebSocket.end) (fun s => rfl) (fun s _ => rfl) (fun s hRetired => hRetired)
      hAt hOld
  rcases scheduleReconnect_cases hSteady' with
    ⟨hStopped, hSame⟩ | ⟨-, hOffLine, hSame⟩ | ⟨-, -, hSame⟩
  · rw [hSame]
    exact ⟨fun _ => hIdle, hOver,
      fun _ _ hGoing => absurd (hGoing.symm.trans hStopped) Bool.false_ne_true⟩
  · rw [hSame, clearTimer_eq hSteady']
    exact ⟨fun _ => hIdle, hOver,
      fun hOnLine => absurd (hOffLine.symm.trans hOnLine) Bool.false_ne_true⟩
  · rw [hSame]
    exact ⟨fun _ => hIdle, hOver, fun _ _ _ => .inl (List.cons_ne_nil _ _)⟩

/-- A socket that is not current has ended. -/
theorem Waits.closedLate (h : Waits c) (hLate : ¬ c.heard i) : Waits (c.seen i WebSocket.end) := by
  constructor
  · intro hPending j s hAt hCurrent
    obtain ⟨old, hBefore, ⟨-, rfl⟩ | ⟨-, rfl⟩⟩ := seen_cases hAt
    · rfl
    · exact h.idle hPending j s hBefore hCurrent
  · intro j s hAt hOld
    exact h.over_seen (f := WebSocket.end) (fun s => rfl) (fun s _ => rfl)
      (fun s hRetired => hRetired) hAt hOld
  · intro hOnLine hTold hGoing
    rcases h.alive hOnLine hTold hGoing with hPending | ⟨j, s, hAt, hCurrent, hEnded⟩
    · exact .inl hPending
    · right
      refine ⟨j, s, ?_, hCurrent, hEnded⟩
      have hOther : i ≠ j := by
        intro hSame
        exact hLate (hSame ▸ (heard_iff hAt).mpr hCurrent)
      rw [getElem?_seen, hAt, Option.map_some, if_neg hOther]

@[simp] theorem retire_notices : c.retire.notices = c.notices := by
  obtain ⟨sockets, hEq, -⟩ := retire_eq (c := c)
  rw [hEq]

@[simp] theorem retire_timers : c.retire.timers = c.timers := by
  obtain ⟨sockets, hEq, -⟩ := retire_eq (c := c)
  rw [hEq]

@[simp] theorem retire_onLine : c.retire.onLine = c.onLine := by
  obtain ⟨sockets, hEq, -⟩ := retire_eq (c := c)
  rw [hEq]

/-- Closing the socket in hand does not bring it back. -/
theorem over_closedHeld {code : Nat}
    (h : ∀ (j : Nat) (s : WebSocket), c.sockets[j]? = some s → s.ended = true ∨ s.retired = true)
    (hAt : (c.closedHeld code).sockets[j]? = some s) : s.ended = true ∨ s.retired = true := by
  obtain ⟨old, hBefore, ⟨-, rfl⟩ | ⟨-, rfl⟩⟩ := closedHeld_cases hAt
  · exact h j old hBefore
  · exact h j s hBefore

theorem Waits.stepped (h : Waits c) (hSteady : Steady c) (hStep : Stepped options c event t) :
    Waits t := by
  cases hStep with
  | opened => exact ⟨h.idle, h.closed, h.alive⟩
  | openedLate => exact h
  | marked => exact h.call _
  | ignored => exact h
  | spoiled => exact h.seen (fun s => rfl) (fun s => rfl) fun s hRetired => hRetired
  | lost hDelivers hHeard =>
      obtain ⟨s, hAt, -⟩ := exists_delivering hDelivers
      exact h.lost hSteady hHeard hAt
  | closedLate hDelivers hLate => exact h.closedLate hLate
  | retried hPending =>
      -- the current socket has ended, since a timer was pending
      apply Waits.connect hSteady.fired
      intro j s hAt
      by_cases hCurrent : s.generation = c.socketGeneration
      · exact .inl (h.idle hPending j s hAt hCurrent)
      · exact h.closed j s hAt hCurrent
  | network => exact ⟨h.idle, h.closed, fun _ hTold => absurd hTold (by simp)⟩
  | unheard hNotices hStopped =>
      exact ⟨h.idle, h.closed,
        fun _ _ hGoing => absurd (hGoing.symm.trans hStopped) Bool.false_ne_true⟩
  | online hNotices =>
      have hNoticed := hSteady.noticed hNotices
      apply Waits.connect hNoticed.released
      intro j s hAt
      exact over_closedHeld (fun j s hAt => hNoticed.over_retire h.closed hAt) hAt
  | @offline rest version hNotices =>
      have hNoticed := hSteady.noticed hNotices
      have hCleared := (hNoticed.clearTimer).call (.stateChange .offline)
      apply Waits.of_retired
      · rw [retire_timers, clearTimer_eq hNoticed]
        rfl
      · intro j s hAt
        apply hCleared.over_retire _ hAt
        rw [clearTimer_eq hNoticed]
        exact h.closed
      · rw [retire_onLine, retire_notices, clearTimer_eq hNoticed]
        -- the browser is offline, unless another change is still to be told
        cases hRest : rest with
        | nil =>
            left
            exact (hSteady.told false (by rw [hNotices, hRest]; rfl)).symm
        | cons => exact .inr (.inl (List.cons_ne_nil _ _))
  | stopped =>
      rw [halted_eq hSteady]
      apply Waits.of_retired
      · rw [closedHeld_timers]
      · intro j s hAt
        apply over_closedHeld _ hAt
        intro j s hAt
        exact hSteady.over_retire h.closed hAt
      · rw [closedHeld_stopped]
        exact .inr (.inr rfl)

end Waiting

section Closed

variable {options : InvalidationSocketOptions} {c t : Client} {event : Event} {i j : Nat}
  {f : WebSocket → WebSocket} {s : WebSocket}

/-- A socket that should not be used any more was closed. -/
def WebSocket.released (s : WebSocket) : Prop := s.retired = true ∨ s.spoiled = true → s.closes ≠ []

/-- All that should not be used any more was closed, and the socket in hand is current, in
order and open. -/
structure Clean (c : Client) : Prop where
  released : ∀ (j : Nat) (s : WebSocket), c.sockets[j]? = some s → s.released
  fresh : c.stopped = false → ∀ (j : Nat) (s : WebSocket), c.socket = some j →
    c.sockets[j]? = some s → s.generation = c.socketGeneration ∧ s.closes = [] ∧
      s.retired = false ∧ s.spoiled = false

/-- An event that makes no close call that throws. -/
def Harmless (options : InvalidationSocketOptions) (c : Client) : Event → Prop
  | .message i data _ => c.delivers i = true → options.marker data = none → ¬ c.heard i
  | .notice _ => c.listening = true → c.notices.head? = some false → c.socket = none
  | _ => True

theorem Clean.call (h : Clean c) (callback : Callback) : Clean (c.call callback) :=
  ⟨h.released, h.fresh⟩

theorem Clean.clearTimer (h : Clean c) : Clean c.clearTimer := by
  rw [Client.clearTimer]
  cases c.timer with
  | none => exact h
  | some id => exact ⟨h.released, h.fresh⟩

theorem Clean.opened (hReleased : ∀ (j : Nat) (s : WebSocket), c.sockets[j]? = some s → s.released)
    (version : Int) : Clean (c.opened version) := by
  constructor
  · intro j s hAt
    have hMem := List.mem_of_getElem? hAt
    rw [Client.opened, List.mem_append, List.mem_singleton] at hMem
    rcases hMem with hOld | rfl
    · obtain ⟨k, hBefore⟩ := List.getElem?_of_mem hOld
      exact hReleased k s hBefore
    · intro hUsed
      simp at hUsed
  · intro hGoing j s hHeld hAt
    cases hHeld
    simp only [Client.opened, List.getElem?_concat_length, Option.some.injEq] at hAt
    rw [← hAt]
    exact ⟨rfl, rfl, rfl, rfl⟩

theorem Clean.connect (h : Clean c) (hSteady : Steady c) (version : Int) :
    Clean (c.connect version) := by
  rcases connect_cases hSteady version with ⟨-, hSame⟩ | ⟨-, -, hSame⟩ | ⟨-, -, hSame⟩
  · rwa [hSame]
  · rw [hSame]
    exact h.clearTimer.call _
  · rw [hSame]
    exact .opened h.released version

theorem Clean.scheduleReconnect (h : Clean c) (hSteady : Steady c) : Clean c.scheduleReconnect := by
  rcases scheduleReconnect_cases hSteady with ⟨-, hSame⟩ | ⟨-, -, hSame⟩ | ⟨-, -, hSame⟩
  · rwa [hSame]
  · rw [hSame]
    exact h.clearTimer.call _
  · rw [hSame]
    exact ⟨h.released, h.fresh⟩

/-- The end of a socket is not a close call. -/
theorem Clean.ended (h : Clean c) : Clean (c.seen i WebSocket.end) := by
  constructor
  · intro j s hAt
    obtain ⟨old, hBefore, ⟨-, rfl⟩ | ⟨-, rfl⟩⟩ := seen_cases hAt
    · exact h.released j old hBefore
    · exact h.released j s hBefore
  · intro hGoing j s hHeld hAt
    obtain ⟨old, hBefore, ⟨-, rfl⟩ | ⟨-, rfl⟩⟩ := seen_cases hAt
    · exact h.fresh hGoing j old hHeld hBefore
    · exact h.fresh hGoing j s hHeld hBefore

/-- The socket in hand is retired and then closed. -/
theorem released_closedHeld (h : Clean c) {code : Nat}
    (hAt : (c.retire.closedHeld code).sockets[j]? = some s) : s.released := by
  obtain ⟨old, hBefore, ⟨-, rfl⟩ | ⟨hOther, rfl⟩⟩ := closedHeld_cases hAt
  · exact fun _ => List.append_ne_nil_of_right_ne_nil _ (List.cons_ne_nil _ _)
  · rw [retire_socket] at hOther
    rw [Client.retire] at hBefore
    cases hSocket : c.socket with
    | none =>
        rw [hSocket] at hBefore
        exact h.released j s hBefore
    | some i =>
        rw [hSocket] at hBefore hOther
        obtain ⟨old, hAt, ⟨rfl, -⟩ | ⟨-, rfl⟩⟩ := seen_cases hBefore
        · exact absurd rfl hOther
        · exact h.released j s hAt

/-- A client without a socket has nothing to retire. -/
theorem Clean.retire_of_none (h : Clean c) (hNone : c.socket = none) : Clean c.retire := by
  rw [Client.retire]
  simp only [hNone]
  exact ⟨h.released, (by simp)⟩

/-- What cannot be decoded comes from a socket that was retired before. -/
theorem Clean.spoiled (h : Clean c) (hWaits : Waits c) (hDelivers : c.delivers i = true)
    (hLate : ¬ c.heard i) : Clean (c.seen i WebSocket.spoil) := by
  obtain ⟨late, hLateAt, hOpen⟩ := exists_delivering hDelivers
  have hOld : late.generation ≠ c.socketGeneration := fun hCurrent =>
    hLate ((heard_iff hLateAt).mpr hCurrent)
  have hRetired : late.retired = true := by
    rcases hWaits.closed i late hLateAt hOld with hEnded | hRetired
    · rw [hOpen] at hEnded
      cases hEnded
    · exact hRetired
  constructor
  · intro j s hAt
    obtain ⟨old, hBefore, ⟨rfl, rfl⟩ | ⟨-, rfl⟩⟩ := seen_cases hAt
    · rw [hLateAt] at hBefore
      cases hBefore
      exact fun _ => h.released i late hLateAt (.inl hRetired)
    · exact h.released j s hBefore
  · intro hGoing j s hHeld hAt
    obtain ⟨old, hBefore, ⟨rfl, rfl⟩ | ⟨-, rfl⟩⟩ := seen_cases hAt
    · rw [hLateAt] at hBefore
      cases hBefore
      exact absurd (h.fresh hGoing i late hHeld hLateAt).1 hOld
    · exact h.fresh hGoing j s hHeld hBefore

theorem Clean.after (h : Clean c) (hSteady : Steady c) (hWaits : Waits c)
    (hHarmless : Harmless options c event) (hStep : Stepped options c event t) : Clean t := by
  cases hStep with
  | opened => exact ⟨h.released, h.fresh⟩
  | openedLate => exact h
  | marked => exact h.call _
  | ignored => exact h
  | spoiled hDelivers hMarker => exact h.spoiled hWaits hDelivers (hHarmless hDelivers hMarker)
  | lost => exact h.ended.scheduleReconnect (hSteady.seen fun s => rfl)
  | closedLate => exact h.ended
  | retried =>
      have hFired : Clean { c with timers := [] } := ⟨h.released, h.fresh⟩
      exact hFired.connect hSteady.fired _
  | network => exact ⟨h.released, h.fresh⟩
  | unheard => exact ⟨h.released, h.fresh⟩
  | @online rest version hNotices =>
      have hNoticed : Clean { c with notices := rest } := ⟨h.released, h.fresh⟩
      apply Clean.connect _ (hSteady.noticed hNotices).released
      exact ⟨fun j s hAt => released_closedHeld hNoticed hAt, nofun⟩
  | @offline rest version hNotices hGoing =>
      have hNoticed := hSteady.noticed hNotices
      have hNone : c.socket = none := hHarmless (hSteady.listening hGoing) (by rw [hNotices]; rfl)
      apply Clean.retire_of_none
      · rw [clearTimer_eq hNoticed]
        exact ⟨h.released, h.fresh⟩
      · rw [clearTimer_eq hNoticed]
        exact hNone
  | stopped =>
      rw [halted_eq hSteady]
      constructor
      · intro j s hAt
        apply released_closedHeld h
        rw [← hAt]
        exact congrArg (·[j]?) (closedHeld_congr rfl rfl)
      · intro hGoing
        rw [closedHeld_stopped] at hGoing
        cases hGoing

end Closed

end WordArena.Web
