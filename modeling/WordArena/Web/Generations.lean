import WordArena.Web.InvalidationSocket

/-! Generations of sockets. The listeners of a socket are told apart from those of older
ones by a counter, and a timer is pending only for a socket that has ended. -/
namespace WordArena.Web

section Parts

variable {c : Client} {i : Nat} {f : WebSocket → WebSocket}

def Client.generations (c : Client) : List Nat := c.sockets.map (·.generation)

theorem generations_seen (h : ∀ s, (f s).generation = s.generation) :
    (c.seen i f).generations = c.generations := by
  apply List.ext_getElem?
  intro j
  simp only [Client.generations, Client.seen, List.getElem?_map, List.getElem?_modify]
  cases c.sockets[j]? with
  | none => rfl
  | some s =>
      by_cases hSame : i = j
      · simp [hSame, h]
      · simp [hSame]

theorem getElem?_seen (j : Nat) :
    (c.seen i f).sockets[j]? = (c.sockets[j]?).map fun s => if i = j then f s else s := by
  simp [Client.seen, List.getElem?_modify]

@[simp] theorem length_seen : (c.seen i f).sockets.length = c.sockets.length :=
  List.length_modify ..

/-- The counter runs ahead of all sockets, the current socket is the one in hand, there is
at most one timer, and a client that has stopped listens to nothing. -/
structure Steady (c : Client) : Prop where
  timers : c.timers = [] ∨ ∃ id delay, c.timers = [(id, delay)] ∧ c.timer = some id
  increasing : c.generations.Pairwise (· < ·)
  bounded : ∀ g ∈ c.generations, g ≤ c.socketGeneration
  held : ∀ i, c.socket = some i → i < c.sockets.length
  current : ∀ i, c.generations[i]? = some c.socketGeneration → c.socket = some i
  stopped : c.stopped = true → c.listening = false ∧ c.timers = [] ∧
    c.socketGeneration ∉ c.generations
  listening : c.stopped = false → c.listening = true
  told : ∀ last, c.notices.getLast? = some last → last = c.onLine

theorem Steady.seen (h : Steady c) (hf : ∀ s, (f s).generation = s.generation) :
    Steady (c.seen i f) := by
  constructor
  · exact h.timers
  · rw [generations_seen hf]
    exact h.increasing
  · rw [generations_seen hf]
    exact h.bounded
  · rw [length_seen]
    exact h.held
  · rw [generations_seen hf]
    exact h.current
  · rw [generations_seen hf]
    exact h.stopped
  · exact h.listening
  · exact h.told

theorem Steady.call (h : Steady c) (callback : Callback) : Steady (c.call callback) :=
  ⟨h.timers, h.increasing, h.bounded, h.held, h.current, h.stopped, h.listening, h.told⟩

/-- No timer is left, and nothing else has changed. -/
theorem clearTimer_eq (h : Steady c) :
    c.clearTimer = { c with timers := [], timer := none } := by
  rw [Client.clearTimer]
  rcases h.timers with hNone | ⟨id, delay, hOne, hTimer⟩
  · cases hTimer : c.timer with
    | none =>
        have hSame : { c with timers := [], timer := none } = c := by rw [← hNone, ← hTimer]
        rw [hSame]
    | some id => simp [hNone]
  · rw [hTimer]
    simp [hOne]

theorem Steady.clearTimer (h : Steady c) : Steady c.clearTimer := by
  rw [clearTimer_eq h]
  exact ⟨.inl rfl, h.increasing, h.bounded, h.held, h.current,
    fun hStopped => ⟨(h.stopped hStopped).1, rfl, (h.stopped hStopped).2.2⟩, h.listening, h.told⟩

/-- What retiring leaves: no socket is current. -/
theorem retire_eq : ∃ sockets : List WebSocket,
    c.retire = { c with socketGeneration := c.socketGeneration + 1, sockets := sockets } ∧
      sockets.map (·.generation) = c.generations ∧ sockets.length = c.sockets.length := by
  rw [Client.retire]
  cases hSocket : c.socket with
  | none => exact ⟨c.sockets, rfl, rfl, rfl⟩
  | some i =>
      exact ⟨c.sockets.modify i fun s => { s with retired := true }, rfl,
        generations_seen (c := c) fun s => rfl, List.length_modify ..⟩

theorem retire_not_current (h : Steady c) : c.retire.socketGeneration ∉ c.retire.generations := by
  obtain ⟨sockets, hEq, hSame, -⟩ := retire_eq (c := c)
  rw [hEq]
  show c.socketGeneration + 1 ∉ sockets.map (·.generation)
  rw [hSame]
  intro hMem
  have hBound := h.bounded _ hMem
  omega

theorem Steady.retire (h : Steady c) : Steady c.retire := by
  have hNone := retire_not_current h
  obtain ⟨sockets, hEq, hSame, hLength⟩ := retire_eq (c := c)
  rw [hEq] at hNone ⊢
  have hGenerations : Client.generations { c with
      socketGeneration := c.socketGeneration + 1, sockets := sockets } = c.generations := hSame
  constructor
  · exact h.timers
  · rw [hGenerations]
    exact h.increasing
  · rw [hGenerations]
    exact fun g hMem => Nat.le_succ_of_le (h.bounded g hMem)
  · exact fun i hi => hLength ▸ h.held i hi
  · exact fun i hi => absurd (List.mem_of_getElem? hi) hNone
  · exact fun hStopped => ⟨(h.stopped hStopped).1, (h.stopped hStopped).2.1, hNone⟩
  · exact h.listening
  · exact h.told

/-- A client without a current socket may let go of the one in hand. -/
theorem Steady.drop (h : Steady c) (hNone : c.socketGeneration ∉ c.generations) :
    Steady { c with socket := none } :=
  ⟨h.timers, h.increasing, h.bounded, nofun, fun _ hi => absurd (List.mem_of_getElem? hi) hNone,
    h.stopped, h.listening, h.told⟩

/-- A client that waits for its next attempt. -/
def Client.waiting (c : Client) : Client := { c with
  attempt := c.attempt + 1
  timers := [(c.nextTimer, reconnectDelay c.attempt)]
  nextTimer := c.nextTimer + 1
  timer := some c.nextTimer
  calls := c.calls ++ [.stateChange .reconnecting] }

/-- A client with the next generation in hand. -/
def Client.opened (c : Client) (version : Int) : Client := { c with
  socketGeneration := c.socketGeneration + 1
  sockets := c.sockets ++ [⟨c.socketGeneration + 1, version, [], false, false, false⟩]
  socket := some c.sockets.length
  timers := []
  timer := none
  calls := c.calls ++ [.stateChange (if c.attempt = 0 then .connecting else .reconnecting)] }

theorem scheduleReconnect_cases (h : Steady c) :
    (c.stopped = true ∧ c.scheduleReconnect = c) ∨
    (c.stopped = false ∧ c.onLine = false ∧
      c.scheduleReconnect = c.clearTimer.onStateChange .offline) ∨
    (c.stopped = false ∧ c.onLine = true ∧ c.scheduleReconnect = c.waiting) := by
  rw [Client.scheduleReconnect, clearTimer_eq h]
  cases hStopped : c.stopped with
  | true => exact .inl ⟨rfl, rfl⟩
  | false =>
      cases hOnLine : c.onLine with
      | true =>
          right
          right
          refine ⟨rfl, rfl, ?_⟩
          simp [Client.waiting, Client.onStateChange, Client.call, hStopped, hOnLine]
      | false =>
          right
          left
          exact ⟨rfl, rfl, rfl⟩

theorem connect_cases (h : Steady c) (version : Int) :
    (c.stopped = true ∧ c.connect version = c) ∨
    (c.stopped = false ∧ c.onLine = false ∧
      c.connect version = c.clearTimer.onStateChange .offline) ∨
    (c.stopped = false ∧ c.onLine = true ∧ c.connect version = c.opened version) := by
  rw [Client.connect, clearTimer_eq h]
  cases hStopped : c.stopped with
  | true => exact .inl ⟨rfl, rfl⟩
  | false =>
      cases hOnLine : c.onLine with
      | true =>
          right
          right
          refine ⟨rfl, rfl, ?_⟩
          simp [Client.opened, Client.onStateChange, Client.call, hStopped, hOnLine]
      | false =>
          right
          left
          exact ⟨rfl, rfl, rfl⟩

theorem Steady.waiting (h : Steady c) (hGoing : c.stopped = false) : Steady c.waiting :=
  ⟨.inr ⟨c.nextTimer, reconnectDelay c.attempt, rfl, rfl⟩, h.increasing, h.bounded, h.held,
    h.current, fun hStopped => absurd (hGoing.symm.trans hStopped) Bool.false_ne_true, h.listening,
    h.told⟩

@[simp] theorem generations_opened (version : Int) :
    (c.opened version).generations = c.generations ++ [c.socketGeneration + 1] := by
  simp [Client.generations, Client.opened]

/-- The next generation is beyond all others. -/
theorem Steady.opened (h : Steady c) (hGoing : c.stopped = false) (version : Int) :
    Steady (c.opened version) := by
  have hFresh : ∀ g ∈ c.generations, g < c.socketGeneration + 1 := fun g hMem =>
    Nat.lt_succ_of_le (h.bounded g hMem)
  have hLength : c.generations.length = c.sockets.length := List.length_map ..
  constructor
  · exact .inl rfl
  · rw [generations_opened, List.pairwise_append]
    refine ⟨h.increasing, List.pairwise_singleton _ _, ?_⟩
    intro g hMem other hOther
    rw [List.mem_singleton.mp hOther]
    exact hFresh g hMem
  · intro g hMem
    rw [generations_opened, List.mem_append, List.mem_singleton] at hMem
    rcases hMem with hOld | rfl
    · exact Nat.le_of_lt (hFresh g hOld)
    · exact Nat.le_refl _
  · intro i hi
    cases hi
    simp [Client.opened]
  · intro i hi
    rw [generations_opened] at hi
    show some c.sockets.length = some i
    by_cases hOld : i < c.generations.length
    · rw [List.getElem?_append_left hOld] at hi
      exact absurd (hFresh _ (List.mem_of_getElem? hi)) (Nat.lt_irrefl _)
    · have hBound := (List.getElem?_eq_some_iff.mp hi).1
      rw [List.length_append, List.length_singleton] at hBound
      congr 1
      omega
  · exact fun hStopped => absurd (hGoing.symm.trans hStopped) Bool.false_ne_true
  · exact h.listening
  · exact h.told

theorem Steady.scheduleReconnect (h : Steady c) : Steady c.scheduleReconnect := by
  rcases scheduleReconnect_cases h with ⟨-, hSame⟩ | ⟨-, -, hSame⟩ | ⟨hGoing, -, hSame⟩
  · rwa [hSame]
  · rw [hSame]
    exact h.clearTimer.call _
  · rw [hSame]
    exact h.waiting hGoing

theorem Steady.connect (h : Steady c) (version : Int) : Steady (c.connect version) := by
  rcases connect_cases h version with ⟨-, hSame⟩ | ⟨-, -, hSame⟩ | ⟨hGoing, -, hSame⟩
  · rwa [hSame]
  · rw [hSame]
    exact h.clearTimer.call _
  · rw [hSame]
    exact h.opened hGoing version

end Parts

section Handled

variable {c : Client} {i : Nat} {f : WebSocket → WebSocket}

/-- The socket in hand after a close call that did not throw. -/
def Client.closedHeld (c : Client) (code : Nat) : Client :=
  match c.socket with
  | none => c
  | some i => c.seen i fun s => { s with closes := s.closes ++ [code] }

theorem closeHeld_allowed {code : Nat} (h : closeAllowed code = true) :
    c.closeHeld code = .ok (c.closedHeld code) := by
  rw [Client.closeHeld, Client.closedHeld]
  cases c.socket with
  | none => rfl
  | some i => simp [Client.close, h]

theorem closeHeld_refused {code : Nat} (h : closeAllowed code = false) :
    c.closeHeld code = if c.socket = none then .ok c else .error c := by
  rw [Client.closeHeld]
  cases c.socket with
  | none => rfl
  | some i => simp [Client.close, h]

@[simp] theorem retire_socket : c.retire.socket = c.socket := by
  obtain ⟨sockets, hEq, -⟩ := retire_eq (c := c)
  rw [hEq]

/-- A retired client with the socket in hand closed and let go of. -/
def Client.released (c : Client) : Client :=
  { c.retire.closedHeld 1000 with socket := none, attempt := 0 }

theorem handleOnline_eq (hGoing : c.stopped = false) (version : Int) :
    settle (handleOnline c version) = c.released.connect version := by
  have hClose : c.retire.closeHeld 1000 = .ok (c.retire.closedHeld 1000) :=
    closeHeld_allowed rfl
  rw [handleOnline, if_neg (by simp [hGoing]), hClose]
  rfl

/-- A client that is told that it is offline. The close call throws while there is a socket
in hand, and the socket stays there. -/
theorem handleOffline_eq :
    settle (handleOffline c) = (c.clearTimer.onStateChange .offline).retire := by
  have hRefused : closeAllowed 1001 = false := by decide
  have hClose := closeHeld_refused (c := (c.clearTimer.onStateChange .offline).retire) hRefused
  rw [handleOffline, hClose]
  by_cases hNone : (c.clearTimer.onStateChange .offline).retire.socket = none
  · rw [if_pos hNone]
    show { (c.clearTimer.onStateChange .offline).retire with socket := none } = _
    rw [← hNone]
  · rw [if_neg hNone]
    rfl

/-- A client that is stopped. -/
def Client.halted (c : Client) : Client :=
  ({ ({ c with stopped := true }.retire.clearTimer) with listening := false }).closedHeld 1000

theorem stop_eq : settle (stop c) = c.halted := by
  rw [stop, closeHeld_allowed rfl]
  rfl

theorem Steady.closedHeld (h : Steady c) (code : Nat) : Steady (c.closedHeld code) := by
  rw [Client.closedHeld]
  cases c.socket with
  | none => exact h
  | some i => exact h.seen fun s => rfl

@[simp] theorem generations_closedHeld (code : Nat) :
    (c.closedHeld code).generations = c.generations := by
  rw [Client.closedHeld]
  cases c.socket with
  | none => rfl
  | some i => exact generations_seen fun s => rfl

@[simp] theorem closedHeld_socketGeneration (code : Nat) :
    (c.closedHeld code).socketGeneration = c.socketGeneration := by
  rw [Client.closedHeld]
  cases c.socket <;> rfl

theorem Steady.released (h : Steady c) : Steady c.released := by
  have hClosed := h.retire.closedHeld 1000
  have hNone : (c.retire.closedHeld 1000).socketGeneration ∉
      (c.retire.closedHeld 1000).generations := by
    rw [closedHeld_socketGeneration, generations_closedHeld]
    exact retire_not_current h
  have hDropped := hClosed.drop hNone
  exact ⟨hDropped.timers, hDropped.increasing, hDropped.bounded, hDropped.held, hDropped.current,
    hDropped.stopped, hDropped.listening, hDropped.told⟩

theorem halted_eq (h : Steady c) : c.halted = Client.closedHeld { c.retire with
    stopped := true, timers := [], timer := none, listening := false } 1000 := by
  have hRetired : Client.retire { c with stopped := true } = { c.retire with stopped := true } := by
    rw [Client.retire, Client.retire]
    cases c.socket <;> rfl
  have hCleared : Client.clearTimer { c.retire with stopped := true } =
      { c.retire.clearTimer with stopped := true } := by
    rw [Client.clearTimer, Client.clearTimer]
    cases c.retire.timer <;> rfl
  rw [Client.halted, hRetired, hCleared, clearTimer_eq h.retire]

theorem Steady.halted (h : Steady c) : Steady c.halted := by
  rw [halted_eq h]
  apply Steady.closedHeld
  have hNone := retire_not_current h
  have hRetired := h.retire
  exact ⟨.inl rfl, hRetired.increasing, hRetired.bounded, hRetired.held, hRetired.current,
    fun _ => ⟨rfl, rfl, hNone⟩, nofun, hRetired.told⟩

end Handled

section Steps

variable {options : InvalidationSocketOptions} {c t : Client} {event : Event}

/-- What a message is decoded to. -/
def InvalidationSocketOptions.marker (options : InvalidationSocketOptions) (data : String) :
    Option GameInvalidation :=
  (options.parse data).bind decodeInvalidation

/-- The listeners of a socket act. -/
def Client.heard (c : Client) (i : Nat) : Prop := c.generation i = c.socketGeneration

def WebSocket.end (s : WebSocket) : WebSocket := { s with ended := true }

def WebSocket.spoil (s : WebSocket) : WebSocket := { s with spoiled := true }

/-- What an event can do to a steady client. -/
inductive Stepped (options : InvalidationSocketOptions) (c : Client) : Event → Client → Prop where
  | opened {i : Nat} (hDelivers : c.delivers i = true) (hHeard : c.heard i) :
      Stepped options c (.open i) ({ c with attempt := 0 }.onStateChange .live)
  | openedLate {i : Nat} (hDelivers : c.delivers i = true) (hLate : ¬ c.heard i) :
      Stepped options c (.open i) c
  | marked {i : Nat} {data : String} {version : Int} {marker : GameInvalidation}
      (hDelivers : c.delivers i = true) (hHeard : c.heard i)
      (hMarker : options.marker data = some marker)
      (hNew : shouldInvalidate marker options.session version = true) :
      Stepped options c (.message i data version) (c.call (.invalidation marker))
  | ignored {i : Nat} {data : String} {version : Int} {marker : GameInvalidation}
      (hDelivers : c.delivers i = true) (hMarker : options.marker data = some marker) :
      Stepped options c (.message i data version) c
  | spoiled {i : Nat} {data : String} {version : Int} (hDelivers : c.delivers i = true)
      (hMarker : options.marker data = none) :
      Stepped options c (.message i data version) (c.seen i WebSocket.spoil)
  | lost {i : Nat} (hDelivers : c.delivers i = true) (hHeard : c.heard i) :
      Stepped options c (.close i) (c.seen i WebSocket.end).scheduleReconnect
  | closedLate {i : Nat} (hDelivers : c.delivers i = true) (hLate : ¬ c.heard i) :
      Stepped options c (.close i) (c.seen i WebSocket.end)
  | retried {id : Nat} {version : Int} (hPending : c.timers ≠ []) :
      Stepped options c (.timer id version) ({ c with timers := [] }.connect version)
  | network : Stepped options c .network
      { c with onLine := !c.onLine, notices := c.notices ++ [!c.onLine] }
  | unheard {onLine : Bool} {rest : List Bool} {version : Int} (hNotices : c.notices = onLine :: rest)
      (hStopped : c.stopped = true) : Stepped options c (.notice version) { c with notices := rest }
  | online {rest : List Bool} {version : Int} (hNotices : c.notices = true :: rest)
      (hGoing : c.stopped = false) :
      Stepped options c (.notice version) ({ c with notices := rest }.released.connect version)
  | offline {rest : List Bool} {version : Int} (hNotices : c.notices = false :: rest)
      (hGoing : c.stopped = false) :
      Stepped options c (.notice version)
        ({ c with notices := rest }.clearTimer.onStateChange .offline).retire
  | stopped : Stepped options c .stop c.halted

theorem generation_seen {i : Nat} {f : WebSocket → WebSocket}
    (hf : ∀ s, (f s).generation = s.generation) (j : Nat) :
    (c.seen i f).generation j = c.generation j := by
  rw [Client.generation, Client.generation, getElem?_seen, Option.map_map]
  congr 1
  cases c.sockets[j]? with
  | none => rfl
  | some s =>
      simp only [Option.map_some, Function.comp_apply, Option.some.injEq]
      split_ifs
      · exact hf s
      · rfl

theorem Steady.timers_filter (h : Steady c) {id : Nat} (hPending : c.timers.any (·.1 == id) = true) :
    c.timers ≠ [] ∧ c.timers.filter (·.1 ≠ id) = [] := by
  rcases h.timers with hNone | ⟨other, delay, hOne, -⟩
  · rw [hNone] at hPending
    cases hPending
  · rw [hOne] at hPending ⊢
    have hSame : other = id := by simpa using hPending
    simp [hSame]

theorem Steady.stepped (h : Steady c) (hStep : step options c event = some t) :
    Stepped options c event t := by
  cases event with
  | «open» i =>
      simp only [Web.step, handleOpen] at hStep
      split_ifs at hStep with hDelivers hHeard
      · cases hStep
        exact .openedLate hDelivers hHeard
      · cases hStep
        exact .opened hDelivers (not_not.mp hHeard)
  | message i data version =>
      have hMarker : (options.parse data).bind decodeInvalidation = options.marker data := rfl
      simp only [Web.step, handleMessage, hMarker] at hStep
      by_cases hDelivers : c.delivers i = true
      · rw [if_pos hDelivers] at hStep
        cases hRead : options.marker data with
        | none =>
            have hSame : (c.seen i WebSocket.spoil).close i 1002 = .error (c.seen i WebSocket.spoil) :=
              rfl
            have hState : t = c.seen i WebSocket.spoil := by
              simp only [hRead, Option.isNone_none, if_true] at hStep
              split_ifs at hStep <;> exact (Option.some.inj hStep).symm
            rw [hState]
            exact .spoiled hDelivers hRead
        | some marker =>
            simp only [hRead, Option.isNone_some, Bool.false_eq_true, if_false] at hStep
            split_ifs at hStep with hLate hNew
            · cases hStep
              exact .ignored hDelivers hRead
            · cases hStep
              exact .marked hDelivers (not_not.mp hLate) hRead hNew
            · cases hStep
              exact .ignored hDelivers hRead
      · rw [if_neg hDelivers] at hStep
        cases hStep
  | close i =>
      have hSame := generation_seen (c := c) (i := i) (f := WebSocket.end) (fun s => rfl) i
      simp only [Web.step, handleClose] at hStep
      split_ifs at hStep with hDelivers hLate
      · cases hStep
        exact .closedLate hDelivers fun hHeard => hLate (hSame.trans hHeard)
      · cases hStep
        exact .lost hDelivers (hSame.symm.trans (not_not.mp hLate))
  | timer id version =>
      simp only [Web.step] at hStep
      split_ifs at hStep with hPending
      cases hStep
      obtain ⟨hSome, hNone⟩ := h.timers_filter hPending
      rw [hNone]
      exact .retried hSome
  | network =>
      cases hStep
      exact .network
  | notice version =>
      simp only [Web.step] at hStep
      cases hNotices : c.notices with
      | nil =>
          rw [hNotices] at hStep
          cases hStep
      | cons onLine rest =>
          rw [hNotices] at hStep
          dsimp only at hStep
          cases hStopped : c.stopped with
          | true =>
              have hListening := (h.stopped hStopped).1
              rw [if_pos (by simp [hListening])] at hStep
              cases hStep
              exact .unheard hNotices hStopped
          | false =>
              have hListening := h.listening hStopped
              rw [if_neg (by simp [hListening])] at hStep
              cases onLine with
              | true =>
                  have hOnline := handleOnline_eq (c := { c with notices := rest }) hStopped version
                  rw [if_pos rfl, hOnline] at hStep
                  cases hStep
                  exact .online hNotices hStopped
              | false =>
                  rw [if_neg Bool.false_ne_true, handleOffline_eq] at hStep
                  cases hStep
                  exact .offline hNotices hStopped
  | stop =>
      cases hStep
      rw [stop_eq]
      exact .stopped

theorem Steady.fired (h : Steady c) : Steady { c with timers := [] } :=
  ⟨.inl rfl, h.increasing, h.bounded, h.held, h.current,
    fun hStopped => ⟨(h.stopped hStopped).1, rfl, (h.stopped hStopped).2.2⟩, h.listening, h.told⟩

/-- The last notice is still the last one. -/
theorem Steady.noticed (h : Steady c) {onLine : Bool} {rest : List Bool}
    (hNotices : c.notices = onLine :: rest) : Steady { c with notices := rest } := by
  refine ⟨h.timers, h.increasing, h.bounded, h.held, h.current, h.stopped, h.listening, ?_⟩
  intro last hLast
  apply h.told
  rw [hNotices, List.getLast?_cons]
  simp [show rest.getLast? = some last from hLast]

/-- What an event does keeps a client steady. -/
theorem Steady.after (h : Steady c) (hStep : Stepped options c event t) : Steady t := by
  cases hStep with
  | opened =>
      exact ⟨h.timers, h.increasing, h.bounded, h.held, h.current, h.stopped, h.listening, h.told⟩
  | openedLate => exact h
  | marked => exact h.call _
  | ignored => exact h
  | spoiled => exact h.seen fun s => rfl
  | lost => exact (h.seen (f := WebSocket.end) fun s => rfl).scheduleReconnect
  | closedLate => exact h.seen fun s => rfl
  | retried => exact h.fired.connect _
  | network =>
      refine ⟨h.timers, h.increasing, h.bounded, h.held, h.current, h.stopped, h.listening, ?_⟩
      intro last hLast
      simpa using hLast.symm
  | unheard hNotices => exact h.noticed hNotices
  | online hNotices => exact (h.noticed hNotices).released.connect _
  | offline hNotices => exact ((h.noticed hNotices).clearTimer.call _).retire
  | stopped => exact h.halted

end Steps

end WordArena.Web
