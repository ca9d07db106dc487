import WordArena.Library.Broadcast
import WordArena.Server.Handlers

/-! One client of the event stream of a game. Commits, publications of committed
versions and the steps of the client interleave in any order. -/
namespace WordArena.Server

open WordArena.Service

def websocketBuffer : Nat := 64

/-- The channels of all games. A game without a sender gets an empty one on first
use. A value that is sent while nobody listens reaches no later receiver. -/
abbrev NotificationHub := GameId → Broadcast GameInvalidation websocketBuffer

namespace NotificationHub

def empty : NotificationHub := fun _ => .empty

def subscribe (hub : NotificationHub) (gameId : GameId) : Nat := (hub gameId).tail

def publish (hub : NotificationHub) (marker : GameInvalidation) : NotificationHub :=
  fun gameId => if gameId = marker.gameId then (hub gameId).send marker else hub gameId

end NotificationHub

/-- The variables of `websocket_loop`. -/
structure EventLoop where
  receiver : Nat
  lastVersion : UInt64
  currentVersion : UInt64

/-- Where a connection stands. Every place at which it awaits is one state. -/
inductive Connection where
  | connecting
  | subscribed (receiver : Nat)
  | accepted (loop : EventLoop)
  | idle (loop : EventLoop)
  | sending (loop : EventLoop) (marker : GameInvalidation)
  | rereading (loop : EventLoop)
  | closed

/-- A marker that was sent, with the version of the game that was stored then. -/
structure Delivery where
  marker : GameInvalidation
  stored : UInt64

/-- All games, the hub and one client. `history` holds the markers that were
published for the client's game and `start` their number at the subscription;
the code has neither. -/
structure Stream where
  stored : GameId → UInt64
  committed : List (GameId × UInt64)
  hub : NotificationHub
  connection : Connection
  outbox : List Delivery
  history : List GameInvalidation
  start : Nat

def Stream.initial (versions : GameId → UInt64) : Stream :=
  ⟨versions, [], .empty, .connecting, [], [], 0⟩

inductive StreamAction where
  | commit (gameId : GameId) (version : UInt64)
  | publish (commit : Nat)
  | subscribe
  | read
  | begin
  | receive
  | reread
  | send
  | hangUp

section

variable (gameId : GameId) (afterVersion : UInt64)

/-- A commit stores a later version of its game. -/
def Stream.commit (s : Stream) (changed : GameId) (version : UInt64) : Stream :=
  if s.stored changed < version then
    { s with
      stored := Function.update s.stored changed version
      committed := s.committed ++ [(changed, version)] }
  else s

/-- The version of any earlier commit is published, perhaps not for the first
time. -/
def Stream.publish (s : Stream) (commit : Nat) : Stream :=
  match s.committed[commit]? with
  | none => s
  | some (changed, version) =>
      { s with
        hub := s.hub.publish ⟨apiSchemaVersion, changed, version⟩
        history := if changed = gameId then
            s.history ++ [⟨apiSchemaVersion, changed, version⟩]
          else s.history }

/-- Send a version when it is newer than the last one that was sent. -/
def offer (loop : EventLoop) (marker : GameInvalidation) : Connection :=
  if marker.version > loop.lastVersion then .sending loop marker else .idle loop

/-- `game_events` after the authentication: subscribe, then read the game. -/
def Stream.subscribe (s : Stream) : Stream :=
  match s.connection with
  | .connecting =>
      { s with
        connection := .subscribed (s.hub.subscribe gameId)
        start := s.history.length }
  | _ => s

def Stream.read (s : Stream) : Stream :=
  match s.connection with
  | .subscribed receiver =>
      { s with connection :=
          if afterVersion > s.stored gameId then .closed
          else .accepted ⟨receiver, afterVersion, s.stored gameId⟩ }
  | _ => s

/-- The start of `websocket_loop`. -/
def Stream.begin (s : Stream) : Stream :=
  match s.connection with
  | .accepted loop =>
      { s with connection := offer loop ⟨apiSchemaVersion, gameId, loop.currentVersion⟩ }
  | _ => s

def Stream.receive (s : Stream) : Stream :=
  match s.connection with
  | .idle loop =>
      match (s.hub gameId).recv loop.receiver with
      | (.value marker, next) =>
          { s with connection := offer { loop with receiver := next } marker }
      | (.lagged _, next) => { s with connection := .rereading { loop with receiver := next } }
      | (.pending, _) => s
  | _ => s

def Stream.reread (s : Stream) : Stream :=
  match s.connection with
  | .rereading loop =>
      { s with connection := offer loop ⟨apiSchemaVersion, gameId, s.stored gameId⟩ }
  | _ => s

def Stream.send (s : Stream) : Stream :=
  match s.connection with
  | .sending loop marker =>
      { s with
        connection := .idle { loop with lastVersion := marker.version }
        outbox := s.outbox ++ [⟨marker, s.stored gameId⟩] }
  | _ => s

/-- A step that is not possible leaves everything as it is. The connection may
end at any time: the client closes it, a send or a read fails, or there are too
many connections. -/
def Stream.step (s : Stream) : StreamAction → Stream
  | .commit changed version => s.commit changed version
  | .publish commit => s.publish gameId commit
  | .subscribe => s.subscribe gameId
  | .read => s.read gameId afterVersion
  | .begin => s.begin gameId
  | .receive => s.receive gameId
  | .reread => s.reread gameId
  | .send => s.send gameId
  | .hangUp => { s with connection := .closed }

def stream : Machine Stream StreamAction Unit where
  step s action := ((), s.step gameId afterVersion action)

end

/-! What every run keeps. -/

/-- What a receiver has passed since the subscription is at most a version. -/
def Stream.Seen (s : Stream) (receiver : Nat) (bound : UInt64) : Prop :=
  receiver ≤ s.history.length ∧ ∀ position marker, s.start ≤ position → position < receiver →
    s.history[position]? = some marker → marker.version ≤ bound

/-- What the loop has sent, and what it was asked to start after, is at most its
last version. -/
structure Stream.Paced (s : Stream) (afterVersion : UInt64) (loop : EventLoop) : Prop where
  sent : ∀ delivery ∈ s.outbox, delivery.marker.version ≤ loop.lastVersion
  asked : afterVersion ≤ loop.lastVersion

/-- What the state of the connection says. -/
def Stream.Coherent (s : Stream) (gameId : GameId) (afterVersion : UInt64) : Prop :=
  match s.connection with
  | .connecting => s.outbox = []
  | .subscribed receiver => s.outbox = [] ∧ receiver = s.start ∧ s.start ≤ s.history.length
  | .accepted loop => s.outbox = [] ∧ loop.receiver = s.start ∧ s.start ≤ s.history.length ∧
      loop.lastVersion = afterVersion ∧ afterVersion ≤ loop.currentVersion ∧
      loop.currentVersion ≤ s.stored gameId
  | .idle loop => s.Paced afterVersion loop ∧ loop.currentVersion ≤ loop.lastVersion ∧
      s.Seen loop.receiver loop.lastVersion
  | .sending loop marker => s.Paced afterVersion loop ∧ loop.lastVersion < marker.version ∧
      marker.version ≤ s.stored gameId ∧ loop.currentVersion ≤ marker.version ∧
      s.Seen loop.receiver marker.version
  | .rereading loop => s.Paced afterVersion loop ∧ loop.currentVersion ≤ loop.lastVersion ∧
      loop.receiver ≤ s.history.length
  | .closed => True

/-- The invariant of all runs. -/
structure Stream.Sound (gameId : GameId) (afterVersion : UInt64) (s : Stream) : Prop where
  commits : ∀ commit ∈ s.committed, commit.2 ≤ s.stored commit.1
  records : (s.hub gameId).Records s.history
  published : ∀ marker ∈ s.history, marker.version ≤ s.stored gameId
  increasing : (s.outbox.map fun delivery => delivery.marker.version).Pairwise (· < ·)
  bounded : ∀ delivery ∈ s.outbox, afterVersion < delivery.marker.version ∧
    delivery.marker.version ≤ delivery.stored
  coherent : s.Coherent gameId afterVersion

section

variable {gameId : GameId} {afterVersion : UInt64} {s : Stream}

theorem Stream.Seen.mono {receiver : Nat} {bound bound' : UInt64} (h : s.Seen receiver bound)
    (hLe : bound ≤ bound') : s.Seen receiver bound' :=
  ⟨h.1, fun position marker hStart hNext hSome =>
    UInt64.le_trans (h.2 position marker hStart hNext hSome) hLe⟩

/-- All that was published has at most the stored version. -/
theorem Stream.Sound.seen_stored (h : s.Sound gameId afterVersion) {receiver : Nat}
    (hReceiver : receiver ≤ s.history.length) : s.Seen receiver (s.stored gameId) :=
  ⟨hReceiver, fun _ marker _ _ hSome => h.published marker (List.mem_of_getElem? hSome)⟩

/-- Nothing of what follows the start was passed at the start. -/
theorem Stream.seen_start (hStart : s.start ≤ s.history.length) (bound : UInt64) :
    s.Seen s.start bound :=
  ⟨hStart, fun _ _ hFrom hBefore _ => absurd hBefore (Nat.not_lt.mpr hFrom)⟩

theorem Stream.sound_initial (versions : GameId → UInt64) :
    (Stream.initial versions).Sound gameId afterVersion where
  commits _ h := absurd h List.not_mem_nil
  records := Broadcast.records_empty
  published _ h := absurd h List.not_mem_nil
  increasing := .nil
  bounded _ h := absurd h List.not_mem_nil
  coherent := rfl

/-- A step of the connection alone. -/
theorem Stream.Sound.connect (h : s.Sound gameId afterVersion) {connection : Connection}
    (hCoherent : { s with connection := connection }.Coherent gameId afterVersion) :
    { s with connection := connection }.Sound gameId afterVersion :=
  ⟨h.commits, h.records, h.published, h.increasing, h.bounded, hCoherent⟩

/-- An offer keeps to what was passed: it is sent, or was not newer. -/
theorem Stream.Sound.offer (h : s.Sound gameId afterVersion) {loop : EventLoop}
    {marker : GameInvalidation} (hPaced : s.Paced afterVersion loop)
    (hStored : marker.version ≤ s.stored gameId)
    (hCurrent : loop.currentVersion ≤ loop.lastVersion ∨ loop.currentVersion ≤ marker.version)
    (hSeen : ∀ bound, loop.lastVersion ≤ bound → marker.version ≤ bound →
      s.Seen loop.receiver bound) :
    { s with connection := Server.offer loop marker }.Sound gameId afterVersion := by
  refine h.connect ?_
  unfold Server.offer
  by_cases hNewer : marker.version > loop.lastVersion
  · rw [if_pos hNewer]
    refine ⟨⟨hPaced.sent, hPaced.asked⟩, hNewer, hStored, ?_,
      hSeen _ (UInt64.le_of_lt hNewer) (UInt64.le_refl _)⟩
    rcases hCurrent with hLast | hMarker
    · exact UInt64.le_trans hLast (UInt64.le_of_lt hNewer)
    · exact hMarker
  · rw [if_neg hNewer]
    have hOld : marker.version ≤ loop.lastVersion := UInt64.not_lt.mp hNewer
    refine ⟨⟨hPaced.sent, hPaced.asked⟩, ?_, hSeen _ (UInt64.le_refl _) hOld⟩
    rcases hCurrent with hLast | hMarker
    · exact hLast
    · exact UInt64.le_trans hMarker hOld

/-! Steps. -/

/-- Later versions and markers of the games change nothing of what is known. -/
theorem Stream.Coherent.later {t : Stream} (h : s.Coherent gameId afterVersion)
    (hStored : s.stored gameId ≤ t.stored gameId) (hHistory : s.history <+: t.history)
    (hConnection : t.connection = s.connection) (hOutbox : t.outbox = s.outbox)
    (hStart : t.start = s.start) : t.Coherent gameId afterVersion := by
  have hLength := hHistory.length_le
  have hPaced : ∀ loop, s.Paced afterVersion loop → t.Paced afterVersion loop :=
    fun loop hPaced => ⟨hOutbox ▸ hPaced.sent, hPaced.asked⟩
  have hSeen : ∀ receiver bound, s.Seen receiver bound → t.Seen receiver bound := by
    rintro receiver bound ⟨hReceiver, hPassed⟩
    refine ⟨Nat.le_trans hReceiver hLength, fun position marker hFrom hBefore hSome => ?_⟩
    refine hPassed position marker (hStart ▸ hFrom) hBefore ?_
    obtain ⟨more, hMore⟩ := hHistory
    rwa [← hMore, List.getElem?_append_left (Nat.lt_of_lt_of_le hBefore hReceiver)] at hSome
  unfold Stream.Coherent at h ⊢
  rw [hConnection]
  cases hState : s.connection with
  | connecting =>
      rw [hState] at h
      exact hOutbox.trans h
  | subscribed receiver =>
      rw [hState] at h
      exact ⟨hOutbox.trans h.1, h.2.1.trans hStart.symm, hStart ▸ Nat.le_trans h.2.2 hLength⟩
  | accepted loop =>
      rw [hState] at h
      obtain ⟨hNone, hReceiver, hFrom, hLast, hAsked, hCurrent⟩ := h
      exact ⟨hOutbox.trans hNone, hReceiver.trans hStart.symm, hStart ▸ Nat.le_trans hFrom hLength,
        hLast, hAsked, UInt64.le_trans hCurrent hStored⟩
  | idle loop =>
      rw [hState] at h
      exact ⟨hPaced _ h.1, h.2.1, hSeen _ _ h.2.2⟩
  | sending loop marker =>
      rw [hState] at h
      obtain ⟨hPacing, hNewer, hKnown, hCurrent, hPassed⟩ := h
      exact ⟨hPaced _ hPacing, hNewer, UInt64.le_trans hKnown hStored, hCurrent, hSeen _ _ hPassed⟩
  | rereading loop =>
      rw [hState] at h
      exact ⟨hPaced _ h.1, h.2.1, Nat.le_trans h.2.2 hLength⟩
  | closed => trivial

theorem Stream.Sound.commit (h : s.Sound gameId afterVersion) (changed : GameId)
    (version : UInt64) : (s.commit changed version).Sound gameId afterVersion := by
  unfold Stream.commit
  by_cases hLater : s.stored changed < version
  · rw [if_pos hLater]
    have hStored : ∀ game, s.stored game ≤ Function.update s.stored changed version game := by
      intro game
      by_cases hGame : game = changed
      · subst hGame
        rw [Function.update_self]
        exact UInt64.le_of_lt hLater
      · rw [Function.update_of_ne hGame]
        exact UInt64.le_refl _
    refine ⟨fun commit hCommit => ?_, h.records, fun marker hMarker =>
      UInt64.le_trans (h.published marker hMarker) (hStored gameId), h.increasing, h.bounded,
      h.coherent.later (hStored gameId) (List.prefix_refl _) rfl rfl rfl⟩
    rcases List.mem_append.mp hCommit with hOld | hNew
    · exact UInt64.le_trans (h.commits commit hOld) (hStored _)
    · rw [List.mem_singleton.mp hNew]
      change version ≤ Function.update s.stored changed version changed
      rw [Function.update_self]
      exact UInt64.le_refl _
  · rw [if_neg hLater]
    exact h

theorem Stream.Sound.publish (h : s.Sound gameId afterVersion) (commit : Nat) :
    (s.publish gameId commit).Sound gameId afterVersion := by
  unfold Stream.publish
  split
  · exact h
  · rename_i changed version hCommit
    have hVersion : version ≤ s.stored changed := h.commits _ (List.mem_of_getElem? hCommit)
    by_cases hGame : changed = gameId
    · subst hGame
      refine ⟨h.commits, ?_, fun marker hMarker => ?_, h.increasing, h.bounded,
        h.coherent.later (UInt64.le_refl _) ?_ rfl rfl rfl⟩
      · simp only [NotificationHub.publish, if_true]
        exact h.records.send _
      · simp only [if_true] at hMarker
        rcases List.mem_append.mp hMarker with hOld | hNew
        · exact h.published marker hOld
        · rw [List.mem_singleton.mp hNew]
          exact hVersion
      · simp only [if_true]
        exact List.prefix_append _ _
    · have hOther : gameId ≠ changed := fun hSame => hGame hSame.symm
      simp only [if_neg hGame]
      refine ⟨h.commits, ?_, h.published, h.increasing, h.bounded,
        h.coherent.later (UInt64.le_refl _) (List.prefix_refl _) rfl rfl rfl⟩
      simp only [NotificationHub.publish, if_neg hOther]
      exact h.records

theorem Stream.Sound.subscribe (h : s.Sound gameId afterVersion) :
    (s.subscribe gameId).Sound gameId afterVersion := by
  unfold Stream.subscribe
  split
  · rename_i hState
    have hNone := h.coherent
    simp only [Stream.Coherent, hState] at hNone
    exact ⟨h.commits, h.records, h.published, h.increasing, h.bounded, hNone, h.records.tail_eq,
      Nat.le_refl _⟩
  · exact h

theorem Stream.Sound.read (h : s.Sound gameId afterVersion) :
    (s.read gameId afterVersion).Sound gameId afterVersion := by
  unfold Stream.read
  split
  · rename_i receiver hState
    have hCoherent := h.coherent
    simp only [Stream.Coherent, hState] at hCoherent
    refine h.connect ?_
    by_cases hFuture : afterVersion > s.stored gameId
    · rw [if_pos hFuture]
      trivial
    · rw [if_neg hFuture]
      exact ⟨hCoherent.1, hCoherent.2.1, hCoherent.2.2, rfl, UInt64.not_lt.mp hFuture,
        UInt64.le_refl _⟩
  · exact h

theorem Stream.Sound.begin (h : s.Sound gameId afterVersion) :
    (s.begin gameId).Sound gameId afterVersion := by
  unfold Stream.begin
  split
  · rename_i loop hState
    have hCoherent := h.coherent
    simp only [Stream.Coherent, hState] at hCoherent
    obtain ⟨hNone, hReceiver, hStart, hLast, hAsked, hCurrent⟩ := hCoherent
    refine h.offer ⟨fun _ hMem => ?_, hLast ▸ UInt64.le_refl _⟩ hCurrent (.inr (UInt64.le_refl _))
      fun bound _ _ => ?_
    · rw [hNone] at hMem
      exact absurd hMem List.not_mem_nil
    · rw [hReceiver]
      exact Stream.seen_start hStart bound
  · exact h

theorem Stream.Sound.receive (h : s.Sound gameId afterVersion) :
    (s.receive gameId).Sound gameId afterVersion := by
  unfold Stream.receive
  split
  · rename_i loop hState
    have hCoherent := h.coherent
    simp only [Stream.Coherent, hState] at hCoherent
    obtain ⟨hPaced, hCurrent, hReceiver, hPassed⟩ := hCoherent
    split
    · rename_i marker next hRecv
      obtain ⟨hMarker, rfl⟩ := h.records.value hRecv
      obtain ⟨hBound, -⟩ := List.getElem?_eq_some_iff.mp hMarker
      refine h.offer ⟨hPaced.sent, hPaced.asked⟩ (h.published marker (List.mem_of_getElem? hMarker))
        (.inl hCurrent) fun bound hLast hNew => ⟨hBound, fun position other hFrom hBefore hSome => ?_⟩
      -- A position that was passed is an old one or that of the new marker.
      rcases Nat.lt_or_eq_of_le (Nat.le_of_lt_succ hBefore) with hOld | rfl
      · exact UInt64.le_trans (hPassed position other hFrom hOld hSome) hLast
      · rw [hMarker, Option.some.injEq] at hSome
        exact hSome ▸ hNew
    · rename_i missed next hRecv
      exact h.connect ⟨⟨hPaced.sent, hPaced.asked⟩, hCurrent, (h.records.lagged hRecv).2⟩
    · exact h
  · exact h

/-- What was missed is covered by the version that is read afterwards. -/
theorem Stream.Sound.reread (h : s.Sound gameId afterVersion) :
    (s.reread gameId).Sound gameId afterVersion := by
  unfold Stream.reread
  split
  · rename_i loop hState
    have hCoherent := h.coherent
    simp only [Stream.Coherent, hState] at hCoherent
    obtain ⟨hPaced, hCurrent, hReceiver⟩ := hCoherent
    exact h.offer hPaced (UInt64.le_refl _) (.inl hCurrent) fun bound _ hBound =>
      (h.seen_stored hReceiver).mono hBound
  · exact h

theorem Stream.Sound.send (h : s.Sound gameId afterVersion) :
    (s.send gameId).Sound gameId afterVersion := by
  unfold Stream.send
  split
  · rename_i loop marker hState
    have hCoherent := h.coherent
    simp only [Stream.Coherent, hState] at hCoherent
    obtain ⟨hPaced, hNewer, hStored, hCurrent, hPassed⟩ := hCoherent
    refine ⟨h.commits, h.records, h.published, ?_, fun delivery hDelivery => ?_,
      ⟨fun delivery hDelivery => ?_, UInt64.le_trans hPaced.asked (UInt64.le_of_lt hNewer)⟩, hCurrent,
      hPassed⟩
    · change ((s.outbox ++ [(⟨marker, s.stored gameId⟩ : Delivery)]).map fun delivery =>
        delivery.marker.version).Pairwise (· < ·)
      rw [List.map_append, List.pairwise_append]
      refine ⟨h.increasing, List.pairwise_singleton _ _, fun old hOld new hNew => ?_⟩
      obtain ⟨delivery, hDelivery, rfl⟩ := List.mem_map.mp hOld
      rw [List.mem_singleton.mp hNew]
      exact UInt64.lt_of_le_of_lt (hPaced.sent delivery hDelivery) hNewer
    · rcases List.mem_append.mp hDelivery with hOld | hNew
      · exact h.bounded delivery hOld
      · rw [List.mem_singleton.mp hNew]
        exact ⟨UInt64.lt_of_le_of_lt hPaced.asked hNewer, hStored⟩
    · rcases List.mem_append.mp hDelivery with hOld | hNew
      · exact UInt64.le_trans (hPaced.sent delivery hOld) (UInt64.le_of_lt hNewer)
      · rw [List.mem_singleton.mp hNew]
        exact UInt64.le_refl _
  · exact h

theorem Stream.Sound.step (h : s.Sound gameId afterVersion) (action : StreamAction) :
    ((stream gameId afterVersion).step s action).2.Sound gameId afterVersion := by
  cases action with
  | commit changed version => exact h.commit changed version
  | publish commit => exact h.publish commit
  | subscribe => exact h.subscribe
  | read => exact h.read
  | begin => exact h.begin
  | receive => exact h.receive
  | reread => exact h.reread
  | send => exact h.send
  | hangUp => exact h.connect trivial

end

/-- However commits, publications and the client interleave, the versions that
are sent to the client increase strictly, are newer than the one it asked to
start after and not newer than what is stored when they are sent. Whenever the
loop waits with nothing left to receive, its last version covers the version that
was read at the connection and everything published since the subscription. -/
theorem event_markers_complete (gameId : GameId) (afterVersion : UInt64)
    (versions : GameId → UInt64) (actions : List StreamAction) (s : Stream)
    (hRun : (stream gameId afterVersion).after (.initial versions) actions = s) :
    (s.outbox.map fun delivery => delivery.marker.version).Pairwise (· < ·) ∧
    (∀ delivery ∈ s.outbox, afterVersion < delivery.marker.version ∧
      delivery.marker.version ≤ delivery.stored) ∧
    ∀ loop, s.connection = .idle loop → loop.receiver = (s.hub gameId).tail →
      loop.currentVersion ≤ loop.lastVersion ∧
        ∀ marker ∈ s.history.drop s.start, marker.version ≤ loop.lastVersion := by
  have hAfter : ((stream gameId afterVersion).after (.initial versions) actions).Sound gameId
      afterVersion :=
    (stream gameId afterVersion).after_invariant (fun _ action h => h.step action)
      (Stream.sound_initial versions) actions
  have hSound : s.Sound gameId afterVersion := hRun ▸ hAfter
  refine ⟨hSound.increasing, hSound.bounded, fun loop hIdle hCaught => ?_⟩
  have hCoherent := hSound.coherent
  simp only [Stream.Coherent, hIdle] at hCoherent
  obtain ⟨-, hCurrent, -, hPassed⟩ := hCoherent
  refine ⟨hCurrent, fun marker hMarker => ?_⟩
  obtain ⟨offset, hOffset⟩ := List.mem_iff_getElem?.mp hMarker
  rw [List.getElem?_drop] at hOffset
  obtain ⟨hBound, -⟩ := List.getElem?_eq_some_iff.mp hOffset
  refine hPassed _ marker (Nat.le_add_right _ _) ?_ hOffset
  rw [hCaught, hSound.records.tail_eq]
  exact hBound

/-! A client that connects between two commits. -/

def demoStreamId : GameId := ⟨"game", by decide⟩

/-- The first commit is published after the subscription, the second one is read
at the connection and published later. -/
def demoStreamActions : List StreamAction :=
  [.commit demoStreamId 1, .subscribe, .publish 0, .commit demoStreamId 2, .read, .begin, .send,
    .receive, .commit demoStreamId 3, .publish 2, .publish 1, .receive, .send, .receive]

def demoStream : Stream := (stream demoStreamId 0).after (.initial fun _ => 0) demoStreamActions

theorem demoStream_connection : demoStream.connection = .idle ⟨3, 3, 2⟩ := rfl

/-- The client got the second and the third version, and waits for more. -/
theorem demo_stream_complete :
    demoStream.outbox.map (fun delivery => delivery.marker.version) = [2, 3] ∧
    demoStream.history.map (fun marker => marker.version) = [1, 3, 2] ∧
    (2 : UInt64) ≤ 3 ∧ ∀ marker ∈ demoStream.history.drop demoStream.start, marker.version ≤ 3 :=
  ⟨rfl, rfl, (event_markers_complete demoStreamId 0 (fun _ => 0) demoStreamActions demoStream rfl).2.2
    _ demoStream_connection rfl⟩

end WordArena.Server
