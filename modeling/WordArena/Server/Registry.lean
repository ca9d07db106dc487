import WordArena.Server.Authority

/-! The binding table and the live sessions. The table follows the sessions only
as long as nothing happens between the steps of a request that its later steps
do not look at again. -/
namespace WordArena.Server

open Fallible WordArena.Engine WordArena.Application WordArena.Service WordArena.Capability

namespace Gateway

variable {platform : Platform} {key : CapabilityDigestKey} {s t : Gateway}

/-- A request that has been answered. -/
def Finished (s : Gateway) (i : Nat) : Prop :=
  ∃ request result, s.calls[i]? = some (⟨request, .done result⟩ : Call)

/-- No request is in progress. -/
def Idle (s : Gateway) : Prop := ∀ i < s.calls.length, s.Finished i

/-- The table is exact whenever no request is in progress, a client whose
initialization was answered finds its session there while the session lives, and
there are never too many sessions. -/
structure Tracked (platform : Platform) (s : Gateway) : Prop where
  exact : s.Idle → ∀ session, session ∈ s.bindings ↔
    (∃ creation ∈ s.created, creation.session = session ∧ creation.initialized = true) ∧
      session ∈ s.live
  kept : ∀ creation ∈ s.created, creation.initialized = true → s.Finished creation.call →
    creation.session ∈ s.live →
      s.bindings.lookup creation.session =
        some (sessionBinding platform creation.request creation.authority)
  bounded : s.live.length ≤ maxMcpSessions

/-- What has to hold when a request takes a step. -/
def CallCareful (s : Gateway) (action : GatewayAction) (call : Call) : Prop :=
  match action, call.stage with
  | .retain _, .surveyed _ live => ∀ session ∈ s.bindings, session ∈ s.live → session ∈ live
  | .dispatch _ choice, .checked _ =>
      call.request.session = none → choice.refused = false ∧ call.request.method = .post ∧
        call.request.message = .initializeSession → s.live.length < maxMcpSessions
  | .update _, .answered _ response =>
      (call.request.method = .delete → ∀ session, call.request.session = some session →
        session ∉ s.live) ∧
      (call.request.method ≠ .delete → ∀ session, response.session = some session →
        session ∈ s.live)
  | _, _ => True

/-- A step that does not lose track: a table is pruned against a list of sessions
that has all live sessions of the table, a request that may create a session is
dispatched while there is room, a session is bound while it lives and unbound when
it does not, and a session that expires is not in the table. -/
def Careful (s : Gateway) (action : GatewayAction) : Prop :=
  match action with
  | .retain i => ∀ call, s.calls[i]? = some call → s.CallCareful action call
  | .dispatch i _ => ∀ call, s.calls[i]? = some call → s.CallCareful action call
  | .update i => ∀ call, s.calls[i]? = some call → s.CallCareful action call
  | .expire session => session ∉ s.bindings
  | _ => True

/-! The invariant. -/

/-- A request to close a session has been answered, and the table is not updated
yet. -/
def Closing (s : Gateway) (session : SessionId) : Prop :=
  ∃ (i : Nat) (request : McpRequest) (credential : CompetitiveSeatCredential)
    (response : McpResponse), s.calls[i]? = some ⟨request, .answered credential response⟩ ∧
      request.method = .delete ∧ request.session = some session

/-- The session has been created, and the table is not updated yet. -/
def Opening (s : Gateway) (creation : Creation) : Prop :=
  creation.request.method = .post ∧ s.calls[creation.call]? =
    some ⟨creation.request, .answered creation.authority ⟨true, some creation.session⟩⟩

structure Registered (s : Gateway) : Prop where
  keys : ∀ session ∈ s.bindings, session ∈ s.live ∨ s.Closing session
  sessions : ∀ creation ∈ s.created, creation.initialized = true → creation.session ∈ s.live →
    creation.session ∈ s.bindings ∨ s.Opening creation
  bounded : s.live.length ≤ maxMcpSessions

theorem registered_initial : Gateway.initial.Registered where
  keys session h := absurd h (AList.notMem_empty session)
  sessions _ h := absurd h List.not_mem_nil
  bounded := Nat.zero_le _

/-- Only the table, the sessions and the requests matter. -/
theorem Registered.congr (h : s.Registered) (hBindings : t.bindings = s.bindings)
    (hLive : t.live = s.live) (hCreated : t.created = s.created) (hCalls : t.calls = s.calls) :
    t.Registered := by
  obtain ⟨hKeys, hSessions, hBounded⟩ := h
  refine ⟨?_, ?_, hLive ▸ hBounded⟩
  · rw [hBindings, hLive]
    unfold Closing
    rw [hCalls]
    exact hKeys
  · rw [hBindings, hLive, hCreated]
    unfold Opening
    rw [hCalls]
    exact hSessions

/-- A request that moves on without having been answered closes nothing. -/
theorem Closing.moveTo {i : Nat} {request : McpRequest} {old : Stage} (stage : Stage)
    {session : SessionId} (h : s.Closing session) (hCall : s.calls[i]? = some ⟨request, old⟩)
    (hOld : ∀ credential response, old = .answered credential response →
      request.method = .delete → request.session ≠ some session) :
    (s.moveTo i request stage).Closing session := by
  obtain ⟨j, other, credential, response, hOther, hMethod, hSession⟩ := h
  by_cases hSame : i = j
  · subst hSame
    rw [hCall, Option.some.injEq, Call.mk.injEq] at hOther
    obtain ⟨rfl, hStage⟩ := hOther
    exact absurd hSession (hOld credential response hStage hMethod)
  · exact ⟨j, other, credential, response,
      by rw [Gateway.moveTo, List.getElem?_set_ne hSame]; exact hOther, hMethod, hSession⟩

theorem Opening.moveTo {i : Nat} {request : McpRequest} {old : Stage} (stage : Stage)
    {creation : Creation} (h : s.Opening creation) (hCall : s.calls[i]? = some ⟨request, old⟩)
    (hOld : request.method = .post →
      old ≠ .answered creation.authority ⟨true, some creation.session⟩) :
    (s.moveTo i request stage).Opening creation := by
  obtain ⟨hMethod, hOther⟩ := h
  refine ⟨hMethod, ?_⟩
  by_cases hSame : i = creation.call
  · rw [← hSame, hCall, Option.some.injEq, Call.mk.injEq] at hOther
    obtain ⟨rfl, hStage⟩ := hOther
    exact absurd hStage (hOld hMethod)
  · rw [Gateway.moveTo, List.getElem?_set_ne hSame]
    exact hOther

/-- A step of one request that does not touch the table. -/
theorem Registered.moveTo (h : s.Registered) {i : Nat} {request : McpRequest} {old : Stage}
    (stage : Stage) (hCall : s.calls[i]? = some ⟨request, old⟩)
    (hClose : ∀ credential response session, old = .answered credential response →
      request.method = .delete → request.session ≠ some session)
    (hOpen : ∀ credential session, request.method = .post →
      old ≠ .answered credential ⟨true, some session⟩) :
    (s.moveTo i request stage).Registered := by
  refine ⟨fun session hKey => ?_, fun creation hCreation hInitialized hLive => ?_, h.bounded⟩
  · exact (h.keys session hKey).imp_right fun hClosing =>
      hClosing.moveTo stage hCall fun credential response => hClose credential response session
  · exact (h.sessions creation hCreation hInitialized hLive).imp_right fun hOpening =>
      hOpening.moveTo stage hCall (hOpen _ _)

/-- A request that is not answered yet moves on. -/
theorem Registered.advance (h : s.Registered) {i : Nat} {request : McpRequest} {old : Stage}
    (stage : Stage) (hCall : s.calls[i]? = some ⟨request, old⟩)
    (hOld : ∀ credential response, old ≠ .answered credential response) :
    (s.moveTo i request stage).Registered :=
  h.moveTo stage hCall (fun credential response _ hStage => absurd hStage (hOld credential response))
    fun credential _ _ => hOld credential _

theorem mem_retainSessions {β : Type} {table : AList fun _ : SessionId => β}
    {live : List SessionId} {session : SessionId} :
    session ∈ retainSessions table live ↔ session ∈ table ∧ session ∈ live := by
  simp only [← AList.lookup_isSome, Option.isSome_iff_exists, lookup_retainSessions,
    exists_and_right]

/-! The steps that change the table or the sessions. -/

theorem Registered.prune (h : s.Registered) {live : List SessionId}
    (hLive : ∀ session ∈ s.bindings, session ∈ s.live → session ∈ live) :
    { s with bindings := retainSessions s.bindings live }.Registered := by
  refine ⟨fun session hKey => h.keys session (mem_retainSessions.mp hKey).1,
    fun creation hCreation hInitialized hSession => ?_, h.bounded⟩
  exact (h.sessions creation hCreation hInitialized hSession).imp_left fun hKey =>
    mem_retainSessions.mpr ⟨hKey, hLive _ hKey hSession⟩

theorem Registered.forward (h : s.Registered) {i : Nat} {request : McpRequest}
    {credential : CompetitiveSeatCredential} {session : SessionId} (named : Bool)
    (hCall : s.calls[i]? = some ⟨request, .checked credential⟩)
    (hSession : request.session = some session) :
    (s.forward i request credential session named).Registered := by
  have hMoved := h.advance
    (.answered credential ⟨true, if named = true then some session else none⟩) hCall
    fun _ _ => Stage.noConfusion
  by_cases hMethod : request.method = .delete
  · obtain ⟨hi, -⟩ := List.getElem?_eq_some_iff.mp hCall
    rw [Gateway.forward, if_pos hMethod]
    refine ⟨fun other hKey => ?_, fun creation hCreation hInitialized hLive => ?_,
      (List.length_filter_le _ _).trans h.bounded⟩
    · by_cases hSame : other = session
      · exact .inr ⟨i, request, credential, _, List.getElem?_set_self hi, hMethod, hSame ▸ hSession⟩
      · exact (hMoved.keys other hKey).imp_left fun hLive =>
          List.mem_filter.mpr ⟨hLive, decide_eq_true hSame⟩
    · exact hMoved.sessions creation hCreation hInitialized (List.mem_of_mem_filter hLive)
  · rw [Gateway.forward, if_neg hMethod]
    exact hMoved.congr rfl rfl rfl rfl

theorem Registered.create (h : s.Registered) {i : Nat} {request : McpRequest}
    {credential : CompetitiveSeatCredential} {session : SessionId} (initialized : Bool)
    (hCall : s.calls[i]? = some ⟨request, .checked credential⟩) (hMethod : request.method = .post)
    (hFresh : ¬ s.used session) (hRoom : s.live.length < maxMcpSessions) :
    (s.create i request credential session initialized).Registered := by
  have hMoved := h.advance
    (.answered credential ⟨initialized, if initialized = true then some session else none⟩) hCall
    fun _ _ => Stage.noConfusion
  refine ⟨fun other hKey => (hMoved.keys other hKey).imp_left (List.mem_append_left _),
    fun creation hCreation hInitialized hLive => ?_, ?_⟩
  · rcases List.mem_append.mp hCreation with hOld | hNew
    · rcases List.mem_append.mp hLive with hLive | hSame
      · exact hMoved.sessions creation hOld hInitialized hLive
      · exact absurd ⟨creation, hOld, List.mem_singleton.mp hSame⟩ hFresh
    · obtain ⟨hi, -⟩ := List.getElem?_eq_some_iff.mp hCall
      rw [List.mem_singleton.mp hNew] at hInitialized ⊢
      dsimp only at hInitialized
      subst hInitialized
      exact .inr ⟨hMethod, List.getElem?_set_self hi⟩
  · rw [Gateway.create, List.length_append]
    exact hRoom

theorem Registered.unbind (h : s.Registered) {i : Nat} {request : McpRequest}
    {credential : CompetitiveSeatCredential} {response : McpResponse} {session : SessionId}
    (hCall : s.calls[i]? = some ⟨request, .answered credential response⟩)
    (hMethod : request.method = .delete) (hSession : request.session = some session)
    (hClosed : session ∉ s.live) :
    { s.moveTo i request (.unbound session response) with
      bindings := s.bindings.erase session }.Registered := by
  refine ⟨fun other hKey => ?_, fun creation hCreation hInitialized hLive => ?_, h.bounded⟩
  · obtain ⟨hOther, hKey⟩ := AList.mem_erase.mp hKey
    refine (h.keys other hKey).imp_right fun hClosing => hClosing.moveTo _ hCall fun _ _ _ _ hSame => ?_
    rw [hSession, Option.some.injEq] at hSame
    exact hOther hSame.symm
  · refine (h.sessions creation hCreation hInitialized hLive).imp (fun hKey => ?_) fun hOpening =>
      hOpening.moveTo _ hCall fun hPost => absurd (hMethod.symm.trans hPost) Method.noConfusion
    refine AList.mem_erase.mpr ⟨fun hSame => hClosed ?_, hKey⟩
    rw [← hSame]
    exact hLive

theorem Registered.bind (h : s.Registered) {i : Nat} {request : McpRequest}
    {credential : CompetitiveSeatCredential} {session : SessionId} (binding : SessionBinding)
    (hCall : s.calls[i]? = some ⟨request, .answered credential ⟨true, some session⟩⟩)
    (hMethod : request.method ≠ .delete) (hLive : session ∈ s.live) :
    { s.moveTo i request (.done (.ok ⟨true, some session⟩)) with
      bindings := s.bindings.insert session binding }.Registered := by
  refine ⟨fun other hKey => ?_, fun creation hCreation hInitialized hSession => ?_, h.bounded⟩
  · rcases (AList.mem_insert _).mp hKey with rfl | hKey
    · exact .inl hLive
    · exact (h.keys other hKey).imp_right fun hClosing =>
        hClosing.moveTo _ hCall fun _ _ _ hDelete => absurd hDelete hMethod
  · by_cases hSame : creation.session = session
    · exact .inl ((AList.mem_insert _).mpr (.inl hSame))
    · refine (h.sessions creation hCreation hInitialized hSession).imp
        (fun hKey => (AList.mem_insert _).mpr (.inr hKey)) fun hOpening =>
          hOpening.moveTo _ hCall fun _ hStage => ?_
      rw [Stage.answered.injEq, McpResponse.mk.injEq, Option.some.injEq] at hStage
      exact hSame hStage.2.2.symm

theorem Registered.effect (h : s.Registered) {action : GatewayAction} (hCareful : s.Careful action)
    (hEffect : Effect platform key s action t) : t.Registered := by
  cases hEffect with
  | idle => exact h
  | setCapabilities => exact h.congr rfl rfl rfl rfl
  | arrive request =>
      refine ⟨fun session hKey => ?_, fun creation hCreation hInitialized hLive => ?_, h.bounded⟩
      · refine (h.keys session hKey).imp_right ?_
        rintro ⟨i, other, credential, response, hCall, hRest⟩
        obtain ⟨hi, -⟩ := List.getElem?_eq_some_iff.mp hCall
        exact ⟨i, other, credential, response, by rw [List.getElem?_append_left hi, hCall], hRest⟩
      · refine (h.sessions creation hCreation hInitialized hLive).imp_right ?_
        rintro ⟨hMethod, hCall⟩
        obtain ⟨hi, -⟩ := List.getElem?_eq_some_iff.mp hCall
        exact ⟨hMethod, by rw [List.getElem?_append_left hi, hCall]⟩
  | unauthorised now hCall => exact h.advance _ hCall fun _ _ => Stage.noConfusion
  | authorised hCall =>
      exact (h.advance (.authenticated _) hCall fun _ _ => Stage.noConfusion).congr rfl rfl rfl rfl
  | survey hCall => exact h.advance _ hCall fun _ _ => Stage.noConfusion
  | retain hCall =>
      exact (h.prune (hCareful _ hCall)).advance _ hCall fun _ _ => Stage.noConfusion
  | retainSubscriptions hCall =>
      exact (h.advance (.pruned _) hCall fun _ _ => Stage.noConfusion).congr rfl rfl rfl rfl
  | refuse error hCall => exact h.advance _ hCall fun _ _ => Stage.noConfusion
  | pass hCall => exact h.advance _ hCall fun _ _ => Stage.noConfusion
  | forward choice hCall hSession => exact h.forward choice.named hCall hSession
  | create hCall hSession hAccepted hMethod hMessage hFresh =>
      exact h.create _ hCall hMethod hFresh
        (hCareful _ hCall hSession ⟨hAccepted, hMethod, hMessage⟩)
  | fail choice hCall => exact h.advance _ hCall fun _ _ => Stage.noConfusion
  | unbind hCall hMethod hSession =>
      exact h.unbind hCall hMethod hSession ((hCareful _ hCall).1 hMethod _ hSession)
  | bind hCall hMethod => exact h.bind _ hCall hMethod ((hCareful _ hCall).2 hMethod _ rfl)
  | settle hCall hDelete hOther =>
      refine h.moveTo _ hCall (fun _ _ _ _ hMethod hSession => ?_) fun _ _ hMethod hStage => ?_
      · rw [hDelete hMethod] at hSession
        cases hSession
      · cases hStage
        have hNone := hOther (by rw [hMethod]; exact Method.noConfusion) rfl
        cases hNone
  | removeSubscriptions hCall =>
      exact (h.advance (.done _) hCall fun _ _ => Stage.noConfusion).congr rfl rfl rfl rfl
  | subscribe => exact h.congr rfl rfl rfl rfl
  | unsubscribe j header uri =>
      unfold Gateway.unsubscribe
      split
      · exact h
      · dsimp only
        split
        · exact h.congr rfl rfl rfl rfl
        · exact h.congr rfl rfl rfl rfl
  | expire session =>
      refine ⟨fun other hKey => (h.keys other hKey).imp_left fun hLive =>
        List.mem_filter.mpr ⟨hLive, decide_eq_true ?_⟩, fun creation hCreation hInitialized hLive =>
          h.sessions creation hCreation hInitialized (List.mem_of_mem_filter hLive),
        (List.length_filter_le _ _).trans h.bounded⟩
      rintro rfl
      exact hCareful hKey
  | notify => exact h.congr rfl rfl rfl rfl

/-! What the invariant says about the table. -/

theorem Idle.not_closing (h : s.Idle) {session : SessionId} : ¬ s.Closing session := by
  rintro ⟨i, request, credential, response, hCall, -⟩
  obtain ⟨hi, -⟩ := List.getElem?_eq_some_iff.mp hCall
  obtain ⟨other, result, hDone⟩ := h i hi
  rw [hCall] at hDone
  cases hDone

theorem Finished.not_opening {creation : Creation} (h : s.Finished creation.call) :
    ¬ s.Opening creation := by
  rintro ⟨-, hCall⟩
  obtain ⟨other, result, hDone⟩ := h
  rw [hCall] at hDone
  cases hDone

theorem Sound.finished (h : s.Sound platform key) (hIdle : s.Idle) {creation : Creation}
    (hCreation : creation ∈ s.created) : s.Finished creation.call := by
  obtain ⟨⟨⟨stage, hCall⟩, -⟩, -⟩ := h.creators creation hCreation
  obtain ⟨hi, -⟩ := List.getElem?_eq_some_iff.mp hCall
  exact hIdle _ hi

/-- A session in the table was initialized. -/
theorem Sound.initialized (h : s.Sound platform key) {session : SessionId}
    (hKey : session ∈ s.bindings) :
    ∃ creation ∈ s.created, creation.session = session ∧ creation.initialized = true := by
  obtain ⟨binding, hBound⟩ := Option.isSome_iff_exists.mp (AList.lookup_isSome.mpr hKey)
  obtain ⟨creation, hCreation, hSession, hInitialized, -⟩ := h.bound session binding hBound
  exact ⟨creation, hCreation, hSession, hInitialized⟩

/-- A session in the table is bound to what it was created with. -/
theorem Sound.binding (h : s.Sound platform key) (hOrderly : s.Orderly) {creation : Creation}
    (hCreation : creation ∈ s.created) (hKey : creation.session ∈ s.bindings) :
    s.bindings.lookup creation.session =
      some (sessionBinding platform creation.request creation.authority) := by
  obtain ⟨binding, hBound⟩ := Option.isSome_iff_exists.mp (AList.lookup_isSome.mpr hKey)
  obtain ⟨other, hOther, hSession, -, rfl⟩ := h.bound _ binding hBound
  rw [hBound, List.inj_on_of_nodup_map hOrderly.distinct hOther hCreation hSession]

theorem Registered.tracked (h : s.Registered) (hSound : s.Sound platform key)
    (hOrderly : s.Orderly) : s.Tracked platform where
  exact hIdle session := by
    refine ⟨fun hKey => ⟨hSound.initialized hKey, ?_⟩, ?_⟩
    · exact (h.keys session hKey).resolve_right hIdle.not_closing
    · rintro ⟨⟨creation, hCreation, rfl, hInitialized⟩, hLive⟩
      exact (h.sessions creation hCreation hInitialized hLive).resolve_right
        (hSound.finished hIdle hCreation).not_opening
  kept creation hCreation hInitialized hFinished hLive :=
    hSound.binding hOrderly hCreation
      ((h.sessions creation hCreation hInitialized hLive).resolve_right hFinished.not_opening)
  bounded := h.bounded

end Gateway

/-- In every run whose steps are careful, the table follows the sessions. -/
theorem registry_tracks_sessions (platform : Platform) (key : CapabilityDigestKey)
    (actions : List GatewayAction)
    (hCareful : (gateway platform key).Conform Gateway.Careful .initial actions) :
    ((gateway platform key).after .initial actions).Tracked platform := by
  have hRegistered : ((gateway platform key).after .initial actions).Registered :=
    Machine.after_conform _
      (fun s action hStep h => h.effect hStep (Gateway.step_effect platform key s action))
      Gateway.registered_initial hCareful
  have hSound : ((gateway platform key).after .initial actions).Sound platform key :=
    Gateway.sound_after actions
  exact hRegistered.tracked hSound (Gateway.orderly_after actions)

theorem session_careful (platform : Platform) {key : CapabilityDigestKey}
    {capability : CapabilityRecord} {game : GameId} {token : String}
    (hCredential : authenticateCapability key [capability] 1 token game .act =
      .ok (.seat ⟨game, .one⟩)) :
    (gateway platform key).Conform Gateway.Careful .initial
      (sessionSteps capability game token) := by
  simp [sessionSteps, gateway, Machine.Conform, Gateway.step, Gateway.initial,
    Gateway.Careful, Gateway.CallCareful,
    Gateway.authenticate, Gateway.survey, Gateway.retain, Gateway.retainSubscriptions,
    Gateway.check, Gateway.refusal, Gateway.dispatch, Gateway.used, Gateway.create, Gateway.forward,
    Gateway.update, Gateway.process, Gateway.subscribe, Gateway.notifyGameUpdated, Gateway.moveTo,
    AList.lookup, retainSessions, sessionBinding, maxMcpSessions, ResourceKind.subscribable,
    hCredential]

/-- The session of the demonstration is in the table when all is done. -/
theorem demo_session_tracked :
    ((gateway basicPlatform demoKey).after .initial demoActions).Tracked basicPlatform :=
  registry_tracks_sessions basicPlatform demoKey demoActions
    (session_careful basicPlatform demo_authenticated)

/-- A request reads the live sessions before a session is created and prunes the
table after the session was bound. -/
def raceActions : List GatewayAction :=
  [.setCapabilities [demoCapability], .arrive (demoRequest none .initializeSession),
    .arrive (demoRequest none .other), .authenticate 1 1, .survey 1] ++
    handled 0 ⟨false, "a", true, true⟩ ++
    [.retain 1, .retainSubscriptions 1, .check 1, .dispatch 1 ⟨false, "b", true, true⟩, .update 1]

/-- The same steps for any record, game and token. -/
def raceSteps (capability : CapabilityRecord) (game : GameId) (token : String) :
    List GatewayAction :=
  [.setCapabilities [capability], .arrive ⟨game, token, .post, none, .initializeSession⟩,
    .arrive ⟨game, token, .post, none, .other⟩, .authenticate 1 1, .survey 1,
    .authenticate 0 1, .survey 0, .retain 0, .retainSubscriptions 0, .check 0,
    .dispatch 0 ⟨false, "a", true, true⟩, .update 0,
    .retain 1, .retainSubscriptions 1, .check 1, .dispatch 1 ⟨false, "b", true, true⟩, .update 1]

theorem raceSteps_after (platform : Platform) {key : CapabilityDigestKey}
    {capability : CapabilityRecord} {game : GameId} {token : String}
    (hCredential : authenticateCapability key [capability] 1 token game .act =
      .ok (.seat ⟨game, .one⟩)) :
    ((gateway platform key).after .initial (raceSteps capability game token)).calls =
        [⟨⟨game, token, .post, none, .initializeSession⟩, .done (.ok ⟨true, some "a"⟩)⟩,
          ⟨⟨game, token, .post, none, .other⟩, .done (.ok ⟨false, none⟩)⟩] ∧
      ((gateway platform key).after .initial (raceSteps capability game token)).live = ["a"] ∧
      ((gateway platform key).after .initial (raceSteps capability game token)).bindings.keys = [] ∧
      ((gateway platform key).after .initial (raceSteps capability game token)).created =
        [⟨0, "a", ⟨game, token, .post, none, .initializeSession⟩, ⟨game, .one⟩, true⟩] := by
  simp [raceSteps, gateway, Machine.after, Gateway.step, Gateway.initial,
    Gateway.authenticate, Gateway.survey, Gateway.retain, Gateway.retainSubscriptions,
    Gateway.check, Gateway.refusal, Gateway.dispatch, Gateway.used, Gateway.create, Gateway.update,
    Gateway.moveTo, retainSessions, sessionBinding, maxMcpSessions, hCredential]

theorem race_after :
    ((gateway basicPlatform demoKey).after .initial raceActions).calls =
        [⟨demoRequest none .initializeSession, .done (.ok ⟨true, some "a"⟩)⟩,
          ⟨demoRequest none .other, .done (.ok ⟨false, none⟩)⟩] ∧
      ((gateway basicPlatform demoKey).after .initial raceActions).live = ["a"] ∧
      ((gateway basicPlatform demoKey).after .initial raceActions).bindings.keys = [] ∧
      ((gateway basicPlatform demoKey).after .initial raceActions).created =
        [⟨0, "a", demoRequest none .initializeSession, ⟨demoGame, .one⟩, true⟩] :=
  raceSteps_after basicPlatform demo_authenticated

theorem race_loses_session :
    ¬ ∀ (platform : Platform) (key : CapabilityDigestKey) (actions : List GatewayAction),
      ((gateway platform key).after .initial actions).Tracked platform := by
  intro h
  obtain ⟨hCalls, hLive, hKeys, hCreated⟩ := race_after
  have hIdle : ((gateway basicPlatform demoKey).after .initial raceActions).Idle := by
    unfold Gateway.Idle Gateway.Finished
    rw [hCalls]
    intro i hi
    match i, hi with
    | 0, _ => exact ⟨_, _, rfl⟩
    | 1, _ => exact ⟨_, _, rfl⟩
  have hKey := ((h basicPlatform demoKey raceActions).exact hIdle "a").mpr
    ⟨⟨_, hCreated ▸ List.mem_singleton_self _, rfl, rfl⟩, hLive ▸ List.mem_singleton_self _⟩
  rw [AList.mem_keys, hKeys] at hKey
  exact absurd hKey List.not_mem_nil

end WordArena.Server
