import WordArena.Engine.Fresh
import WordArena.Server.Gateway

/-! Sessions keep their authority: whatever the gateway hands to a session was
sent with the token, the game and the seat the session was created with. -/
namespace WordArena.Server

open Fallible WordArena.Engine WordArena.Application WordArena.Service WordArena.Capability

/-- An authenticated credential is one of the game it was asked for. -/
theorem authenticateCapability_gameId {key : CapabilityDigestKey} {records : List CapabilityRecord}
    {now : UnixMillis} {token : String} {gameId : GameId} {scope : CapabilityScope}
    {held : CompetitiveSeatCredential}
    (h : authenticateCapability key records now token gameId scope = .ok (.seat held)) :
    held.gameId = gameId := by
  obtain ⟨capabilityId, -, h⟩ := bind_eq_ok.mp h
  obtain ⟨record, -, h⟩ := bind_eq_ok.mp h
  split at h
  · cases h
  · rename_i hDenial
    obtain ⟨-, -, -, -, hGame, -⟩ := denial_eq_none.mp hDenial
    rw [pure_eq_ok] at h
    unfold credential at h
    split at h
    · cases h
    · cases h
      exact hGame
    · cases h
    · cases h

theorem lookup_retainSessions {β : Type} {table : AList fun _ : SessionId => β}
    {live : List SessionId} {session : SessionId} {b : β} :
    (retainSessions table live).lookup session = some b ↔
      table.lookup session = some b ∧ session ∈ live := by
  have hEntry : ∀ other : AList fun _ : SessionId => β, other.lookup session = some b ↔
      (⟨session, b⟩ : Sigma fun _ : SessionId => β) ∈ other.entries :=
    fun _ => AList.mem_lookup_iff
  rw [hEntry, hEntry, retainSessions, List.mem_filter, decide_eq_true_eq]

/-! What is known of requests and sessions. -/

namespace Gateway

variable {platform : Platform} {key : CapabilityDigestKey} {s t : Gateway}

/-- A request acts with what was authenticated for it. -/
def Authorised (key : CapabilityDigestKey) (s : Gateway) (i : Nat) (request : McpRequest)
    (credential : CompetitiveSeatCredential) : Prop :=
  (∃ stage, s.calls[i]? = some (⟨request, stage⟩ : Call)) ∧ (i, credential) ∈ s.authentications ∧
    ∃ records now, authenticateCapability key records now request.bearer request.gameId .act =
      .ok (.seat credential)

/-- A session was created with a binding, and its initialization succeeded. -/
def Vouched (platform : Platform) (s : Gateway) (session : SessionId) (binding : SessionBinding) :
    Prop :=
  ∃ creation ∈ s.created, creation.session = session ∧ creation.initialized = true ∧
    sessionBinding platform creation.request creation.authority = binding

/-- A session was created for a game. -/
def CreatedFor (s : Gateway) (session : SessionId) (gameId : GameId) : Prop :=
  ∃ creation ∈ s.created, creation.session = session ∧ creation.request.gameId = gameId

theorem Vouched.createdFor {session : SessionId} {request : McpRequest}
    {credential : CompetitiveSeatCredential}
    (h : s.Vouched platform session (sessionBinding platform request credential)) :
    s.CreatedFor session request.gameId := by
  obtain ⟨creation, hCreation, hSession, -, hBinding⟩ := h
  exact ⟨creation, hCreation, hSession, congrArg SessionBinding.gameId hBinding⟩

/-- What the stage of a request says. -/
def Fits (platform : Platform) (key : CapabilityDigestKey) (s : Gateway) (i : Nat) (call : Call) : Prop :=
  match call.stage with
  | .authenticated credential => s.Authorised key i call.request credential
  | .surveyed credential _ => s.Authorised key i call.request credential
  | .retained credential _ => s.Authorised key i call.request credential
  | .pruned credential => s.Authorised key i call.request credential
  | .checked credential => s.Authorised key i call.request credential ∧
      ∀ session, call.request.session = some session →
        s.Vouched platform session (sessionBinding platform call.request credential)
  | .answered credential response => s.Authorised key i call.request credential ∧
      ∀ session, response.session = some session →
        s.Vouched platform session (sessionBinding platform call.request credential)
  | _ => True

/-- Nothing that is known gets lost. -/
structure Extends (s t : Gateway) : Prop where
  created : ∀ creation ∈ s.created, creation ∈ t.created
  authentications : ∀ entry ∈ s.authentications, entry ∈ t.authentications
  requests : ∀ (i : Nat) request stage, s.calls[i]? = some (⟨request, stage⟩ : Call) →
    ∃ stage', t.calls[i]? = some (⟨request, stage'⟩ : Call)

theorem Authorised.later (hExtends : Extends s t) {i : Nat} {request : McpRequest}
    {credential : CompetitiveSeatCredential} (h : s.Authorised key i request credential) :
    t.Authorised key i request credential := by
  obtain ⟨⟨stage, hCall⟩, hKnown, hGame⟩ := h
  exact ⟨hExtends.requests i request stage hCall, hExtends.authentications _ hKnown, hGame⟩

theorem Vouched.later (hExtends : Extends s t) {session : SessionId} {binding : SessionBinding}
    (h : s.Vouched platform session binding) : t.Vouched platform session binding := by
  obtain ⟨creation, hCreation, hRest⟩ := h
  exact ⟨creation, hExtends.created creation hCreation, hRest⟩

theorem CreatedFor.later (hExtends : Extends s t) {session : SessionId} {gameId : GameId}
    (h : s.CreatedFor session gameId) : t.CreatedFor session gameId := by
  obtain ⟨creation, hCreation, hRest⟩ := h
  exact ⟨creation, hExtends.created creation hCreation, hRest⟩

theorem Fits.later (hExtends : Extends s t) {i : Nat} {call : Call} (h : s.Fits platform key i call) :
    t.Fits platform key i call := by
  obtain ⟨request, stage⟩ := call
  cases stage with
  | arrived => trivial
  | authenticated credential => exact Authorised.later hExtends h
  | surveyed credential live => exact Authorised.later hExtends h
  | retained credential live => exact Authorised.later hExtends h
  | pruned credential => exact Authorised.later hExtends h
  | checked credential =>
      exact ⟨Authorised.later hExtends h.1, fun session hSession =>
        Vouched.later hExtends (h.2 session hSession)⟩
  | answered credential response =>
      exact ⟨Authorised.later hExtends h.1, fun session hSession =>
        Vouched.later hExtends (h.2 session hSession)⟩
  | unbound session response => trivial
  | done result => trivial

/-- Everything in the gateway goes back to an authentication and a creation. -/
structure Sound (platform : Platform) (key : CapabilityDigestKey) (s : Gateway) : Prop where
  creators : ∀ creation ∈ s.created,
    s.Authorised key creation.call creation.request creation.authority ∧
      creation.request.message = .initializeSession
  calls : ∀ (i : Nat) call, s.calls[i]? = some call → s.Fits platform key i call
  bound : ∀ session binding, s.bindings.lookup session = some binding →
    s.Vouched platform session binding
  dispatched : ∀ dispatch ∈ s.dispatched,
    s.Authorised key dispatch.call dispatch.request dispatch.authority ∧
      s.Vouched platform dispatch.session
        (sessionBinding platform dispatch.request dispatch.authority)
  subscribed : ∀ session subscription, s.subscriptions.lookup session = some subscription →
    s.CreatedFor subscription.peer subscription.gameId
  delivered : ∀ notice ∈ s.delivered, s.CreatedFor notice.session notice.gameId

theorem sound_initial : Gateway.initial.Sound platform key where
  creators _ h := absurd h List.not_mem_nil
  calls _ _ h := by cases h
  bound _ _ h := by
    rw [Gateway.initial, AList.lookup_empty] at h
    cases h
  dispatched _ h := absurd h List.not_mem_nil
  subscribed _ _ h := by
    rw [Gateway.initial, AList.lookup_empty] at h
    cases h
  delivered _ h := absurd h List.not_mem_nil

/-- What was known stays known. Only the requests have to be looked at again. -/
theorem Sound.extend (h : s.Sound platform key) (hExtends : Extends s t)
    (hCreated : t.created = s.created) (hBindings : t.bindings = s.bindings)
    (hDispatched : t.dispatched = s.dispatched) (hSubscriptions : t.subscriptions = s.subscriptions)
    (hDelivered : t.delivered = s.delivered)
    (hCalls : ∀ (i : Nat) call, t.calls[i]? = some call →
      s.calls[i]? = some call ∨ t.Fits platform key i call) : t.Sound platform key where
  creators creation hCreation := by
    rw [hCreated] at hCreation
    obtain ⟨hAuthorised, hMessage⟩ := h.creators creation hCreation
    exact ⟨hAuthorised.later hExtends, hMessage⟩
  calls i call hCall := by
    rcases hCalls i call hCall with hOld | hNew
    · exact (h.calls i call hOld).later hExtends
    · exact hNew
  bound session binding hBound := by
    rw [hBindings] at hBound
    exact (h.bound session binding hBound).later hExtends
  dispatched dispatch hDispatch := by
    rw [hDispatched] at hDispatch
    obtain ⟨hAuthorised, hVouched⟩ := h.dispatched dispatch hDispatch
    exact ⟨hAuthorised.later hExtends, hVouched.later hExtends⟩
  subscribed session subscription hSubscribed := by
    rw [hSubscriptions] at hSubscribed
    exact (h.subscribed session subscription hSubscribed).later hExtends
  delivered notice hNotice := by
    rw [hDelivered] at hNotice
    exact (h.delivered notice hNotice).later hExtends

/-! Changes of single components. -/

theorem Sound.arrive (h : s.Sound platform key) (request : McpRequest) :
    { s with calls := s.calls ++ [(⟨request, .arrived⟩ : Call)] }.Sound platform key := by
  refine h.extend ⟨fun _ h => h, fun _ h => h, fun i other stage hCall => ?_⟩ rfl rfl rfl rfl rfl ?_
  · obtain ⟨hi, -⟩ := List.getElem?_eq_some_iff.mp hCall
    exact ⟨stage, by rw [List.getElem?_append_left hi, hCall]⟩
  · intro i call hCall
    rcases lt_or_ge i s.calls.length with hi | hi
    · rw [List.getElem?_append_left hi] at hCall
      exact .inl hCall
    · rw [List.getElem?_append_right hi, List.getElem?_singleton] at hCall
      split at hCall
      · cases hCall
        exact .inr trivial
      · cases hCall

theorem Sound.withAuthentication (h : s.Sound platform key)
    (entry : Nat × CompetitiveSeatCredential) :
    { s with authentications := s.authentications ++ [entry] }.Sound platform key :=
  h.extend ⟨fun _ h => h, fun _ h => List.mem_append_left _ h, fun _ _ stage h => ⟨stage, h⟩⟩
    rfl rfl rfl rfl rfl fun _ _ hCall => .inl hCall

theorem Sound.withBindings (h : s.Sound platform key)
    {bindings : AList fun _ : SessionId => SessionBinding}
    (hBound : ∀ session binding, bindings.lookup session = some binding →
      s.Vouched platform session binding) :
    { s with bindings := bindings }.Sound platform key :=
  ⟨h.creators, h.calls, hBound, h.dispatched, h.subscribed, h.delivered⟩

theorem Sound.withSubscriptions (h : s.Sound platform key)
    {subscriptions : AList fun _ : SessionId => SessionSubscription}
    (hSubscribed : ∀ session subscription, subscriptions.lookup session = some subscription →
      s.CreatedFor subscription.peer subscription.gameId) :
    { s with subscriptions := subscriptions }.Sound platform key :=
  ⟨h.creators, h.calls, h.bound, h.dispatched, hSubscribed, h.delivered⟩

theorem Sound.withLive (h : s.Sound platform key) (live : List SessionId) :
    { s with live := live }.Sound platform key :=
  ⟨h.creators, h.calls, h.bound, h.dispatched, h.subscribed, h.delivered⟩

theorem Sound.withCapabilities (h : s.Sound platform key) (records : List CapabilityRecord) :
    { s with capabilities := records }.Sound platform key :=
  ⟨h.creators, h.calls, h.bound, h.dispatched, h.subscribed, h.delivered⟩

theorem Sound.withDispatch (h : s.Sound platform key) (dispatch : Dispatch)
    (hAuthorised : s.Authorised key dispatch.call dispatch.request dispatch.authority)
    (hVouched : s.Vouched platform dispatch.session
      (sessionBinding platform dispatch.request dispatch.authority)) :
    { s with dispatched := s.dispatched ++ [dispatch] }.Sound platform key := by
  refine ⟨h.creators, h.calls, h.bound, fun other hOther => ?_, h.subscribed, h.delivered⟩
  rcases List.mem_append.mp hOther with hOld | hNew
  · exact h.dispatched other hOld
  · rw [List.mem_singleton.mp hNew]
    exact ⟨hAuthorised, hVouched⟩

theorem Sound.withCreation (h : s.Sound platform key) (creation : Creation)
    (hAuthorised : s.Authorised key creation.call creation.request creation.authority)
    (hMessage : creation.request.message = .initializeSession) :
    { s with created := s.created ++ [creation] }.Sound platform key := by
  have hExtends : Extends s { s with created := s.created ++ [creation] } :=
    ⟨fun _ h => List.mem_append_left _ h, fun _ h => h, fun _ _ stage h => ⟨stage, h⟩⟩
  refine ⟨fun other hOther => ?_, fun i call hCall => (h.calls i call hCall).later hExtends,
    fun session binding hBound => (h.bound session binding hBound).later hExtends,
    fun dispatch hDispatch => ⟨(h.dispatched dispatch hDispatch).1.later hExtends,
      (h.dispatched dispatch hDispatch).2.later hExtends⟩,
    fun session subscription hSubscribed =>
      (h.subscribed session subscription hSubscribed).later hExtends,
    fun notice hNotice => (h.delivered notice hNotice).later hExtends⟩
  rcases List.mem_append.mp hOther with hOld | hNew
  · obtain ⟨hOther, hInitialize⟩ := h.creators other hOld
    exact ⟨hOther.later hExtends, hInitialize⟩
  · rw [List.mem_singleton.mp hNew]
    exact ⟨hAuthorised.later hExtends, hMessage⟩

/-- A request that moves on is still the same request. -/
theorem moveTo_extends {i : Nat} {request : McpRequest} {old : Stage} (stage : Stage)
    (hCall : s.calls[i]? = some ⟨request, old⟩) : Extends s (s.moveTo i request stage) := by
  obtain ⟨hi, -⟩ := List.getElem?_eq_some_iff.mp hCall
  refine ⟨fun _ h => h, fun _ h => h, fun j other stage' hOther => ?_⟩
  by_cases hSame : i = j
  · subst hSame
    rw [hCall, Option.some.injEq, Call.mk.injEq] at hOther
    exact ⟨stage, by rw [moveTo, List.getElem?_set_self hi, hOther.1]⟩
  · exact ⟨stage', by rw [moveTo, List.getElem?_set_ne hSame]; exact hOther⟩

/-- A step of one request alone. -/
theorem Sound.moveTo (h : s.Sound platform key) {i : Nat} {request : McpRequest} {old : Stage}
    (stage : Stage) (hCall : s.calls[i]? = some ⟨request, old⟩)
    (hFits : s.Fits platform key i ⟨request, stage⟩) : (s.moveTo i request stage).Sound platform key := by
  have hExtends := moveTo_extends stage hCall
  refine h.extend hExtends rfl rfl rfl rfl rfl fun j call hOther => ?_
  by_cases hSame : i = j
  · subst hSame
    obtain ⟨hi, -⟩ := List.getElem?_eq_some_iff.mp hCall
    rw [Gateway.moveTo, List.getElem?_set_self hi, Option.some.injEq] at hOther
    subst hOther
    exact .inr (hFits.later hExtends)
  · rw [Gateway.moveTo, List.getElem?_set_ne hSame] at hOther
    exact .inl hOther

/-! The steps. -/

theorem Sound.retainedBindings (h : s.Sound platform key) (live : List SessionId) :
    { s with bindings := retainSessions s.bindings live }.Sound platform key :=
  h.withBindings fun session binding hBound =>
    h.bound session binding (lookup_retainSessions.mp hBound).1

theorem Sound.retainedSubscriptions (h : s.Sound platform key) (live : List SessionId) :
    { s with subscriptions := retainSessions s.subscriptions live }.Sound platform key :=
  h.withSubscriptions fun session subscription hSubscribed =>
    h.subscribed session subscription (lookup_retainSessions.mp hSubscribed).1

/-- Erasing a key leaves only old entries. -/
theorem lookup_of_erase {β : Type} {table : AList fun _ : SessionId => β} {key session : SessionId}
    {b : β} (h : (table.erase key).lookup session = some b) : table.lookup session = some b := by
  by_cases hSame : session = key
  · rw [hSame, AList.lookup_erase] at h
    cases h
  · rwa [AList.lookup_erase_ne hSame] at h

/-- After an insertion an entry is the new one or an old one. -/
theorem lookup_of_insert {β : Type} {table : AList fun _ : SessionId => β}
    {key session : SessionId} {b b' : β} (h : (table.insert key b').lookup session = some b) :
    session = key ∧ b = b' ∨ table.lookup session = some b := by
  by_cases hSame : session = key
  · rw [hSame, AList.lookup_insert, Option.some.injEq] at h
    exact .inl ⟨hSame, h.symm⟩
  · rw [AList.lookup_insert_ne hSame] at h
    exact .inr h

theorem Sound.boundSession (h : s.Sound platform key) {session : SessionId} {binding : SessionBinding}
    (hVouched : s.Vouched platform session binding) :
    { s with bindings := s.bindings.insert session binding }.Sound platform key :=
  h.withBindings fun other binding' hBound => by
    rcases lookup_of_insert hBound with ⟨rfl, rfl⟩ | hOld
    · exact hVouched
    · exact h.bound other binding' hOld

theorem Sound.unboundSession (h : s.Sound platform key) (session : SessionId) :
    { s with bindings := s.bindings.erase session }.Sound platform key :=
  h.withBindings fun other binding hBound => h.bound other binding (lookup_of_erase hBound)

theorem Sound.unsubscribedSession (h : s.Sound platform key) (session : SessionId) :
    { s with subscriptions := s.subscriptions.erase session }.Sound platform key :=
  h.withSubscriptions fun other subscription hSubscribed =>
    h.subscribed other subscription (lookup_of_erase hSubscribed)

theorem Sound.subscribedSession (h : s.Sound platform key) (session : SessionId)
    {subscription : SessionSubscription}
    (hPeer : s.CreatedFor subscription.peer subscription.gameId) :
    { s with subscriptions := s.subscriptions.insert session subscription }.Sound platform key :=
  h.withSubscriptions fun other subscription' hSubscribed => by
    rcases lookup_of_insert hSubscribed with ⟨rfl, rfl⟩ | hOld
    · exact hPeer
    · exact h.subscribed other subscription' hOld

theorem Sound.subscribe (h : s.Sound platform key) (session : SessionId)
    {credential : CompetitiveSeatCredential} (uri : String) {peer : SessionId}
    (hPeer : s.CreatedFor peer credential.gameId) :
    (s.subscribe session credential uri peer).Sound platform key := by
  refine h.subscribedSession session ?_
  cases hOld : s.subscriptions.lookup session with
  | none => exact hPeer
  | some subscription => exact h.subscribed session subscription hOld

theorem Sound.unsubscribe (h : s.Sound platform key) (session : SessionId) (uri : String) :
    (s.unsubscribe session uri).Sound platform key := by
  unfold Gateway.unsubscribe
  split
  · exact h
  · rename_i subscription hOld
    dsimp only
    split
    · exact h.unsubscribedSession session
    · exact h.subscribedSession session (h.subscribed session subscription hOld)

theorem Sound.notifyGameUpdated (h : s.Sound platform key) (gameId : GameId) :
    (s.notifyGameUpdated gameId).Sound platform key := by
  refine ⟨h.creators, h.calls, h.bound, h.dispatched, h.subscribed, fun notice hNotice => ?_⟩
  rcases List.mem_append.mp hNotice with hOld | hNew
  · exact h.delivered notice hOld
  · obtain ⟨⟨session, subscription⟩, hEntry, hUri⟩ := List.mem_flatMap.mp hNew
    obtain ⟨hEntry, hGame⟩ := List.mem_filter.mp hEntry
    obtain ⟨uri, -, rfl⟩ := List.mem_map.mp hUri
    have hPeer := h.subscribed session subscription (AList.mem_lookup_iff.mpr hEntry)
    rwa [of_decide_eq_true hGame] at hPeer

theorem Sound.forward (h : s.Sound platform key) {i : Nat} {request : McpRequest}
    {credential : CompetitiveSeatCredential} {session : SessionId} (named : Bool)
    (hCall : s.calls[i]? = some ⟨request, .checked credential⟩)
    (hSession : request.session = some session) :
    (s.forward i request credential session named).Sound platform key := by
  obtain ⟨hAuthorised, hVouched⟩ := h.calls i _ hCall
  have hKnown := (h.withDispatch ⟨i, session, request, credential⟩ hAuthorised
    (hVouched session hSession)).withLive
      (if request.method = .delete then s.live.filter (· ≠ session) else s.live)
  refine hKnown.moveTo _ hCall ⟨hAuthorised, fun other hOther => ?_⟩
  dsimp only at hOther
  split at hOther
  · cases hOther
    exact hVouched session hSession
  · cases hOther

theorem Sound.create (h : s.Sound platform key) {i : Nat} {request : McpRequest}
    {credential : CompetitiveSeatCredential} (session : SessionId) (initialized : Bool)
    (hCall : s.calls[i]? = some ⟨request, .checked credential⟩)
    (hMessage : request.message = .initializeSession) :
    (s.create i request credential session initialized).Sound platform key := by
  obtain ⟨hAuthorised, -⟩ := h.calls i _ hCall
  have hKnown := (h.withCreation ⟨i, session, request, credential, initialized⟩
    hAuthorised hMessage).withLive (s.live ++ [session])
  refine hKnown.moveTo _ hCall ⟨hAuthorised, fun other hOther => ?_⟩
  dsimp only at hOther
  split at hOther
  · rename_i hInitialized
    cases hOther
    exact ⟨_, List.mem_append_right _ (List.mem_singleton_self _), rfl, hInitialized, rfl⟩
  · cases hOther

/-- The binding a request has to match is the one the session was created with. -/
theorem Sound.pass (h : s.Sound platform key) {request : McpRequest}
    {credential : CompetitiveSeatCredential} {session : SessionId}
    (hPass : s.refusal platform request credential = none)
    (hSession : request.session = some session) :
    s.Vouched platform session (sessionBinding platform request credential) := by
  rw [refusal, hSession] at hPass
  dsimp only at hPass
  split at hPass
  · cases hPass
  · rename_i hBinding
    exact h.bound session _ (not_not.mp hBinding)

theorem Sound.effect (h : s.Sound platform key) {action : GatewayAction}
    (hEffect : Effect platform key s action t) : t.Sound platform key := by
  cases hEffect with
  | idle => exact h
  | setCapabilities records => exact h.withCapabilities records
  | arrive request => exact h.arrive request
  | unauthorised now hCall => exact h.moveTo _ hCall trivial
  | authorised hCall hCredential =>
      exact (h.withAuthentication _).moveTo _ hCall ⟨⟨_, hCall⟩,
        List.mem_append_right _ (List.mem_singleton_self _), s.capabilities, _, hCredential⟩
  | survey hCall =>
      have hFits := h.calls _ _ hCall
      exact h.moveTo _ hCall hFits
  | retain hCall =>
      have hFits := h.calls _ _ hCall
      exact (h.retainedBindings _).moveTo _ hCall hFits
  | retainSubscriptions hCall =>
      have hFits := h.calls _ _ hCall
      exact (h.retainedSubscriptions _).moveTo _ hCall hFits
  | refuse error hCall => exact h.moveTo _ hCall trivial
  | pass hCall hPass =>
      have hFits := h.calls _ _ hCall
      exact h.moveTo _ hCall ⟨hFits, fun session hSession => h.pass hPass hSession⟩
  | forward choice hCall hSession hLive => exact h.forward choice.named hCall hSession
  | create hCall hSession hAccepted hMethod hMessage hFresh => exact h.create _ _ hCall hMessage
  | fail choice hCall =>
      exact h.moveTo _ hCall ⟨(h.calls _ _ hCall).1, fun session hNone => by cases hNone⟩
  | unbind hCall hMethod hSession => exact (h.unboundSession _).moveTo _ hCall trivial
  | bind hCall hMethod =>
      exact (h.boundSession ((h.calls _ _ hCall).2 _ rfl)).moveTo _ hCall trivial
  | settle hCall hDelete hOther => exact h.moveTo _ hCall trivial
  | removeSubscriptions hCall => exact (h.unsubscribedSession _).moveTo _ hCall trivial
  | subscribe uri hDispatched hHeader =>
      obtain ⟨⟨-, -, records, now, hCredential⟩, hVouched⟩ :=
        h.dispatched _ (List.mem_of_getElem? hDispatched)
      refine h.subscribe _ uri ?_
      rw [authenticateCapability_gameId hCredential]
      exact hVouched.createdFor
  | unsubscribe j header uri => exact h.unsubscribe header uri
  | expire session => exact h.withLive _
  | notify gameId => exact h.notifyGameUpdated gameId

/-! Sessions and authentications are never confused. -/

/-- Every session was created once and every request authenticated once. -/
structure Orderly (s : Gateway) : Prop where
  distinct : (s.created.map (·.session)).Nodup
  once : (s.authentications.map (·.1)).Nodup
  started : ∀ entry ∈ s.authentications, ∃ call : Call,
    s.calls[entry.1]? = some call ∧ call.stage ≠ .arrived

/-- Only sessions, authentications and requests matter. -/
theorem Orderly.congr (h : s.Orderly) (hCreated : t.created = s.created)
    (hKnown : t.authentications = s.authentications) (hCalls : t.calls = s.calls) : t.Orderly := by
  refine ⟨hCreated ▸ h.distinct, hKnown ▸ h.once, ?_⟩
  rw [hKnown, hCalls]
  exact h.started

theorem Orderly.moveTo (h : s.Orderly) {i : Nat} {request : McpRequest} {old : Stage}
    (stage : Stage) (hCall : s.calls[i]? = some ⟨request, old⟩) (hStage : stage ≠ .arrived) :
    (s.moveTo i request stage).Orderly := by
  refine ⟨h.distinct, h.once, fun entry hEntry => ?_⟩
  by_cases hSame : i = entry.1
  · obtain ⟨hi, -⟩ := List.getElem?_eq_some_iff.mp hCall
    exact ⟨⟨request, stage⟩, by rw [← hSame, Gateway.moveTo, List.getElem?_set_self hi], hStage⟩
  · obtain ⟨call, hOther, hStarted⟩ := h.started entry hEntry
    exact ⟨call, by rw [Gateway.moveTo, List.getElem?_set_ne hSame]; exact hOther, hStarted⟩

theorem Orderly.authorised (h : s.Orderly) {i : Nat} {request : McpRequest}
    (credential : CompetitiveSeatCredential) (hCall : s.calls[i]? = some ⟨request, .arrived⟩) :
    { s.moveTo i request (.authenticated credential) with
      authentications := s.authentications ++ [(i, credential)] }.Orderly := by
  have hMoved := h.moveTo (.authenticated credential) hCall Stage.noConfusion
  refine ⟨h.distinct, ?_, fun entry hEntry => ?_⟩
  · rw [List.map_append, List.map_singleton, List.nodup_append]
    refine ⟨h.once, List.nodup_singleton _, fun j hOld k hNew hSame => ?_⟩
    obtain ⟨entry, hEntry, rfl⟩ := List.mem_map.mp hOld
    obtain ⟨call, hStarted, hStage⟩ := h.started entry hEntry
    rw [hSame, List.mem_singleton.mp hNew, hCall] at hStarted
    cases hStarted
    exact hStage rfl
  · rcases List.mem_append.mp hEntry with hOld | hNew
    · exact hMoved.started entry hOld
    · rw [List.mem_singleton.mp hNew]
      obtain ⟨hi, -⟩ := List.getElem?_eq_some_iff.mp hCall
      exact ⟨_, List.getElem?_set_self hi, Stage.noConfusion⟩

theorem Orderly.create (h : s.Orderly) {i : Nat} {request : McpRequest} {old : Stage}
    (credential : CompetitiveSeatCredential) {session : SessionId} (initialized : Bool)
    (hCall : s.calls[i]? = some ⟨request, old⟩) (hFresh : ¬ s.used session) :
    (s.create i request credential session initialized).Orderly := by
  refine ⟨?_, h.once, (h.moveTo _ hCall Stage.noConfusion).started⟩
  rw [Gateway.create, List.map_append, List.map_singleton, List.nodup_append]
  refine ⟨h.distinct, List.nodup_singleton _, fun other hOld fresh hNew hSame => ?_⟩
  obtain ⟨creation, hCreation, rfl⟩ := List.mem_map.mp hOld
  exact hFresh ⟨creation, hCreation, hSame.trans (List.mem_singleton.mp hNew)⟩

theorem Orderly.effect (h : s.Orderly) {action : GatewayAction}
    (hEffect : Effect platform key s action t) : t.Orderly := by
  cases hEffect with
  | idle => exact h
  | setCapabilities => exact h.congr rfl rfl rfl
  | arrive request =>
      refine ⟨h.distinct, h.once, fun entry hEntry => ?_⟩
      obtain ⟨call, hCall, hStage⟩ := h.started entry hEntry
      obtain ⟨hi, -⟩ := List.getElem?_eq_some_iff.mp hCall
      exact ⟨call, by rw [List.getElem?_append_left hi, hCall], hStage⟩
  | unauthorised now hCall => exact h.moveTo _ hCall Stage.noConfusion
  | authorised hCall => exact h.authorised _ hCall
  | survey hCall => exact h.moveTo _ hCall Stage.noConfusion
  | retain hCall => exact (h.moveTo (.retained _ _) hCall Stage.noConfusion).congr rfl rfl rfl
  | retainSubscriptions hCall => exact (h.moveTo (.pruned _) hCall Stage.noConfusion).congr rfl rfl rfl
  | refuse error hCall => exact h.moveTo _ hCall Stage.noConfusion
  | pass hCall => exact h.moveTo _ hCall Stage.noConfusion
  | forward choice hCall => exact (h.moveTo (.answered _ _) hCall Stage.noConfusion).congr rfl rfl rfl
  | create hCall hSession hAccepted hMethod hMessage hFresh => exact h.create _ _ hCall hFresh
  | fail choice hCall => exact h.moveTo _ hCall Stage.noConfusion
  | unbind hCall => exact (h.moveTo (.unbound _ _) hCall Stage.noConfusion).congr rfl rfl rfl
  | bind hCall => exact (h.moveTo (.done _) hCall Stage.noConfusion).congr rfl rfl rfl
  | settle hCall => exact h.moveTo _ hCall Stage.noConfusion
  | removeSubscriptions hCall => exact (h.moveTo (.done _) hCall Stage.noConfusion).congr rfl rfl rfl
  | subscribe => exact h.congr rfl rfl rfl
  | unsubscribe j header uri =>
      unfold Gateway.unsubscribe
      split
      · exact h
      · dsimp only
        split
        · exact h.congr rfl rfl rfl
        · exact h.congr rfl rfl rfl
  | expire => exact h.congr rfl rfl rfl
  | notify => exact h.congr rfl rfl rfl

/-- The request that created a session. -/
def Creator (s : Gateway) (session : SessionId) (creation : Creation) : Prop :=
  creation ∈ s.created ∧ creation.session = session ∧
    ∀ other ∈ s.created, other.session = session → other = creation

/-- No two tokens that were presented have the same digest. -/
def CollisionFree (platform : Platform) (s : Gateway) : Prop :=
  ∀ a ∈ s.calls, ∀ b ∈ s.calls,
    platform.sha256 (Bytes.utf8 a.request.bearer) = platform.sha256 (Bytes.utf8 b.request.bearer) →
      a.request.bearer = b.request.bearer

theorem Orderly.creator (h : s.Orderly) {creation : Creation} (hCreation : creation ∈ s.created) :
    s.Creator creation.session creation :=
  ⟨hCreation, rfl, fun _ hOther hSame =>
    List.inj_on_of_nodup_map h.distinct hOther hCreation hSame⟩

theorem Orderly.authority (h : s.Orderly) {i : Nat} {credential other : CompetitiveSeatCredential}
    (hCredential : (i, credential) ∈ s.authentications) :
    (i, other) ∈ s.authentications ↔ other = credential := by
  refine ⟨fun hOther => ?_, fun hSame => hSame ▸ hCredential⟩
  exact congrArg Prod.snd (List.inj_on_of_nodup_map h.once hOther hCredential rfl)

theorem Authorised.mem {i : Nat} {request : McpRequest} {credential : CompetitiveSeatCredential}
    (h : s.Authorised key i request credential) : ∃ call ∈ s.calls, call.request = request := by
  obtain ⟨⟨stage, hCall⟩, -⟩ := h
  exact ⟨_, List.mem_of_getElem? hCall, rfl⟩

/-- A session gets only what its creator could have sent. -/
theorem Sound.dispatched_creator (h : s.Sound platform key) (hOrderly : s.Orderly)
    (hDigests : s.CollisionFree platform) {dispatch : Dispatch}
    (hDispatch : dispatch ∈ s.dispatched) :
    ∃ creation, s.Creator dispatch.session creation ∧ creation.request.message = .initializeSession ∧
      dispatch.request.bearer = creation.request.bearer ∧
      dispatch.request.gameId = creation.request.gameId ∧
      dispatch.authority.seat = creation.authority.seat := by
  obtain ⟨hAuthorised, creation, hCreation, hSession, -, hBinding⟩ := h.dispatched dispatch hDispatch
  obtain ⟨hCreator, hMessage⟩ := h.creators creation hCreation
  obtain ⟨call, hCall, hRequest⟩ := hAuthorised.mem
  obtain ⟨first, hFirst, hInitialize⟩ := hCreator.mem
  rw [sessionBinding, sessionBinding, SessionBinding.mk.injEq] at hBinding
  obtain ⟨hGame, hSeat, hDigest⟩ := hBinding
  rw [← hRequest, ← hInitialize] at hDigest
  refine ⟨creation, hSession ▸ hOrderly.creator hCreation, hMessage, ?_, hGame.symm, hSeat.symm⟩
  rw [← hRequest, ← hInitialize]
  exact (hDigests first hFirst call hCall hDigest).symm

theorem sound_after (actions : List GatewayAction) :
    ((gateway platform key).after .initial actions).Sound platform key :=
  Machine.after_invariant _ (fun s action h => h.effect (step_effect platform key s action))
    sound_initial actions

theorem orderly_after (actions : List GatewayAction) :
    ((gateway platform key).after .initial actions).Orderly :=
  Machine.after_invariant _ (fun s action h => h.effect (step_effect platform key s action))
    ⟨.nil, .nil, fun _ h => absurd h List.not_mem_nil⟩ actions

end Gateway

/-- In every interleaving of requests, a request that reaches a session has the
token, the game and the seat of the request that created the session, it acts with
the credential that was authenticated for it, and updates of a game reach only
sessions that were created for the game. -/
theorem sessions_keep_authority (platform : Platform) (key : CapabilityDigestKey)
    (actions : List GatewayAction)
    (hDigests : ((gateway platform key).after .initial actions).CollisionFree platform) :
    let s := (gateway platform key).after .initial actions
    (∀ dispatch ∈ s.dispatched,
      (∃ creation, s.Creator dispatch.session creation ∧ creation.request.message = .initializeSession ∧
        dispatch.request.bearer = creation.request.bearer ∧
        dispatch.request.gameId = creation.request.gameId ∧
        dispatch.authority.seat = creation.authority.seat) ∧
      (∃ stage, s.calls[dispatch.call]? = some ⟨dispatch.request, stage⟩) ∧
      (∀ credential, (dispatch.call, credential) ∈ s.authentications ↔
        credential = dispatch.authority) ∧
      ∃ records now, authenticateCapability key records now dispatch.request.bearer
        dispatch.request.gameId .act = .ok (.seat dispatch.authority)) ∧
    ∀ notice ∈ s.delivered, ∃ creation, s.Creator notice.session creation ∧
      creation.request.gameId = notice.gameId := by
  have hSound : ((gateway platform key).after .initial actions).Sound platform key :=
    Gateway.sound_after actions
  have hOrderly : ((gateway platform key).after .initial actions).Orderly :=
    Gateway.orderly_after actions
  refine ⟨fun dispatch hDispatch => ?_, fun notice hNotice => ?_⟩
  · obtain ⟨⟨hStage, hKnown, hCredential⟩, -⟩ := hSound.dispatched dispatch hDispatch
    exact ⟨hSound.dispatched_creator hOrderly hDigests hDispatch, hStage,
      fun _ => hOrderly.authority hKnown, hCredential⟩
  · obtain ⟨creation, hCreation, hSession, hGame⟩ := hSound.delivered notice hNotice
    exact ⟨creation, hSession ▸ hOrderly.creator hCreation, hGame⟩

/-! A session that is created and then asked for updates. -/

def demoGame : GameId := ⟨"demo", by decide⟩

def demoMaterial : CapabilityMaterial := ⟨Vector.replicate 16 0, Vector.replicate 32 0⟩

def demoKey : CapabilityDigestKey := ⟨fun token => Sha256.hmac (List.replicate 32 7) (Bytes.utf8 token)⟩

def demoCapability : CapabilityRecord where
  descriptor := ⟨⟨"00000000000000000000000000000000", by decide⟩, ⟨demoGame, .seat .one, {.act}, none⟩,
    0, 100⟩
  tokenDigest := demoKey.digest demoMaterial.token
  digestVersion := capabilityDigestVersion
  revokedAt := none

def demoRequest (session : Option SessionId) (message : McpMessage) : McpRequest :=
  ⟨demoGame, demoMaterial.token, .post, session, message⟩

/-- All steps of one request. -/
def handled (i : Nat) (choice : ManagerChoice) : List GatewayAction :=
  [.authenticate i 1, .survey i, .retain i, .retainSubscriptions i, .check i, .dispatch i choice,
    .update i]

def demoActions : List GatewayAction :=
  .setCapabilities [demoCapability] :: .arrive (demoRequest none .initializeSession) ::
    handled 0 ⟨false, "a", true, true⟩ ++
    .arrive (demoRequest (some "a") (.subscribe "word-arena://games/demo/public")) ::
    handled 1 ⟨false, "", true, true⟩ ++ [.process 0, .notify demoGame]

/-- The only capability lets its own token in. -/
theorem authenticate_only {key : CapabilityDigestKey} {record : CapabilityRecord} {now : UnixMillis}
    {token : String} {gameId : GameId} {scope : CapabilityScope}
    (hToken : parseToken token = .ok record.descriptor.capabilityId)
    (hDenial : denial key token gameId scope now record = none) :
    authenticateCapability key [record] now token gameId scope = .ok (credential record) := by
  rw [authenticateCapability, hToken]
  simp only [ok_bind, List.find?_cons, decide_true, okOr, hDenial]
  rfl

def demoParsed : { parsed : Except CapabilityError CapabilityId // parseToken demoMaterial.token = parsed } :=
  ⟨.ok demoCapability.descriptor.capabilityId, by decide +kernel⟩

theorem demo_authenticated :
    authenticateCapability demoKey [demoCapability] 1 demoMaterial.token demoGame .act =
      .ok (.seat ⟨demoGame, .one⟩) := by
  exact authenticate_only demoParsed.2 (denial_eq_none.mpr ⟨rfl, rfl, rfl, by decide, rfl, by decide⟩)

theorem demo_authorized : authorizeUri "word-arena://games/demo/public" ⟨demoGame, .one⟩ =
    some .publicGame := by
  decide +kernel

/-- The steps of the demonstration, for any record, game and token. -/
def sessionSteps (capability : CapabilityRecord) (game : GameId) (token : String) :
    List GatewayAction :=
  [.setCapabilities [capability], .arrive ⟨game, token, .post, none, .initializeSession⟩,
    .authenticate 0 1, .survey 0, .retain 0, .retainSubscriptions 0, .check 0,
    .dispatch 0 ⟨false, "a", true, true⟩, .update 0,
    .arrive ⟨game, token, .post, some "a", .subscribe "word-arena://games/demo/public"⟩,
    .authenticate 1 1, .survey 1, .retain 1, .retainSubscriptions 1, .check 1,
    .dispatch 1 ⟨false, "", true, true⟩, .update 1, .process 0, .notify game]

/-- A token that is known gets its session, its dispatch and its update. -/
theorem session_after (platform : Platform) {key : CapabilityDigestKey}
    {capability : CapabilityRecord} {game : GameId} {token : String}
    (hCredential : authenticateCapability key [capability] 1 token game .act =
      .ok (.seat ⟨game, .one⟩))
    (hUri : authorizeUri "word-arena://games/demo/public" ⟨game, .one⟩ = some .publicGame) :
    ((gateway platform key).after .initial (sessionSteps capability game token)).calls.map (·.request) =
        [⟨game, token, .post, none, .initializeSession⟩,
          ⟨game, token, .post, some "a", .subscribe "word-arena://games/demo/public"⟩] ∧
      ((gateway platform key).after .initial (sessionSteps capability game token)).dispatched.map
        (·.session) = ["a"] ∧
      ((gateway platform key).after .initial (sessionSteps capability game token)).delivered.map
        (·.session) = ["a"] := by
  simp [sessionSteps, gateway, Machine.after, Gateway.step, Gateway.initial,
    Gateway.authenticate, Gateway.survey, Gateway.retain, Gateway.retainSubscriptions,
    Gateway.check, Gateway.refusal, Gateway.dispatch, Gateway.used, Gateway.create, Gateway.forward,
    Gateway.update, Gateway.process, Gateway.subscribe, Gateway.notifyGameUpdated, Gateway.moveTo,
    AList.lookup, retainSessions, sessionBinding, maxMcpSessions, ResourceKind.subscribable,
    hCredential, hUri]

theorem demo_after :
    ((gateway basicPlatform demoKey).after .initial demoActions).calls.map (·.request) =
        [demoRequest none .initializeSession,
          demoRequest (some "a") (.subscribe "word-arena://games/demo/public")] ∧
      ((gateway basicPlatform demoKey).after .initial demoActions).dispatched.map (·.session) =
        ["a"] ∧
      ((gateway basicPlatform demoKey).after .initial demoActions).delivered.map (·.session) =
        ["a"] :=
  session_after basicPlatform demo_authenticated demo_authorized

theorem demo_collisionFree :
    ((gateway basicPlatform demoKey).after .initial demoActions).CollisionFree basicPlatform := by
  have hBearer : ∀ call ∈ ((gateway basicPlatform demoKey).after .initial demoActions).calls,
      call.request.bearer = demoMaterial.token := by
    intro call hCall
    have hRequest := List.mem_map_of_mem (f := fun call : Call => call.request) hCall
    rw [demo_after.1, List.mem_pair] at hRequest
    rcases hRequest with hRequest | hRequest
    · rw [hRequest, demoRequest]
    · rw [hRequest, demoRequest]
  intro a ha b hb _
  rw [hBearer a ha, hBearer b hb]

/-- The session gets the second request and the update, both of its own game. -/
theorem demo_session_keeps_authority :
    (∃ dispatch ∈ ((gateway basicPlatform demoKey).after .initial demoActions).dispatched,
      dispatch.session = "a" ∧ dispatch.request.bearer = demoMaterial.token) ∧
    ∃ notice ∈ ((gateway basicPlatform demoKey).after .initial demoActions).delivered,
      ∃ creation, ((gateway basicPlatform demoKey).after .initial demoActions).Creator
        notice.session creation ∧ creation.request.gameId = notice.gameId := by
  obtain ⟨hDispatched, hDelivered⟩ :=
    sessions_keep_authority basicPlatform demoKey demoActions demo_collisionFree
  obtain ⟨hRequests, hSessions, hNotices⟩ := demo_after
  refine ⟨?_, ?_⟩
  · obtain ⟨dispatch, hDispatch, hSession⟩ := List.mem_map.mp
      (hSessions ▸ List.mem_singleton_self "a" : "a" ∈ List.map _ _)
    obtain ⟨-, ⟨stage, hCall⟩, -⟩ := hDispatched dispatch hDispatch
    refine ⟨dispatch, hDispatch, hSession, ?_⟩
    have hRequest := List.mem_map_of_mem (f := fun call : Call => call.request)
      (List.mem_of_getElem? hCall)
    rw [hRequests, List.mem_pair] at hRequest
    rcases hRequest with hRequest | hRequest
    · exact congrArg McpRequest.bearer hRequest
    · exact congrArg McpRequest.bearer hRequest
  · obtain ⟨notice, hNotice, -⟩ := List.mem_map.mp
      (hNotices ▸ List.mem_singleton_self "a" : "a" ∈ List.map _ _)
    exact ⟨notice, hNotice, hDelivered notice hNotice⟩

end WordArena.Server
