import Mathlib.Data.List.AList
import WordArena.Library.Machine
import WordArena.Capability.Model

/-! The MCP gateway. Any number of requests are handled at the same time; every
place at which a request awaits is a stage of its own, so that the steps of
different requests interleave in any order. Of the session manager behind the
gateway only this is used: a new session gets an id that no session had before,
a request goes to the session its header names while that session lives, and any
request may be refused. -/
namespace WordArena.Server

open Fallible WordArena.Engine WordArena.Application WordArena.Service WordArena.Capability

abbrev SessionId := String

def maxMcpSessions : Nat := 64

/-! Resources. -/

inductive ResourceKind where
  | publicGame
  | privateSeat
  | eventHistory
  | ruleset
  | lexiconManifest
deriving DecidableEq, Repr

def ResourceKind.subscribable : ResourceKind → Bool
  | .publicGame => true
  | .privateSeat => true
  | .eventHistory => true
  | .ruleset => false
  | .lexiconManifest => false

def resourceKind? : String → Option ResourceKind
  | "public" => some .publicGame
  | "seat" => some .privateSeat
  | "history" => some .eventHistory
  | "ruleset" => some .ruleset
  | "lexicon-manifest" => some .lexiconManifest
  | _ => none

def resourcePrefix : String := "word-arena://games/"

/-- The game and the kind a resource URI names. -/
def parseResourceUri (uri : String) : Option (String × ResourceKind) :=
  if resourcePrefix.toList.isPrefixOf uri.toList then
    match ((uri.toList.drop resourcePrefix.toList.length).splitOn '/').map String.ofList with
    | [gameId, kind] => if gameId = "" then none else (resourceKind? kind).map (gameId, ·)
    | _ => none
  else none

/-- The kind of a resource of the game the credential is for. -/
def authorizeUri (uri : String) (credential : CompetitiveSeatCredential) : Option ResourceKind :=
  match parseResourceUri uri with
  | some (gameId, kind) => if gameId = credential.gameId.asStr then some kind else none
  | none => none

/-! Requests and responses. -/

inductive Method where
  | get
  | post
  | delete
deriving DecidableEq, Repr

/-- What the body of a request asks for, as far as sessions and subscriptions are
concerned. -/
inductive McpMessage where
  | initializeSession
  | subscribe (uri : String)
  | unsubscribe (uri : String)
  | other
deriving DecidableEq, Repr

structure McpRequest where
  gameId : GameId
  bearer : String
  method : Method
  session : Option SessionId
  message : McpMessage
deriving DecidableEq

structure ErrorResponse where
  status : Nat
  code : String
  message : String
deriving DecidableEq, Repr

def unauthorizedResponse : ErrorResponse := ⟨401, "unauthorized", "authentication failed"⟩

def mismatchResponse : ErrorResponse :=
  ⟨401, "session_authority_mismatch", "MCP session is not valid for this capability"⟩

def limitResponse : ErrorResponse := ⟨429, "session_limit", "too many MCP sessions are open"⟩

/-- What the session manager answers: whether the status is a success, and the
session header. -/
structure McpResponse where
  success : Bool
  session : Option SessionId
deriving DecidableEq, Repr

/-! State. -/

structure SessionBinding where
  gameId : GameId
  seat : Seat
  tokenDigest : Digest
deriving DecidableEq

/-- The subscriptions of one session. A peer is known by its session. -/
structure SessionSubscription where
  gameId : GameId
  peer : SessionId
  uris : List String
deriving DecidableEq

/-- Where a request stands in `handle`. From the authentication on it carries the
credential that was put into its extensions. -/
inductive Stage where
  | arrived
  | authenticated (credential : CompetitiveSeatCredential)
  | surveyed (credential : CompetitiveSeatCredential) (live : List SessionId)
  | retained (credential : CompetitiveSeatCredential) (live : List SessionId)
  | pruned (credential : CompetitiveSeatCredential)
  | checked (credential : CompetitiveSeatCredential)
  | answered (credential : CompetitiveSeatCredential) (response : McpResponse)
  | unbound (session : SessionId) (response : McpResponse)
  | done (result : Except ErrorResponse McpResponse)

structure Call where
  request : McpRequest
  stage : Stage

/-- A request that was handed to a session, with the authority it acts with. -/
structure Dispatch where
  call : Nat
  session : SessionId
  request : McpRequest
  authority : CompetitiveSeatCredential

/-- A session and the request that created it. -/
structure Creation where
  call : Nat
  session : SessionId
  request : McpRequest
  authority : CompetitiveSeatCredential
  initialized : Bool

/-- An update of a resource that is sent to a session. -/
structure Notice where
  session : SessionId
  gameId : GameId
  uri : String

/-- The gateway with what is around it. `created`, `authentications`, `dispatched`
and `delivered` record what has happened; the code has only the first four
components and the requests in progress. -/
structure Gateway where
  capabilities : List CapabilityRecord
  live : List SessionId
  bindings : AList fun _ : SessionId => SessionBinding
  subscriptions : AList fun _ : SessionId => SessionSubscription
  calls : List Call
  created : List Creation
  authentications : List (Nat × CompetitiveSeatCredential)
  dispatched : List Dispatch
  delivered : List Notice

def Gateway.initial : Gateway := ⟨[], [], ∅, ∅, [], [], [], [], []⟩

/-- Keep the entries of some sessions. -/
def retainSessions {β : Type} (table : AList fun _ : SessionId => β) (live : List SessionId) :
    AList fun _ : SessionId => β :=
  ⟨table.entries.filter fun entry => entry.1 ∈ live, table.nodupKeys.sublist List.filter_sublist⟩

/-! Steps. -/

/-- What the session manager does with a request besides what its state decides:
whether it is refused, the id of a new session, whether the initialization comes
to a successful response, and whether other responses name their session. -/
structure ManagerChoice where
  refused : Bool
  fresh : SessionId
  initialized : Bool
  named : Bool

inductive GatewayAction where
  | setCapabilities (records : List CapabilityRecord)
  | arrive (request : McpRequest)
  | authenticate (call : Nat) (now : UnixMillis)
  | survey (call : Nat)
  | retain (call : Nat)
  | retainSubscriptions (call : Nat)
  | check (call : Nat)
  | dispatch (call : Nat) (choice : ManagerChoice)
  | update (call : Nat)
  | removeSubscriptions (call : Nat)
  | process (dispatch : Nat)
  | expire (session : SessionId)
  | notify (gameId : GameId)

/-- Authenticate a token for a game and a scope against the stored records. Audit
rows are left out. -/
def authenticateCapability (key : CapabilityDigestKey) (records : List CapabilityRecord)
    (now : UnixMillis) (token : String) (gameId : GameId) (scope : CapabilityScope) :
    Except CapabilityError AuthenticatedCredential := do
  let capabilityId ← parseToken token
  let record ← okOr (records.find? fun record => record.descriptor.capabilityId = capabilityId)
    .unauthorized
  match denial key token gameId scope now record with
  | some _ => .error .unauthorized
  | none => return credential record

section

variable (platform : Platform) (key : CapabilityDigestKey)

def sessionBinding (request : McpRequest) (credential : CompetitiveSeatCredential) :
    SessionBinding where
  gameId := request.gameId
  seat := credential.seat
  tokenDigest := platform.sha256 (Bytes.utf8 request.bearer)

namespace Gateway

variable (s : Gateway)

/-- Move a request on. -/
def moveTo (i : Nat) (request : McpRequest) (stage : Stage) : Gateway :=
  { s with calls := s.calls.set i ⟨request, stage⟩ }

def authenticate (i : Nat) (now : UnixMillis) : Gateway :=
  match s.calls[i]? with
  | some ⟨request, .arrived⟩ =>
      match authenticateCapability key s.capabilities now request.bearer request.gameId .act with
      | .ok (.seat credential) =>
          { s.moveTo i request (.authenticated credential) with
            authentications := s.authentications ++ [(i, credential)] }
      | _ => s.moveTo i request (.done (.error unauthorizedResponse))
  | _ => s

/-- The first part of `remove_closed_bindings` reads the live sessions. -/
def survey (i : Nat) : Gateway :=
  match s.calls[i]? with
  | some ⟨request, .authenticated credential⟩ => s.moveTo i request (.surveyed credential s.live)
  | _ => s

def retain (i : Nat) : Gateway :=
  match s.calls[i]? with
  | some ⟨request, .surveyed credential live⟩ =>
      { s.moveTo i request (.retained credential live) with
        bindings := retainSessions s.bindings live }
  | _ => s

def retainSubscriptions (i : Nat) : Gateway :=
  match s.calls[i]? with
  | some ⟨request, .retained credential live⟩ =>
      { s.moveTo i request (.pruned credential) with
        subscriptions := retainSessions s.subscriptions live }
  | _ => s

/-- What is wrong with a request before it is dispatched. -/
def refusal (request : McpRequest) (credential : CompetitiveSeatCredential) :
    Option ErrorResponse :=
  match request.session with
  | some session =>
      if s.bindings.lookup session ≠ some (sessionBinding platform request credential) then
        some mismatchResponse
      else none
  | none => if maxMcpSessions ≤ s.bindings.entries.length then some limitResponse else none

def check (i : Nat) : Gateway :=
  match s.calls[i]? with
  | some ⟨request, .pruned credential⟩ =>
      match s.refusal platform request credential with
      | some error => s.moveTo i request (.done (.error error))
      | none => s.moveTo i request (.checked credential)
  | _ => s

/-- A request to a session that lives. A DELETE closes the session. -/
def forward (i : Nat) (request : McpRequest) (credential : CompetitiveSeatCredential)
    (session : SessionId) (named : Bool) : Gateway :=
  { s.moveTo i request (.answered credential ⟨true, if named = true then some session else none⟩) with
    live := if request.method = .delete then s.live.filter (· ≠ session) else s.live
    dispatched := s.dispatched ++ [⟨i, session, request, credential⟩] }

/-- An initialize request creates a session under an unused id. -/
def create (i : Nat) (request : McpRequest) (credential : CompetitiveSeatCredential)
    (session : SessionId) (initialized : Bool) : Gateway :=
  { s.moveTo i request (.answered credential
      ⟨initialized, if initialized = true then some session else none⟩) with
    live := s.live ++ [session]
    created := s.created ++ [⟨i, session, request, credential, initialized⟩] }

/-- Ids of sessions, past ones included. -/
def used (session : SessionId) : Prop := ∃ creation ∈ s.created, creation.session = session

instance (session : SessionId) : Decidable (s.used session) :=
  inferInstanceAs (Decidable (∃ creation ∈ s.created, creation.session = session))

def dispatch (i : Nat) (choice : ManagerChoice) : Gateway :=
  match s.calls[i]? with
  | some ⟨request, .checked credential⟩ =>
      match request.session with
      | some session =>
          if choice.refused = false ∧ session ∈ s.live then
            s.forward i request credential session choice.named
          else s.moveTo i request (.answered credential ⟨false, none⟩)
      | none =>
          if choice.refused = false ∧ request.method = .post ∧ request.message = .initializeSession then
            if s.used choice.fresh then s
            else s.create i request credential choice.fresh choice.initialized
          else s.moveTo i request (.answered credential ⟨false, none⟩)
  | _ => s

/-- What `handle` does with the binding table after the response. -/
def update (i : Nat) : Gateway :=
  match s.calls[i]? with
  | some ⟨request, .answered credential response⟩ =>
      if request.method = .delete then
        match request.session with
        | some session =>
            { s.moveTo i request (.unbound session response) with
              bindings := s.bindings.erase session }
        | none => s.moveTo i request (.done (.ok response))
      else
        match response.success, response.session with
        | true, some session =>
            { s.moveTo i request (.done (.ok response)) with
              bindings := s.bindings.insert session (sessionBinding platform request credential) }
        | _, _ => s.moveTo i request (.done (.ok response))
  | _ => s

def removeSubscriptions (i : Nat) : Gateway :=
  match s.calls[i]? with
  | some ⟨request, .unbound session response⟩ =>
      { s.moveTo i request (.done (.ok response)) with
        subscriptions := s.subscriptions.erase session }
  | _ => s

def subscribe (session : SessionId) (credential : CompetitiveSeatCredential) (uri : String)
    (peer : SessionId) : Gateway :=
  let subscription := (s.subscriptions.lookup session).getD ⟨credential.gameId, peer, []⟩
  let uris := if uri ∈ subscription.uris then subscription.uris else subscription.uris ++ [uri]
  { s with
    subscriptions := s.subscriptions.insert session ⟨subscription.gameId, subscription.peer, uris⟩ }

def unsubscribe (session : SessionId) (uri : String) : Gateway :=
  match s.subscriptions.lookup session with
  | none => s
  | some subscription =>
      let uris := subscription.uris.filter (· ≠ uri)
      if uris = [] then { s with subscriptions := s.subscriptions.erase session }
      else { s with
        subscriptions := s.subscriptions.insert session
          ⟨subscription.gameId, subscription.peer, uris⟩ }

/-- A session works on a request that was handed to it. The session id comes from
the header of the request, the peer is the session itself. -/
def process (j : Nat) : Gateway :=
  match s.dispatched[j]? with
  | none => s
  | some ⟨_, session, request, authority⟩ =>
      match request.message, request.session with
      | .subscribe uri, some header =>
          match authorizeUri uri authority with
          | some kind =>
              if kind.subscribable = true then s.subscribe header authority uri session else s
          | none => s
      | .unsubscribe uri, some header =>
          match authorizeUri uri authority with
          | some kind => if kind.subscribable = true then s.unsubscribe header uri else s
          | none => s
      | _, _ => s

def notifyGameUpdated (gameId : GameId) : Gateway :=
  { s with delivered := s.delivered ++
      (s.subscriptions.entries.filter fun entry => entry.2.gameId = gameId).flatMap fun entry =>
        entry.2.uris.map fun uri => ⟨entry.2.peer, gameId, uri⟩ }

def step : GatewayAction → Gateway
  | .setCapabilities records => { s with capabilities := records }
  | .arrive request => { s with calls := s.calls ++ [⟨request, .arrived⟩] }
  | .authenticate i now => s.authenticate key i now
  | .survey i => s.survey i
  | .retain i => s.retain i
  | .retainSubscriptions i => s.retainSubscriptions i
  | .check i => s.check platform i
  | .dispatch i choice => s.dispatch i choice
  | .update i => s.update platform i
  | .removeSubscriptions i => s.removeSubscriptions i
  | .process j => s.process j
  | .expire session => { s with live := s.live.filter (· ≠ session) }
  | .notify gameId => s.notifyGameUpdated gameId

/-- What a step can do, with what is known when it does it. -/
inductive Effect : GatewayAction → Gateway → Prop where
  | idle (action : GatewayAction) : Effect action s
  | setCapabilities (records : List CapabilityRecord) :
      Effect (.setCapabilities records) { s with capabilities := records }
  | arrive (request : McpRequest) :
      Effect (.arrive request) { s with calls := s.calls ++ [⟨request, .arrived⟩] }
  | unauthorised {i : Nat} {request : McpRequest} (now : UnixMillis)
      (hCall : s.calls[i]? = some ⟨request, .arrived⟩) :
      Effect (.authenticate i now) (s.moveTo i request (.done (.error unauthorizedResponse)))
  | authorised {i : Nat} {request : McpRequest} {credential : CompetitiveSeatCredential}
      {now : UnixMillis} (hCall : s.calls[i]? = some ⟨request, .arrived⟩)
      (hCredential : authenticateCapability key s.capabilities now request.bearer request.gameId
        .act = .ok (.seat credential)) :
      Effect (.authenticate i now)
        { s.moveTo i request (.authenticated credential) with
          authentications := s.authentications ++ [(i, credential)] }
  | survey {i : Nat} {request : McpRequest} {credential : CompetitiveSeatCredential}
      (hCall : s.calls[i]? = some ⟨request, .authenticated credential⟩) :
      Effect (.survey i) (s.moveTo i request (.surveyed credential s.live))
  | retain {i : Nat} {request : McpRequest} {credential : CompetitiveSeatCredential}
      {live : List SessionId} (hCall : s.calls[i]? = some ⟨request, .surveyed credential live⟩) :
      Effect (.retain i)
        { s.moveTo i request (.retained credential live) with
          bindings := retainSessions s.bindings live }
  | retainSubscriptions {i : Nat} {request : McpRequest} {credential : CompetitiveSeatCredential}
      {live : List SessionId} (hCall : s.calls[i]? = some ⟨request, .retained credential live⟩) :
      Effect (.retainSubscriptions i)
        { s.moveTo i request (.pruned credential) with
          subscriptions := retainSessions s.subscriptions live }
  | refuse {i : Nat} {request : McpRequest} {credential : CompetitiveSeatCredential}
      (error : ErrorResponse) (hCall : s.calls[i]? = some ⟨request, .pruned credential⟩) :
      Effect (.check i) (s.moveTo i request (.done (.error error)))
  | pass {i : Nat} {request : McpRequest} {credential : CompetitiveSeatCredential}
      (hCall : s.calls[i]? = some ⟨request, .pruned credential⟩)
      (hPass : s.refusal platform request credential = none) :
      Effect (.check i) (s.moveTo i request (.checked credential))
  | forward {i : Nat} {request : McpRequest} {credential : CompetitiveSeatCredential}
      {session : SessionId} (choice : ManagerChoice)
      (hCall : s.calls[i]? = some ⟨request, .checked credential⟩)
      (hSession : request.session = some session) (hLive : session ∈ s.live) :
      Effect (.dispatch i choice) (s.forward i request credential session choice.named)
  | create {i : Nat} {request : McpRequest} {credential : CompetitiveSeatCredential}
      {choice : ManagerChoice} (hCall : s.calls[i]? = some ⟨request, .checked credential⟩)
      (hSession : request.session = none) (hAccepted : choice.refused = false)
      (hMethod : request.method = .post)
      (hMessage : request.message = .initializeSession) (hFresh : ¬ s.used choice.fresh) :
      Effect (.dispatch i choice) (s.create i request credential choice.fresh choice.initialized)
  | fail {i : Nat} {request : McpRequest} {credential : CompetitiveSeatCredential}
      (choice : ManagerChoice) (hCall : s.calls[i]? = some ⟨request, .checked credential⟩) :
      Effect (.dispatch i choice) (s.moveTo i request (.answered credential ⟨false, none⟩))
  | unbind {i : Nat} {request : McpRequest} {credential : CompetitiveSeatCredential}
      {response : McpResponse} {session : SessionId}
      (hCall : s.calls[i]? = some ⟨request, .answered credential response⟩)
      (hMethod : request.method = .delete) (hSession : request.session = some session) :
      Effect (.update i)
        { s.moveTo i request (.unbound session response) with
          bindings := s.bindings.erase session }
  | bind {i : Nat} {request : McpRequest} {credential : CompetitiveSeatCredential}
      {session : SessionId} (hCall : s.calls[i]? =
        some ⟨request, .answered credential ⟨true, some session⟩⟩)
      (hMethod : request.method ≠ .delete) :
      Effect (.update i)
        { s.moveTo i request (.done (.ok ⟨true, some session⟩)) with
          bindings := s.bindings.insert session (sessionBinding platform request credential) }
  | settle {i : Nat} {request : McpRequest} {credential : CompetitiveSeatCredential}
      {response : McpResponse} (hCall : s.calls[i]? =
        some ⟨request, .answered credential response⟩)
      (hDelete : request.method = .delete → request.session = none)
      (hOther : request.method ≠ .delete → response.success = true → response.session = none) :
      Effect (.update i) (s.moveTo i request (.done (.ok response)))
  | removeSubscriptions {i : Nat} {request : McpRequest} {response : McpResponse}
      {session : SessionId} (hCall : s.calls[i]? = some ⟨request, .unbound session response⟩) :
      Effect (.removeSubscriptions i)
        { s.moveTo i request (.done (.ok response)) with
          subscriptions := s.subscriptions.erase session }
  | subscribe {j i : Nat} {request : McpRequest} {authority : CompetitiveSeatCredential}
      {session header : SessionId} (uri : String)
      (hDispatched : s.dispatched[j]? = some ⟨i, session, request, authority⟩)
      (hHeader : request.session = some header) :
      Effect (.process j) (s.subscribe header authority uri session)
  | unsubscribe (j : Nat) (header : SessionId) (uri : String) :
      Effect (.process j) (s.unsubscribe header uri)
  | expire (session : SessionId) :
      Effect (.expire session) { s with live := s.live.filter (· ≠ session) }
  | notify (gameId : GameId) : Effect (.notify gameId) (s.notifyGameUpdated gameId)

theorem authenticate_effect (i : Nat) (now : UnixMillis) :
    Effect platform key s (.authenticate i now) (s.authenticate key i now) := by
  unfold authenticate
  split
  · rename_i request hCall
    split
    · rename_i credential hCredential
      exact .authorised hCall hCredential
    · exact .unauthorised now hCall
  · exact .idle _

theorem check_effect (i : Nat) : Effect platform key s (.check i) (s.check platform i) := by
  unfold check
  split
  · rename_i request credential hCall
    split
    · exact .refuse _ hCall
    · exact .pass hCall ‹_›
  · exact .idle _

theorem dispatch_effect (i : Nat) (choice : ManagerChoice) :
    Effect platform key s (.dispatch i choice) (s.dispatch i choice) := by
  unfold dispatch
  split
  · rename_i request credential hCall
    split
    · rename_i session hSession
      split
      · rename_i hLive
        exact .forward choice hCall hSession hLive.2
      · exact .fail choice hCall
    · rename_i hSession
      split
      · rename_i hAccepted
        split
        · exact .idle _
        · exact .create hCall hSession hAccepted.1 hAccepted.2.1 hAccepted.2.2 ‹_›
      · exact .fail choice hCall
  · exact .idle _

theorem update_effect (i : Nat) : Effect platform key s (.update i) (s.update platform i) := by
  unfold update
  split
  · rename_i request credential response hCall
    split
    · rename_i hMethod
      split
      · exact .unbind hCall hMethod ‹_›
      · exact .settle hCall (fun _ => ‹_›) fun hOther => absurd hMethod hOther
    · rename_i hMethod
      obtain ⟨success, named⟩ := response
      cases success with
      | false => exact .settle hCall (fun h => absurd h hMethod) fun _ h => by cases h
      | true =>
          cases named with
          | none => exact .settle hCall (fun h => absurd h hMethod) fun _ _ => rfl
          | some session => exact .bind hCall hMethod
  · exact .idle _

theorem process_effect (j : Nat) : Effect platform key s (.process j) (s.process j) := by
  unfold process
  split
  · exact .idle _
  · rename_i i session request authority hDispatched
    split
    · rename_i uri header _ hHeader
      split
      · split
        · exact .subscribe uri hDispatched hHeader
        · exact .idle _
      · exact .idle _
    · split
      · split
        · exact .unsubscribe j _ _
        · exact .idle _
      · exact .idle _
    · exact .idle _

theorem step_effect (action : GatewayAction) :
    Effect platform key s action (s.step platform key action) := by
  cases action with
  | setCapabilities records => exact .setCapabilities records
  | arrive request => exact .arrive request
  | authenticate i now => exact authenticate_effect platform key s i now
  | survey i =>
      rw [step, survey]
      split
      · exact .survey ‹_›
      · exact .idle _
  | retain i =>
      rw [step, retain]
      split
      · exact .retain ‹_›
      · exact .idle _
  | retainSubscriptions i =>
      rw [step, retainSubscriptions]
      split
      · exact .retainSubscriptions ‹_›
      · exact .idle _
  | check i => exact check_effect platform key s i
  | dispatch i choice => exact dispatch_effect platform key s i choice
  | update i => exact update_effect platform key s i
  | removeSubscriptions i =>
      rw [step, removeSubscriptions]
      split
      · exact .removeSubscriptions ‹_›
      · exact .idle _
  | process j => exact process_effect platform key s j
  | expire session => exact .expire session
  | notify gameId => exact .notify gameId

end Gateway

def gateway : Machine Gateway GatewayAction Unit where
  step s action := ((), s.step platform key action)

end

end WordArena.Server
