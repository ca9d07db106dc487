import WordArena.Engine.History
import WordArena.Engine.Termination
import WordArena.Web.Decode

/-! The browser reads what the server sends. Every view that a role may see is accepted and says
the same, and a view above the authority it is decoded for is refused whole. -/
namespace WordArena.Web

open WordArena.Engine (RulesetId Coordinate Seat Score Rack Game isPhysicalToken Reachable Platform)
open WordArena.Lexicon

/-! What a value becomes in the browser. -/

def viewTile (tile : Engine.BoardTile) : BoardTile where
  tileId := tile.tileId.raw.toNat
  letter := tile.letter
  isBlank := tile.isBlank

def viewFace : Engine.TileFace → TileFace
  | .letter token => .letter token.asStr
  | .blank => .blank

def viewPhysicalTile (tile : Engine.PhysicalTile) : PhysicalTile where
  id := tile.id.raw.toNat
  face := viewFace tile.face

def viewRack (rack : Rack) : List PhysicalTile := rack.tiles.map viewPhysicalTile

def viewCounts (counts : List UInt8) : List Int := counts.map fun count => count.toNat

def viewEvent (event : Engine.GameEvent) : GameEvent where
  sequence := event.sequence.toNat
  kind := kindFields event.kind

def viewState (state : Engine.PublicGameState) : PublicGameState where
  gameId := state.gameId
  rulesetId := state.rulesetId
  mode := state.mode
  board := state.board.map (Option.map viewTile)
  scores := state.scores.map fun score => score.value.toInt
  currentPlayer := state.currentPlayer
  version := state.version.toNat
  scorelessTurns := state.scorelessTurns.toNat
  rackCounts := viewCounts state.rackCounts
  bagCount := state.bagCount.toNat
  phase := state.phase

def viewPublic (projection : Engine.PublicProjection) : PublicProjection where
  schemaVersion := projectionSchemaVersion
  state := viewState projection.state
  events := projection.events.map viewEvent

def viewDeadline (deadline : TurnDeadline) : Deadline where
  turn := deadline.turn.toNat
  seat := deadline.seat
  deadlineAt := deadline.deadlineAt.toInt
  policyVersion := deadline.policyVersion.toNat

section Values

variable {α β γ : Type}

@[simp] theorem field_nil (name : String) : field [] name = none := rfl

/-- A field is found unless a later one has its name. -/
@[simp] theorem field_cons (entry : String × Document) (fields : List (String × Document))
    (name : String) : field (entry :: fields) name =
      (field fields name).or (if entry.1 = name then some entry.2 else none) := by
  rw [field, List.reverse_cons, List.find?_append, field]
  by_cases hName : entry.1 = name
  · cases fields.reverse.find? fun other => other.1 == name <;> simp [hName]
  · cases fields.reverse.find? fun other => other.1 == name <;> simp [hName]

theorem integer_encodeInt {n : Int} (hLow : -(2 ^ 53) < n) (hHigh : n < 2 ^ 53) :
    integer (some (encodeInt n)) = some n :=
  if_pos ⟨by rw [maxSafeInteger]; omega, by rw [maxSafeInteger]; omega⟩

theorem integer_encodeNat {n : Nat} (h : n < 2 ^ 53) : integer (some (encodeNat n)) = some (n : Int) :=
  integer_encodeInt (n := n) (by omega) (by omega)

@[simp] theorem integer_u8 (n : UInt8) : integer (some (encodeNat n.toNat)) = some (n.toNat : Int) :=
  integer_encodeNat (Nat.lt_trans n.toNat_lt (by norm_num))

@[simp] theorem integer_u16 (n : UInt16) : integer (some (encodeNat n.toNat)) = some (n.toNat : Int) :=
  integer_encodeNat (Nat.lt_trans n.toNat_lt (by norm_num))

@[simp] theorem integer_u32 (n : UInt32) : integer (some (encodeNat n.toNat)) = some (n.toNat : Int) :=
  integer_encodeNat (Nat.lt_trans n.toNat_lt (by norm_num))

@[simp] theorem integer_score (score : Score) :
    integer (some (encodeScore score)) = some score.value.toInt := by
  have hLow := score.value.le_toInt
  have hHigh := score.value.toInt_lt
  exact integer_encodeInt (by omega) (by omega)

theorem bind_eq_some {value : Option α} {next : α → Option β} {result : β} :
    (value >>= next) = some result ↔ ∃ inner, value = some inner ∧ next inner = some result :=
  Option.bind_eq_some_iff

theorem string_of_ne {text : String} (h : text ≠ "") : string (some (.string text)) = some text :=
  if_neg h

@[simp] theorem array_encodeList (encode : α → Document) (values : List α) :
    array (some (encodeList encode values)) = some (values.map encode) := rfl

/-- A list is decoded element by element. -/
theorem mapM_encode {encode : α → γ} {decode : γ → Option β} {view : α → β}
    {values : List α} (h : ∀ value ∈ values, decode (encode value) = some (view value)) :
    (values.map encode).mapM decode = some (values.map view) := by
  induction values with
  | nil => rfl
  | cons value values ih =>
      rw [List.map_cons, List.mapM_cons, h value List.mem_cons_self,
        ih fun other hOther => h other (List.mem_cons_of_mem _ hOther)]
      rfl

theorem playerValues_encode {encode : α → Document} {view : α → Int} {values : List α}
    (hLength : 2 ≤ values.length ∧ values.length ≤ 4)
    (h : ∀ value, integer (some (encode value)) = some (view value)) :
    playerValues (some (encodeList encode values)) = some (values.map view) := by
  have hValues : (values.map encode).mapM (fun item => integer (some item)) =
      some (values.map view) := mapM_encode fun value _ => h value
  rw [playerValues, array_encodeList]
  simp only [Option.bind_eq_bind, Option.bind_some, List.length_map, hLength, decide_true,
    Bool.and_self, require, if_true, hValues]

end Values

section Names

@[simp] theorem seat_encode (owner : Seat) : seat (some (encodeSeat owner)) = some owner := by
  cases owner <;> rfl

@[simp] theorem rulesetId_encode (id : RulesetId) :
    rulesetId (some (encodeRulesetId id)) = some id := by
  cases id <;> rfl

@[simp] theorem stateMode_encode (mode : Engine.GameMode) :
    stateMode (some (.string (modeName mode))) = some mode := by
  cases mode <;> rfl

end Names

theorem token_ne_empty {text : String} (h : isPhysicalToken text = true) : text ≠ "" := by
  rintro rfl
  cases h

theorem boardTile_encode {tile : Engine.BoardTile} (h : isPhysicalToken tile.letter = true) :
    boardTile (encodeBoardTile tile) = some (viewTile tile) := by
  simp [boardTile, encodeBoardTile, record, require, string_of_ne (token_ne_empty h), h, encodeTileId,
    boolean, viewTile]

theorem physicalTile_object {number : Document} {id : Int} (hId : integer (some number) = some id)
    (face : Engine.TileFace) :
    physicalTile (.object [("id", number), ("face", encodeFace face)]) = some ⟨id, viewFace face⟩ := by
  cases face with
  | blank => simp [physicalTile, encodeFace, record, literal, faceToken, hId, viewFace]
  | letter token =>
      simp [physicalTile, encodeFace, record, literal, require, faceToken,
        string_of_ne (token_ne_empty token.physical), token.physical, hId, viewFace]

theorem physicalTile_encode (tile : Engine.PhysicalTile) :
    physicalTile (encodePhysicalTile tile) = some (viewPhysicalTile tile) :=
  physicalTile_object (integer_u16 tile.id.raw) tile.face

theorem gameEvent_encode {event : Engine.GameEvent} (h : event.sequence.toNat < 2 ^ 53) :
    gameEvent (encodeEvent event) = some (viewEvent event) := by
  have hType : ∃ text, string (field (kindFields event.kind) "type") = some text := by
    cases event.kind <;> exact ⟨_, rfl⟩
  obtain ⟨text, hText⟩ := hType
  simp [gameEvent, encodeEvent, eventFields, record, viewEvent, integer_encodeNat h] at hText ⊢
  simp [hText]

section Privacy

/-- No name that a walk through the document meets is forbidden. -/
def Document.Clean (forbidden : List String) (value : Document) : Prop :=
  ∀ name ∈ value.keys, name ∉ forbidden

/-- Every name that any decoder or export forbids. -/
def guarded : List String :=
  ["rack", "racks", "private_events", "bag", "seed", "snapshot", "capability", "capabilities",
    "public_capability", "spectator_capability"]

variable {α : Type} {forbidden : List String}

theorem Document.Clean.exposes {value : Document} (h : value.Clean forbidden) :
    value.exposes forbidden = false := by
  simpa [Document.exposes, Document.Clean] using h

theorem Document.Clean.mono {value : Document} {fewer : List String} (h : value.Clean forbidden)
    (hFewer : ∀ name ∈ fewer, name ∈ forbidden) : value.Clean fewer :=
  fun name hName hForbidden => h name hName (hFewer name hForbidden)

theorem mem_elementKeys {values : List Document} {name : String} :
    name ∈ elementKeys values ↔ ∃ value ∈ values, name ∈ value.keys := by
  induction values with
  | nil => simp [elementKeys]
  | cons value values ih => simp [elementKeys, ih]

theorem mem_fieldKeys {fields : List (String × Document)} {name : String}
    (h : name ∈ fieldKeys fields) : ∃ entry ∈ fields, name = entry.1 ∨ name ∈ entry.2.keys := by
  induction fields with
  | nil => simp [fieldKeys] at h
  | cons entry fields ih =>
      have hRest : name ∈ fieldKeys fields →
          ∃ other ∈ entry :: fields, name = other.1 ∨ name ∈ other.2.keys := by
        intro hLater
        obtain ⟨other, hOther, hName⟩ := ih hLater
        exact ⟨other, List.mem_cons_of_mem _ hOther, hName⟩
      obtain ⟨key, value⟩ := entry
      rw [fieldKeys] at h
      split at h
      · exact hRest h
      · rcases List.mem_cons.mp h with rfl | h
        · exact ⟨_, List.mem_cons_self, .inl rfl⟩
        · rcases List.mem_append.mp h with hHere | hLater
          · exact ⟨_, List.mem_cons_self, .inr hHere⟩
          · exact hRest hLater

/-- A field counts under its name, whatever comes before it. -/
theorem mem_fieldKeys_of_mem {fields : List (String × Document)} {name : String}
    (h : name ∈ fields.map Prod.fst) : name ∈ fieldKeys fields := by
  induction fields with
  | nil => simp at h
  | cons entry fields ih =>
      obtain ⟨key, value⟩ := entry
      rw [fieldKeys]
      split
      · rename_i hAgain
        rcases List.mem_cons.mp h with rfl | h
        · obtain ⟨other, hOther, hName⟩ := List.any_eq_true.mp hAgain
          exact ih (List.mem_map.mpr ⟨other, hOther, by simpa using hName⟩)
        · exact ih h
      · rcases List.mem_cons.mp h with rfl | h
        · exact List.mem_cons_self
        · exact List.mem_cons_of_mem _ (List.mem_append_right _ (ih h))

theorem clean_object {fields : List (String × Document)}
    (hNames : ∀ name ∈ fields.map Prod.fst, name ∉ forbidden)
    (hValues : fields.Forall fun entry => entry.2.Clean forbidden) :
    (Document.object fields).Clean forbidden := by
  intro name hName
  rw [Document.keys] at hName
  obtain ⟨entry, hEntry, hSource⟩ := mem_fieldKeys hName
  rcases hSource with rfl | hInner
  · exact hNames _ (List.mem_map_of_mem hEntry)
  · exact List.forall_iff_forall_mem.mp hValues entry hEntry name hInner

theorem clean_list {encode : α → Document} {values : List α}
    (h : ∀ value, (encode value).Clean forbidden) : (encodeList encode values).Clean forbidden := by
  intro name hName
  rw [encodeList, Document.keys] at hName
  obtain ⟨inner, hInner, hKeys⟩ := mem_elementKeys.mp hName
  obtain ⟨value, -, rfl⟩ := List.mem_map.mp hInner
  exact h value name hKeys

/-- No name that anybody forbids stands anywhere in the document. -/
def Document.Safe (value : Document) : Prop := value.Clean guarded

theorem safe_object {fields : List (String × Document)}
    (hNames : ∀ name ∈ fields.map Prod.fst, name ∉ guarded)
    (hValues : fields.Forall fun entry => entry.2.Safe) : (Document.object fields).Safe :=
  clean_object hNames hValues

@[simp] theorem safe_string (text : String) : (Document.string text).Safe := by
  simp [Document.Safe, Document.Clean, Document.keys]

@[simp] theorem safe_boolean (value : Bool) : (Document.boolean value).Safe := by
  simp [Document.Safe, Document.Clean, Document.keys]

@[simp] theorem safe_null : Document.null.Safe := by
  simp [Document.Safe, Document.Clean, Document.keys]

@[simp] theorem safe_encodeInt (n : Int) : (encodeInt n).Safe := by
  simp [Document.Safe, Document.Clean, Document.keys, encodeInt]

@[simp] theorem safe_encodeNat (n : Nat) : (encodeNat n).Safe := safe_encodeInt n

@[simp] theorem safe_encodeList {encode : α → Document} {values : List α}
    (h : ∀ value, (encode value).Safe) : (encodeList encode values).Safe := clean_list h

@[simp] theorem safe_encodeOption {encode : α → Document} (h : ∀ value, (encode value).Safe)
    (value : Option α) : (encodeOption encode value).Safe := by
  cases value with
  | none => exact safe_null
  | some value => exact h value

@[simp] theorem safe_seat (owner : Seat) : (encodeSeat owner).Safe := safe_string _

@[simp] theorem safe_rulesetId (id : RulesetId) : (encodeRulesetId id).Safe := safe_string _

@[simp] theorem safe_rngAlgorithm (algorithm : Engine.RngAlgorithm) :
    (encodeRngAlgorithm algorithm).Safe := safe_string _

@[simp] theorem safe_tileId (id : Engine.TileId) : (encodeTileId id).Safe := safe_encodeNat _

@[simp] theorem safe_score (score : Score) : (encodeScore score).Safe := safe_encodeInt _

@[simp] theorem safe_rackCounts (counts : List UInt8) : (encodeRackCounts counts).Safe :=
  safe_encodeList fun _ => safe_encodeNat _

@[simp] theorem safe_normalization (descriptor : NormalizationDescriptor) :
    (encodeNormalization descriptor).Safe :=
  safe_object (by simp [guarded]) (by simp)

@[simp] theorem safe_packIdentity (pack : PackIdentity) : (encodePackIdentity pack).Safe :=
  safe_object (by simp [guarded]) (by simp)

@[simp] theorem safe_coordinate (c : Coordinate) : (encodeCoordinate c).Safe :=
  safe_object (by simp [guarded]) (by simp)

@[simp] theorem safe_square (square : Engine.BoardSquare) : (encodeSquare square).Safe :=
  safe_object (by simp [guarded]) (by simp)

@[simp] theorem safe_board (board : Engine.BoardDefinition) : (encodeBoard board).Safe :=
  safe_object (by simp [guarded]) (by simp)

@[simp] theorem safe_face (face : Engine.TileFace) : (encodeFace face).Safe := by
  cases face <;> exact safe_object (by simp [guarded]) (by simp)

@[simp] theorem safe_tileDefinition (definition : Engine.TileDefinition) :
    (encodeTileDefinition definition).Safe :=
  safe_object (by simp [guarded]) (by simp)

@[simp] theorem safe_gameRules (game : Engine.GameRules) : (encodeGameRules game).Safe :=
  safe_object (by simp [guarded]) (by simp)

@[simp] theorem safe_ruleset (ruleset : Engine.Ruleset) : (encodeRuleset ruleset).Safe :=
  safe_object (by simp [guarded, rulesetFields]) (by simp [rulesetFields])

@[simp] theorem safe_rulesetIdentity (identity : Engine.RulesetIdentity) :
    (encodeRulesetIdentity identity).Safe :=
  safe_object (by simp [guarded, identityFields]) (by simp [identityFields])

@[simp] theorem safe_seedCommitment (commitment : Engine.SeedCommitment) :
    (encodeSeedCommitment commitment).Safe :=
  safe_object (by simp [guarded]) (by simp)

@[simp] theorem safe_physicalTile (tile : Engine.PhysicalTile) : (encodePhysicalTile tile).Safe :=
  safe_object (by simp [guarded]) (by simp)

@[simp] theorem safe_rack (rack : Rack) : (encodeRack rack).Safe :=
  safe_encodeList safe_physicalTile

@[simp] theorem safe_tile (tile : Engine.Tile) : (encodeTile tile).Safe :=
  safe_object (by simp [guarded]) (by simp)

@[simp] theorem safe_placement (p : Engine.Placement) : (encodePlacement p).Safe :=
  safe_object (by simp [guarded]) (by simp)

@[simp] theorem safe_boardTile (tile : Engine.BoardTile) : (encodeBoardTile tile).Safe :=
  safe_object (by simp [guarded]) (by simp)

@[simp] theorem safe_word (word : Engine.FormedWord) : (encodeWord word).Safe :=
  safe_object (by simp [guarded]) (by simp)

@[simp] theorem safe_reason (reason : Engine.TerminalReason) : (encodeReason reason).Safe := by
  cases reason <;> exact safe_object (by simp [guarded]) (by simp)

@[simp] theorem safe_result (result : Engine.GameResult) : (encodeResult result).Safe :=
  safe_object (by simp [guarded]) (by simp)

@[simp] theorem safe_kind (kind : Engine.GameEventKind) : (Document.object (kindFields kind)).Safe := by
  cases kind <;> exact safe_object (by simp [guarded, kindFields]) (by simp [kindFields])

@[simp] theorem safe_visibility (visibility : Engine.EventVisibility) :
    (encodeVisibility visibility).Safe := by
  cases visibility <;> exact safe_object (by simp [guarded]) (by simp)

@[simp] theorem safe_event (event : Engine.GameEvent) : (encodeEvent event).Safe :=
  safe_object (by simp [guarded, eventFields]) (by simp [eventFields])

@[simp] theorem safe_privateEvent (event : Engine.PrivateGameEvent) :
    (encodePrivateEvent event).Safe :=
  safe_object (by simp [guarded, privateEventFields]) (by simp [privateEventFields])

@[simp] theorem safe_state (state : Engine.PublicGameState) : (encodeState state).Safe :=
  safe_object (by simp [guarded]) (by simp)

@[simp] theorem safe_publicProjection (projection : Engine.PublicProjection) :
    (encodePublicProjection projection).Safe :=
  safe_object (by simp [guarded]) (by simp)

@[simp] theorem safe_deadline (deadline : TurnDeadline) : (encodeDeadline deadline).Safe :=
  safe_object (by simp [guarded]) (by simp)

theorem Document.Safe.clean {value : Document} (h : value.Safe) (authority : GameAuthority) :
    value.Clean authority.forbidden := by
  cases authority <;> exact Document.Clean.mono h (by decide)

/-- A response adds no name to those of the game in it. -/
theorem clean_view {authority : GameAuthority} {game : Document} (observedAt : Int64)
    (deadline : Option TurnDeadline) (h : game.Clean authority.forbidden) :
    (encodeEnvelope (encodeGameView observedAt deadline game)).Clean authority.forbidden := by
  have hView : (encodeGameView observedAt deadline game).Clean authority.forbidden :=
    clean_object (by cases authority <;> simp [GameAuthority.forbidden])
      ⟨(safe_encodeInt _).clean authority,
        (safe_encodeOption safe_deadline deadline).clean authority, h⟩
  exact clean_object (by cases authority <;> simp [GameAuthority.forbidden])
    ⟨(safe_encodeInt _).clean authority, hView⟩

theorem clean_seatProjection (projection : Engine.SeatProjection) :
    (encodeSeatProjection projection).Clean GameAuthority.seat.forbidden :=
  clean_object (by simp [GameAuthority.forbidden])
    ⟨(safe_encodeNat _).clean .seat, (safe_seat _).clean .seat,
      (safe_publicProjection _).clean .seat, (safe_rack _).clean .seat,
      (safe_encodeList safe_privateEvent).clean .seat⟩

theorem clean_spectatorProjection (projection : Engine.HumanSpectatorProjection) :
    (encodeSpectatorProjection projection).Clean GameAuthority.spectator.forbidden :=
  clean_object (by simp [GameAuthority.forbidden])
    ⟨(safe_encodeNat _).clean .spectator, (safe_publicProjection _).clean .spectator,
      (safe_encodeList safe_rack).clean .spectator,
      (safe_encodeList safe_privateEvent).clean .spectator⟩

/-- A name in the game of a response is met by a walk through the response. -/
theorem mem_keys_view {name : String} {game : Document} (observedAt : Int64)
    (deadline : Option TurnDeadline) (h : name ∈ game.keys) :
    name ∈ (encodeEnvelope (encodeGameView observedAt deadline game)).keys := by
  simp [encodeEnvelope, encodeGameView, Document.keys, fieldKeys, h]

end Privacy

section Decoding

/-- What the browser expects of a state. -/
structure Sendable (state : Engine.PublicGameState) : Prop where
  gameId : state.gameId ≠ ""
  board : state.board.length = 225
  canonical : ∀ tile ∈ state.board.reduceOption, isPhysicalToken tile.letter = true
  scores : 2 ≤ state.scores.length ∧ state.scores.length ≤ 4
  rackCounts : 2 ≤ state.rackCounts.length ∧ state.rackCounts.length ≤ 4
  version : state.version.toNat < 2 ^ 53

variable {platform : Platform} {g : Game}

theorem reachable_scores (h : Reachable platform g) :
    2 ≤ g.state.scores.length ∧ g.state.scores.length ≤ 4 := by
  rw [h.shape.scores]
  exact h.shape.players

theorem reachable_counts (h : Reachable platform g) :
    2 ≤ g.state.rackCounts.length ∧ g.state.rackCounts.length ≤ 4 := by
  have hCounts := congrArg List.length h.conserved.rackCounts
  simp only [List.length_map] at hCounts
  rw [hCounts]
  exact h.shape.players

theorem reachable_sendable (h : Reachable platform g) (hName : g.state.gameId ≠ "") :
    Sendable g.state where
  gameId := hName
  board := h.shape.board
  canonical := h.conserved.canonical
  scores := reachable_scores h
  rackCounts := reachable_counts h
  version := Nat.lt_of_le_of_lt h.version_le_builtin (by norm_num)

theorem reachable_sequences (h : Reachable platform g) :
    ∀ event ∈ g.events, event.sequence.toNat < 2 ^ 53 := by
  intro event hEvent
  have hPast := h.annals.past event hEvent
  exact Nat.lt_of_le_of_lt (UInt64.le_iff_toNat_le.mp hPast)
    (Nat.lt_of_le_of_lt h.version_le_builtin (by norm_num))

theorem board_encode {board : List (Option Engine.BoardTile)}
    (h : ∀ tile ∈ board.reduceOption, isPhysicalToken tile.letter = true) :
    (board.map (encodeOption encodeBoardTile)).mapM boardSquare =
      some (board.map (Option.map viewTile)) := by
  refine mapM_encode fun square hSquare => ?_
  cases square with
  | none => rfl
  | some tile =>
      have hTile := boardTile_encode (h tile (List.reduceOption_mem_iff.mpr hSquare))
      change (boardTile (encodeBoardTile tile)).map some = _
      rw [hTile]
      rfl

/-- The fields of a state that the browser reads. -/
theorem state_fields (state : Engine.PublicGameState) :
    ∃ fields, encodeState state = .object fields ∧
      field fields "game_id" = some (.string state.gameId) ∧
      field fields "ruleset_id" = some (encodeRulesetId state.rulesetId) ∧
      field fields "mode" = some (.string (modeName state.mode)) ∧
      field fields "board" = some (encodeList (encodeOption encodeBoardTile) state.board) ∧
      field fields "scores" = some (encodeList encodeScore state.scores) ∧
      field fields "current_player" = some (encodeSeat state.currentPlayer) ∧
      field fields "version" = some (encodeNat state.version.toNat) ∧
      field fields "scoreless_turns" = some (encodeNat state.scorelessTurns.toNat) ∧
      field fields "rack_counts" = some (encodeRackCounts state.rackCounts) ∧
      field fields "bag_count" = some (encodeNat state.bagCount.toNat) ∧
      field fields "phase" = some (.string (phaseName state.phase)) :=
  ⟨_, rfl, rfl, rfl, rfl, rfl, rfl, rfl, rfl, rfl, rfl, rfl, rfl⟩

theorem publicState_encode {state : Engine.PublicGameState} (h : Sendable state) :
    publicState (some (encodeState state)) = some (viewState state) := by
  obtain ⟨fields, hState, hGame, hRuleset, hMode, hBoard, hScores, hPlayer, hVersion, hTurns,
    hCounts, hBag, hPhase⟩ := state_fields state
  have hPhaseName : literal [("active", Engine.GamePhase.active), ("finished", .finished)]
      (some (.string (phaseName state.phase))) = some state.phase := by
    cases state.phase <;> rfl
  have hRackCounts : playerValues (some (encodeRackCounts state.rackCounts)) =
      some (viewCounts state.rackCounts) := playerValues_encode h.rackCounts integer_u8
  rw [publicState]
  simp only [↓bind_eq_some]
  exact ⟨fields, by rw [hState]; rfl, _, by rw [hBoard, array_encodeList], (),
    by simp [require, h.board], _, by rw [hGame, string_of_ne h.gameId], _,
    by rw [hRuleset, rulesetId_encode], _, by rw [hMode, stateMode_encode], _,
    board_encode h.canonical, _, by rw [hScores, playerValues_encode h.scores integer_score], _,
    by rw [hPlayer, seat_encode], _, by rw [hVersion, integer_encodeNat h.version], _,
    by rw [hTurns, integer_u8], _, by rw [hCounts, hRackCounts], _, by rw [hBag, integer_u16], _,
    by rw [hPhase, hPhaseName], rfl⟩

theorem publicProjection_encode (h : Reachable platform g) (hName : g.state.gameId ≠ "") :
    publicProjection (some (encodePublicProjection g.publicProjection)) =
      some (viewPublic g.publicProjection) := by
  have hEvents : (g.events.map encodeEvent).mapM gameEvent = some (g.events.map viewEvent) :=
    mapM_encode fun event hEvent => gameEvent_encode (reachable_sequences h event hEvent)
  have hState := publicState_encode (reachable_sendable h hName)
  have hSchema : integer (some (encodeNat Engine.projectionSchemaVersion.toNat)) =
      some projectionSchemaVersion := rfl
  simp [publicProjection, encodePublicProjection, record, require, Game.publicProjection, hState,
    hEvents, hSchema, viewPublic]

end Decoding

section Responses

/-- The roles that the server has a view for. -/
inductive Role where
  | publicView
  | seat (owner : Seat)
  | spectator
  | administrator
deriving DecidableEq, Repr

/-- The authority a browser needs for the view of a role. It has none for an administrator. -/
def Role.authority : Role → Option GameAuthority
  | .publicView => some .publicView
  | .seat _ => some .seat
  | .spectator => some .spectator
  | .administrator => none

def Role.game (platform : Platform) (g : Game) : Role → Document
  | .publicView => encodePublicProjection g.publicProjection
  | .seat owner => encodeSeatProjection (g.seatProjection owner)
  | .spectator => encodeSpectatorProjection g.humanSpectatorProjection
  | .administrator => encodeAdministratorProjection (g.administratorProjection platform)

def Role.response (platform : Platform) (g : Game) (observedAt : Int64)
    (deadline : Option TurnDeadline) (role : Role) : Document :=
  encodeEnvelope (encodeGameView observedAt deadline (role.game platform g))

/-- What the browser shows an authority of a game. -/
def viewFor (g : Game) (observedAt : Int64) (deadline : Option TurnDeadline) (role : Role)
    (authority : GameAuthority) : GameView where
  authority := authority
  observedAt := observedAt.toInt
  turnDeadline := deadline.map viewDeadline
  publicView := viewPublic g.publicProjection
  seat := match role with
    | .seat owner => some owner
    | _ => none
  rack := match role with
    | .seat owner => some (viewRack (g.rack owner))
    | _ => none
  racks := match role with
    | .spectator => some (g.racks.map viewRack)
    | _ => none

def SafeInteger (n : Int) : Prop := -(2 ^ 53) < n ∧ n < 2 ^ 53

def SafeDeadline (deadline : TurnDeadline) : Prop :=
  deadline.turn.toNat < 2 ^ 53 ∧ SafeInteger deadline.deadlineAt.toInt

variable {platform : Platform} {g : Game} {observedAt : Int64} {deadline : Option TurnDeadline}

theorem openEnvelope_encode (data : Document) :
    openEnvelope (encodeEnvelope data) = some (some data) := rfl

theorem turnDeadline_encode (h : ∀ value ∈ deadline, SafeDeadline value) :
    turnDeadline (some (encodeOption encodeDeadline deadline)) =
      some (deadline.map viewDeadline) := by
  cases deadline with
  | none => rfl
  | some value =>
      obtain ⟨hTurn, hLow, hHigh⟩ := h value rfl
      simp [turnDeadline, encodeOption, encodeDeadline, record, integer_encodeNat hTurn,
        integer_encodeInt hLow hHigh, viewDeadline]

theorem rackTiles_encode (rack : Rack) : rackTiles (some (encodeRack rack)) = some (viewRack rack) :=
  mapM_encode fun tile _ => physicalTile_encode tile

/-- The fields of a response come before the game in it is looked at. -/
theorem decodeGameView_response {game : List (String × Document)} {authority : GameAuthority}
    (hClean : (Document.object game).Clean authority.forbidden)
    (hObserved : SafeInteger observedAt.toInt) (hDeadline : ∀ value ∈ deadline, SafeDeadline value) :
    decodeGameView (encodeEnvelope (encodeGameView observedAt deadline (.object game))) authority =
      decodeGame authority observedAt.toInt (deadline.map viewDeadline) game := by
  have hPrivate : assertPrivacy (encodeEnvelope (encodeGameView observedAt deadline (.object game)))
      authority = some () := by
    rw [assertPrivacy, (clean_view observedAt deadline hClean).exposes]
    rfl
  have hView : field [("observed_at", encodeInt observedAt.toInt),
      ("turn_deadline", encodeOption encodeDeadline deadline), ("game", .object game)]
      "turn_deadline" = some (encodeOption encodeDeadline deadline) := rfl
  rw [decodeGameView, hPrivate, openEnvelope_encode]
  simp [encodeGameView, record, integer_encodeInt hObserved.1 hObserved.2,
    turnDeadline_encode hDeadline]

theorem decodeGameView_exposed {value : Document} {authority : GameAuthority} {name : String}
    (hName : name ∈ value.keys) (hForbidden : name ∈ authority.forbidden) :
    decodeGameView value authority = none := by
  have hExposed : value.exposes authority.forbidden = true :=
    List.any_eq_true.mpr ⟨name, hName, List.contains_iff_mem.mpr hForbidden⟩
  rw [decodeGameView, assertPrivacy, hExposed]
  rfl

/-- A name of the game in a response that the authority forbids. -/
theorem response_refused {role : Role} {authority : GameAuthority} {name : String}
    (hName : name ∈ (role.game platform g).keys) (hForbidden : name ∈ authority.forbidden) :
    decodeGameView (role.response platform g observedAt deadline) authority = none :=
  decodeGameView_exposed (mem_keys_view observedAt deadline hName) hForbidden

theorem mem_keys_rack (owner : Seat) : "rack" ∈ ((Role.seat owner).game platform g).keys := by
  rw [Role.game, encodeSeatProjection, Document.keys]
  exact mem_fieldKeys_of_mem (by simp)

theorem mem_keys_racks : "racks" ∈ (Role.spectator.game platform g).keys := by
  rw [Role.game, encodeSpectatorProjection, Document.keys]
  exact mem_fieldKeys_of_mem (by simp)

theorem mem_keys_snapshot : "snapshot" ∈ (Role.administrator.game platform g).keys := by
  rw [Role.game, encodeAdministratorProjection, Document.keys]
  exact mem_fieldKeys_of_mem (by simp)

section

variable (hObserved : SafeInteger observedAt.toInt)
  (hDeadline : ∀ value ∈ deadline, SafeDeadline value)

include hObserved hDeadline

/-- A public view lacks what the other authorities ask for. -/
theorem public_response (h : Reachable platform g) (hName : g.state.gameId ≠ "")
    (authority : GameAuthority) :
    decodeGameView (Role.publicView.response platform g observedAt deadline) authority =
      if authority = .publicView then some (viewFor g observedAt deadline .publicView .publicView)
      else none := by
  have hClean := (safe_publicProjection g.publicProjection).clean authority
  have hProjection := publicProjection_encode h hName
  rw [Role.response, Role.game, encodePublicProjection]
  rw [encodePublicProjection] at hClean hProjection
  rw [decodeGameView_response hClean hObserved hDeadline]
  cases authority with
  | publicView =>
      rw [decodeGame, hProjection]
      rfl
  | seat => rfl
  | spectator => rfl

theorem seat_response (h : Reachable platform g) (hName : g.state.gameId ≠ "") (owner : Seat)
    (authority : GameAuthority) :
    decodeGameView ((Role.seat owner).response platform g observedAt deadline) authority =
      if authority = .seat then some (viewFor g observedAt deadline (.seat owner) .seat)
      else none := by
  have hProjection := publicProjection_encode h hName
  cases authority with
  | publicView => exact response_refused (mem_keys_rack owner) (by decide)
  | seat =>
      have hClean := clean_seatProjection (g.seatProjection owner)
      rw [Role.response, Role.game, encodeSeatProjection]
      rw [encodeSeatProjection] at hClean
      rw [decodeGameView_response hClean hObserved hDeadline]
      simp [decodeGame, Game.seatProjection, hProjection, rackTiles_encode, viewFor]
  | spectator =>
      have hClean := (clean_seatProjection (g.seatProjection owner)).mono
        (show ∀ name ∈ GameAuthority.spectator.forbidden, name ∈ GameAuthority.seat.forbidden by
          decide)
      rw [Role.response, Role.game, encodeSeatProjection]
      rw [encodeSeatProjection] at hClean
      rw [decodeGameView_response hClean hObserved hDeadline]
      rfl

theorem spectator_response (h : Reachable platform g) (hName : g.state.gameId ≠ "")
    (authority : GameAuthority) :
    decodeGameView (Role.spectator.response platform g observedAt deadline) authority =
      if authority = .spectator then some (viewFor g observedAt deadline .spectator .spectator)
      else none := by
  have hProjection := publicProjection_encode h hName
  cases authority with
  | publicView => exact response_refused mem_keys_racks (by decide)
  | seat => exact response_refused mem_keys_racks (by decide)
  | spectator =>
      have hClean := clean_spectatorProjection g.humanSpectatorProjection
      have hRacks : (g.racks.map encodeRack).mapM (fun rack => rackTiles (some rack)) =
          some (g.racks.map viewRack) := mapM_encode fun rack _ => rackTiles_encode rack
      have hPlayers := h.shape.players
      rw [Role.response, Role.game, encodeSpectatorProjection]
      rw [encodeSpectatorProjection] at hClean
      rw [decodeGameView_response hClean hObserved hDeadline]
      simp [decodeGame, Game.humanSpectatorProjection, hProjection, hRacks, require, hPlayers,
        viewFor]

/-- Every view of every reachable game is read with the authority of its role, and says what the
server knows. With any other authority it is refused: above it by the names it exposes, below it
by the fields it lacks. -/
theorem served_views_read (h : Reachable platform g) (hName : g.state.gameId ≠ "") (role : Role)
    (authority : GameAuthority) :
    decodeGameView (role.response platform g observedAt deadline) authority =
      if role.authority = some authority then some (viewFor g observedAt deadline role authority)
      else none := by
  cases role with
  | publicView =>
      rw [public_response hObserved hDeadline h hName authority]
      cases authority <;> rfl
  | seat owner =>
      rw [seat_response hObserved hDeadline h hName owner authority]
      cases authority <;> rfl
  | spectator =>
      rw [spectator_response hObserved hDeadline h hName authority]
      cases authority <;> rfl
  | administrator =>
      rw [response_refused mem_keys_snapshot (by cases authority <;> decide)]
      rfl

end

/-- An opened table of four, seen by a spectator at the beginning of time. -/
theorem opened_table_read : ∃ g : Game,
    decodeGameView (Role.spectator.response Engine.basicPlatform g 0 none) .spectator =
      some (viewFor g 0 none .spectator .spectator) ∧
    decodeGameView (Role.spectator.response Engine.basicPlatform g 0 none) .seat = none := by
  obtain ⟨g, hCreated⟩ := Engine.openTable_created .englishV1 (by omega : 2 ≤ 4 ∧ 4 ≤ 4)
  have hReachable : Reachable Engine.basicPlatform g :=
    System.Reachable.initial ⟨_, _, _, _, _, _, hCreated⟩
  have hName : g.state.gameId ≠ "" := by
    obtain ⟨d, -, -, rfl⟩ := Engine.createWithModeAndPlayers_eq_ok.mp hCreated
    simp [Engine.Creation.game, Engine.Creation.state]
  have hObserved : SafeInteger (0 : Int64).toInt := ⟨by decide, by decide⟩
  have hDeadline : ∀ value ∈ (none : Option TurnDeadline), SafeDeadline value := by simp
  exact ⟨g, served_views_read hObserved hDeadline hReachable hName .spectator .spectator,
    served_views_read hObserved hDeadline hReachable hName .spectator .seat⟩

end Responses

end WordArena.Web
