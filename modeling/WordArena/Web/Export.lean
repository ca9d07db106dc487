import WordArena.Engine.Resume
import WordArena.Web.Replay

/-! The public export of a replay. The browser rebuilds the artifact of a public replay from the
operator's bundle it was sent, and copies its schema number along. -/
namespace WordArena.Web

open WordArena.Engine (RulesetId Game Reachable Platform)
open WordArena.Lexicon

section Export

def exportForbidden : List String :=
  ["rack", "racks", "private_events", "capability", "capabilities", "public_capability",
    "spectator_capability", "snapshot"]

def exportLexicon (lexicon : LexiconIdentity) : Document :=
  .object [("pack_id", .string lexicon.packId), ("pack_version", .string lexicon.packVersion),
    ("format_version", encodeInt lexicon.formatVersion), ("locale", .string lexicon.locale),
    ("normalization", .object lexicon.normalization),
    ("content_sha256", .string lexicon.contentSha256)]

def exportIdentity (replay : ReplayBundle) : Document :=
  .object [("schema_version", encodeInt replay.identityVersion),
    ("ruleset_id", encodeRulesetId replay.rulesetId),
    ("content_sha256", .string replay.contentSha256)]

def exportReplay (replay : ReplayBundle) : Document :=
  .object [("schema_version", encodeInt replay.schemaVersion),
    ("ruleset_identity", exportIdentity replay), ("ruleset", .object replay.rulesetWire),
    ("lexicon", exportLexicon replay.lexicon), ("rng_algorithm", .string replay.rngAlgorithm),
    ("seed_reveal", encodeList encodeInt replay.seedReveal),
    ("events", encodeList Document.object replay.eventsWire)]

/-- The artifact around an exported replay. -/
def exportEnvelope (replay : Document) : Document :=
  .object [("schema_version", encodeInt 1), ("kind", .string "word_arena_public_replay"),
    ("replay", replay),
    ("redactions", encodeList Document.string ["private_events", "capabilities"])]

def publicReplayExport (replay : ReplayBundle) : Document := exportEnvelope (exportReplay replay)

/-- The document that the source then renders as text. -/
def serializePublicReplay (replay : ReplayBundle) : Option Document := do
  require (!(publicReplayExport replay).exposes exportForbidden)
  return publicReplayExport replay

end Export

section Decoding

def viewLexicon (pack : PackIdentity) : LexiconIdentity where
  packId := pack.packId
  packVersion := pack.packVersion
  formatVersion := pack.formatVersion.toNat
  locale := pack.locale
  normalization := [("algorithm", .string pack.normalization.algorithm),
    ("version", encodeNat pack.normalization.version.toNat),
    ("profile", .string pack.normalization.profile)]
  contentSha256 := pack.contentSha256

def viewSquare (square : Engine.BoardSquare) : Square where
  coordinate := (square.coordinate.row.toNat, square.coordinate.column.toNat)
  premium := square.premium

def viewTileDefinition (definition : Engine.TileDefinition) : TileDefinition where
  face := viewFace definition.face
  count := definition.count.toNat
  value := definition.value.toNat

def viewRuleset (ruleset : Engine.Ruleset) : Ruleset where
  schemaVersion := ruleset.schemaVersion.toNat
  id := ruleset.id
  language := ruleset.language
  lexicon := viewLexicon ruleset.lexicon
  width := ruleset.game.board.width.toNat
  height := ruleset.game.board.height.toNat
  squares := ruleset.game.board.squares.map viewSquare
  rackCapacity := ruleset.game.rackCapacity.toNat
  bingoBonus := ruleset.game.bingoBonus.toNat
  exchangeMinimum := ruleset.game.exchangeMinimum.toNat
  scorelessTurnLimit := ruleset.game.scorelessTurnLimit.toNat
  tiles := ruleset.game.tiles.map viewTileDefinition

/-- A dictionary whose names the browser takes. -/
structure Named (pack : PackIdentity) : Prop where
  packId : pack.packId ≠ ""
  packVersion : pack.packVersion ≠ ""
  locale : pack.locale ≠ ""
  contentSha256 : pack.contentSha256 ≠ ""

theorem lexiconIdentity_encode {pack : PackIdentity} (h : Named pack) :
    lexiconIdentity (some (encodePackIdentity pack)) = some (viewLexicon pack) := by
  simp [lexiconIdentity, encodePackIdentity, encodeNormalization, record, string_of_ne h.packId,
    string_of_ne h.packVersion, string_of_ne h.locale, string_of_ne h.contentSha256, viewLexicon]

theorem square_encode (entry : Engine.BoardSquare) :
    square (encodeSquare entry) = some (viewSquare entry) := by
  have hPremium : literal [("normal", Engine.Premium.normal), ("double_letter", .doubleLetter),
      ("triple_letter", .tripleLetter), ("double_word", .doubleWord),
      ("triple_word", .tripleWord)] (some (.string (premiumName entry.premium))) =
        some entry.premium := by
    cases entry.premium <;> rfl
  simp [square, encodeSquare, encodeCoordinate, coordinate, record, hPremium, viewSquare]

theorem tileDefinition_encode {definition : Engine.TileDefinition} {index : Nat}
    (h : index < 2 ^ 53) :
    tileDefinition (encodeTileDefinition definition, index) = some (viewTileDefinition definition) := by
  simp [tileDefinition, encodeTileDefinition, record,
    physicalTile_object (integer_encodeNat h) definition.face, viewTileDefinition]

theorem tiles_encode {tiles : List Engine.TileDefinition} (h : tiles.length < 2 ^ 53) :
    (tiles.map encodeTileDefinition).zipIdx.mapM tileDefinition =
      some (tiles.map viewTileDefinition) := by
  have hEach : ∀ entry ∈ tiles.zipIdx,
      tileDefinition (Prod.map encodeTileDefinition id entry) = some (viewTileDefinition entry.1) := by
    intro entry hEntry
    have hIndex : entry.2 < 2 ^ 53 := (List.snd_lt_of_mem_zipIdx hEntry).trans h
    exact tileDefinition_encode hIndex
  rw [List.zipIdx_map, mapM_encode hEach,
    show (fun entry : Engine.TileDefinition × Nat => viewTileDefinition entry.1) =
      viewTileDefinition ∘ Prod.fst from rfl, ← List.map_map, List.zipIdx_map_fst]

/-- A rule set that the browser takes. -/
structure Playable (ruleset : Engine.Ruleset) : Prop where
  width : ruleset.game.board.width = 15
  height : ruleset.game.board.height = 15
  squares : ruleset.game.board.squares.length = 225
  language : ruleset.language = .english ∨ ruleset.language = .french
  lexicon : Named ruleset.lexicon
  tiles : ruleset.game.tiles.length < 2 ^ 53

theorem playable_builtin (id : RulesetId) : Playable (Engine.Ruleset.builtin id) := by
  obtain ⟨hWidth, hHeight, hSquares⟩ := Engine.builtin_board id
  obtain ⟨_, tiles, -, hTiles, -, -, -, hGame⟩ := Engine.builtin_loaded id
  have hLanguage : (Engine.Ruleset.builtin id).language = (Engine.fixtureOf id).language := by
    have hLoad := Engine.verifyBuiltin_eq id
    simp only [Engine.Ruleset.verifyBuiltin, Engine.loadBuiltinRuleset, Fallible.bind_eq_ok,
      Fallible.pure_eq_ok] at hLoad
    obtain ⟨-, -, -, -, -, -, board, -, tiles, -, _, -, hRuleset⟩ := hLoad
    rw [← hRuleset]
  have hTileCount : tiles.length = (Engine.fixtureOf id).game.tiles.length :=
    (Fallible.mapM_eq_ok.mp hTiles).length_eq.symm
  refine ⟨hWidth, hHeight, hSquares, ?_, ?_, ?_⟩
  · rw [hLanguage]
    cases id
    · exact .inl rfl
    · exact .inr rfl
  · rw [(Engine.builtin_pins id).2]
    cases id <;> exact ⟨by decide, by decide, by decide, by decide⟩
  · rw [hGame]
    change tiles.length < 2 ^ 53
    rw [hTileCount]
    cases id <;> decide

/-- The fields of a rule set that the browser reads. -/
theorem ruleset_fields (ruleset : Engine.Ruleset) :
    field (rulesetFields ruleset) "schema_version" = some (encodeNat ruleset.schemaVersion.toNat) ∧
      field (rulesetFields ruleset) "id" = some (encodeRulesetId ruleset.id) ∧
      field (rulesetFields ruleset) "language" = some (.string (languageName ruleset.language)) ∧
      field (rulesetFields ruleset) "lexicon" = some (encodePackIdentity ruleset.lexicon) ∧
      field (rulesetFields ruleset) "game" = some (encodeGameRules ruleset.game) :=
  ⟨rfl, rfl, rfl, rfl, rfl⟩

theorem gameRules_fields (game : Engine.GameRules) :
    ∃ fields, encodeGameRules game = .object fields ∧
      field fields "board" = some (encodeBoard game.board) ∧
      field fields "rack_capacity" = some (encodeNat game.rackCapacity.toNat) ∧
      field fields "bingo_bonus" = some (encodeNat game.bingoBonus.toNat) ∧
      field fields "exchange_minimum" = some (encodeNat game.exchangeMinimum.toNat) ∧
      field fields "scoreless_turn_limit" = some (encodeNat game.scorelessTurnLimit.toNat) ∧
      field fields "tiles" = some (encodeList encodeTileDefinition game.tiles) :=
  ⟨_, rfl, rfl, rfl, rfl, rfl, rfl, rfl⟩

theorem board_fields (board : Engine.BoardDefinition) :
    ∃ fields, encodeBoard board = .object fields ∧
      field fields "width" = some (encodeNat board.width.toNat) ∧
      field fields "height" = some (encodeNat board.height.toNat) ∧
      field fields "squares" = some (encodeList encodeSquare board.squares) :=
  ⟨_, rfl, rfl, rfl, rfl⟩

theorem rulesetData_encode {ruleset : Engine.Ruleset} (h : Playable ruleset) :
    rulesetData (some (encodeRuleset ruleset)) = some (viewRuleset ruleset) := by
  obtain ⟨hSchema, hId, hLanguage, hLexicon, hGame⟩ := ruleset_fields ruleset
  obtain ⟨rules, hRules, hBoard, hRack, hBingo, hExchange, hScoreless, hTiles⟩ :=
    gameRules_fields ruleset.game
  obtain ⟨board, hBoardFields, hWidth, hHeight, hSquares⟩ := board_fields ruleset.game.board
  have hLanguageName : literal [("english", Engine.Language.english), ("french", .french)]
      (some (.string (languageName ruleset.language))) = some ruleset.language := by
    rcases h.language with hEnglish | hFrench
    · rw [hEnglish]
      rfl
    · rw [hFrench]
      rfl
  have hEach : (ruleset.game.board.squares.map encodeSquare).mapM square =
      some (ruleset.game.board.squares.map viewSquare) := mapM_encode fun entry _ => square_encode entry
  rw [rulesetData]
  simp only [↓bind_eq_some]
  exact ⟨rulesetFields ruleset, rfl, rules, by rw [hGame, hRules]; rfl, board,
    by rw [hBoard, hBoardFields]; rfl, _, by rw [hWidth, integer_u8], _,
    by rw [hHeight, integer_u8], _, by rw [hSquares, array_encodeList], _, hEach, (),
    by simp [require, h.width, h.height, h.squares], _, by rw [hTiles, array_encodeList], _,
    tiles_encode h.tiles, _, by rw [hSchema, integer_u32], _, by rw [hId, rulesetId_encode], _,
    by rw [hLanguage, hLanguageName], _, by rw [hLexicon, lexiconIdentity_encode h.lexicon], _,
    by rw [hRack, integer_u8], _, by rw [hBingo, integer_u16], _, by rw [hExchange, integer_u16], _,
    by rw [hScoreless, integer_u8], rfl⟩

/-- A replay as the browser keeps it. -/
def viewReplay (observedAt : Int64) (bundle : Engine.ReplayBundle) : ReplayBundle where
  schemaVersion := replaySchemaVersion
  observedAt := observedAt.toInt
  identityVersion := bundle.rulesetIdentity.schemaVersion.toNat
  rulesetId := bundle.rulesetIdentity.rulesetId
  contentSha256 := bundle.rulesetIdentity.contentSha256
  ruleset := viewRuleset bundle.ruleset
  rulesetWire := rulesetFields bundle.ruleset
  lexicon := viewLexicon bundle.lexicon
  rngAlgorithm := "xoshiro256-star-star-v1"
  seedReveal := bundle.seedReveal.toList.map fun byte => byte.toNat
  events := bundle.events.map viewEvent
  eventsWire := bundle.events.map eventFields
  privateEvents := bundle.privateEvents.map privateEventFields

theorem seedByte_encode (byte : UInt8) : seedByte (encodeNat byte.toNat) = some (byte.toNat : Int) := by
  have hByte := byte.toNat_lt
  have hHigh : (byte.toNat : Int) ≤ 255 := by omega
  simp [seedByte, require, hHigh]

variable {platform : Platform} {g : Game} {observedAt : Int64} {bundle : Engine.ReplayBundle}

/-- Events are numbered by their place. -/
theorem reachable_numbered (h : Reachable platform g) :
    g.events.map (fun event => event.sequence.toNat) = List.range (g.state.version.toNat + 1) := by
  refine Engine.Reachable.invariant (fun g =>
    g.events.map (fun event => event.sequence.toNat) = List.range (g.state.version.toNat + 1)) ?_ ?_ h
  · intro d gameId ruleset seed mode playerCount _
    rfl
  · intro g player action g' event _ hNumbered hAccepted
    rw [hAccepted.recorded.2.1, List.map_append, hNumbered, List.map_singleton, hAccepted.recorded.1,
      hAccepted.version, ← List.range_succ]

theorem contiguous_encode (h : Reachable platform g) :
    (g.events.map viewEvent).zipIdx.all (fun entry => entry.1.sequence == entry.2) = true := by
  refine List.all_eq_true.mpr fun entry hEntry => ?_
  obtain ⟨event, i⟩ := entry
  have hGet : (g.events.map viewEvent)[i]? = some event := List.mem_zipIdx_iff_getElem?.mp hEntry
  have hNumbered := congrArg (fun numbers => numbers[i]?) (reachable_numbered h)
  rw [List.getElem?_map, Option.map_eq_some_iff] at hGet
  obtain ⟨old, hOld, rfl⟩ := hGet
  have hLength : i < g.state.version.toNat + 1 := by
    by_contra hFar
    simp [hOld, List.getElem?_eq_none (show (List.range (g.state.version.toNat + 1)).length ≤ i by
      simpa using hFar)] at hNumbered
  simp only [List.getElem?_map, hOld, Option.map_some, List.getElem?_range hLength,
    Option.some.injEq] at hNumbered
  simp [viewEvent, hNumbered]

theorem replay_fields (bundle : Engine.ReplayBundle) :
    ∃ fields, encodeReplay bundle = .object fields ∧
      field fields "schema_version" = some (encodeNat bundle.schemaVersion.toNat) ∧
      field fields "ruleset_identity" = some (encodeRulesetIdentity bundle.rulesetIdentity) ∧
      field fields "ruleset" = some (encodeRuleset bundle.ruleset) ∧
      field fields "lexicon" = some (encodePackIdentity bundle.lexicon) ∧
      field fields "rng_algorithm" = some (encodeRngAlgorithm bundle.rngAlgorithm) ∧
      field fields "seed_reveal" = some (encodeSeed bundle.seedReveal) ∧
      field fields "events" = some (encodeList encodeEvent bundle.events) ∧
      field fields "private_events" = some (encodeList encodePrivateEvent bundle.privateEvents) :=
  ⟨_, rfl, rfl, rfl, rfl, rfl, rfl, rfl, rfl, rfl⟩

/-- The names of a reachable game's rules. -/
theorem reachable_named (h : Reachable platform g) :
    Playable g.ruleset ∧ Named g.state.lexicon ∧ (g.ruleset.identity platform).contentSha256 ≠ "" := by
  have hPlayable : Playable g.ruleset := by
    rw [h.shape.builtin]
    exact playable_builtin g.ruleset.id
  have hLexicon : g.state.lexicon = g.ruleset.lexicon :=
    h.identified.lexicon.trans h.shape.lexicon.symm
  refine ⟨hPlayable, hLexicon ▸ hPlayable.lexicon, fun hEmpty => ?_⟩
  have hSize := Bytes.hexLower_utf8ByteSize
    (platform.sha256 (Engine.rulesetBytes g.ruleset)).toList
  rw [show Bytes.hexLower (platform.sha256 (Engine.rulesetBytes g.ruleset)).toList = "" from hEmpty]
    at hSize
  simp at hSize

/-- Every history of a game is taken by the browser. -/
theorem decodeReplayBundle_encode (h : Reachable platform g) (hObserved : SafeInteger observedAt.toInt)
    {privateEvents : List Engine.PrivateGameEvent}
    (hBundle : bundle = g.history platform privateEvents) :
    decodeReplayBundle (encodeEnvelope (encodeReplayView observedAt bundle)) =
      some (viewReplay observedAt bundle) := by
  subst hBundle
  obtain ⟨hPlayable, hNamed, hDigest⟩ := reachable_named h
  obtain ⟨fields, hReplay, hSchema, hIdentity, hRuleset, hLexicon, hRng, hSeed, hEvents, hPrivate⟩ :=
    replay_fields (g.history platform privateEvents)
  have hSeedBytes : (g.seed.bytes.toList.map fun byte => encodeNat byte.toNat).mapM seedByte =
      some (g.seed.bytes.toList.map fun byte => (byte.toNat : Int)) :=
    mapM_encode fun byte _ => seedByte_encode byte
  have hEach : (g.events.map encodeEvent).mapM gameEvent = some (g.events.map viewEvent) :=
    mapM_encode fun event hEvent => gameEvent_encode (reachable_sequences h event hEvent)
  have hWire : (g.events.map encodeEvent).mapM record = some (g.events.map eventFields) :=
    mapM_encode fun event _ => rfl
  have hPrivateWire : (privateEvents.map encodePrivateEvent).mapM record =
      some (privateEvents.map privateEventFields) := mapM_encode fun event _ => rfl
  have hRngName : literal [("xoshiro256-star-star-v1", "xoshiro256-star-star-v1")]
      (some (encodeRngAlgorithm g.state.rngAlgorithm)) = some "xoshiro256-star-star-v1" := by
    cases g.state.rngAlgorithm
    rfl
  rw [decodeReplayBundle]
  simp only [↓bind_eq_some]
  exact ⟨_, rfl, _, rfl, fields, by
      rw [show field _ "replay" = some (encodeReplay (g.history platform privateEvents)) from rfl,
        hReplay]
      rfl,
    _, by rw [hSchema]; rfl, (), rfl, identityFields (g.ruleset.identity platform),
    by rw [hIdentity]; rfl, _, by rw [hLexicon]; exact lexiconIdentity_encode hNamed, _,
    by rw [hSeed]; rfl, _, hSeedBytes, (), by simp [require], _,
    by rw [hEvents, array_encodeList]; rfl, _, hEach, _, by rw [hEvents, array_encodeList]; rfl, _,
    hWire, (), by rw [require, contiguous_encode h]; rfl, _,
    integer_encodeInt hObserved.1 hObserved.2, _, integer_u32 g.ruleset.schemaVersion, _,
    rulesetId_encode g.ruleset.id, _, string_of_ne hDigest, _,
    by rw [hRuleset]; exact rulesetData_encode hPlayable, _, by rw [hRuleset]; rfl, _,
    by rw [hRng]; exact hRngName, _, by rw [hPrivate, array_encodeList]; rfl, _, hPrivateWire, rfl⟩

end Decoding

section Agreement

variable {platform : Platform} {g : Game} {observedAt : Int64} {bundle : Engine.ReplayBundle}

/-- The public bundle under the schema number of the complete one. -/
def renumbered (bundle : Engine.ReplayBundle) : Engine.PublicReplayBundle :=
  { Engine.PublicReplayBundle.ofReplayBundle bundle with schemaVersion := bundle.schemaVersion }

theorem exportReplay_view (hSchema : bundle.schemaVersion = Engine.replaySchemaVersion) :
    exportReplay (viewReplay observedAt bundle) = encodePublicReplay (renumbered bundle) := by
  have hSeed : encodeList encodeInt (viewReplay observedAt bundle).seedReveal =
      encodeSeed bundle.seedReveal := by
    rw [encodeList, viewReplay, List.map_map, encodeSeed, encodeList]
    rfl
  have hEvents : encodeList Document.object (viewReplay observedAt bundle).eventsWire =
      encodeList encodeEvent bundle.events := by
    rw [encodeList, viewReplay, List.map_map, encodeList]
    rfl
  have hRng : Document.string "xoshiro256-star-star-v1" =
      encodeRngAlgorithm bundle.rngAlgorithm := by
    cases bundle.rngAlgorithm
    rfl
  have hNumber : encodeInt (viewReplay observedAt bundle).schemaVersion =
      encodeNat bundle.schemaVersion.toNat := by
    rw [hSchema]
    rfl
  rw [exportReplay, hSeed, hEvents, hNumber]
  change Document.object [_, _, _, _, ("rng_algorithm", Document.string "xoshiro256-star-star-v1"),
    _, _] = _
  rw [hRng]
  rfl

@[simp] theorem safe_seed (seed : Vector UInt8 32) : (encodeSeed seed).Safe :=
  safe_encodeList fun _ => safe_encodeNat _

theorem safe_publicReplay (bundle : Engine.PublicReplayBundle) : (encodePublicReplay bundle).Safe :=
  safe_object (by simp [guarded]) (by simp)

theorem safe_export {replay : Document} (h : replay.Safe) : (exportEnvelope replay).Safe :=
  safe_object (by simp [guarded]) (by simp [h])

theorem serializePublicReplay_view (hSchema : bundle.schemaVersion = Engine.replaySchemaVersion) :
    serializePublicReplay (viewReplay observedAt bundle) =
      some (exportEnvelope (encodePublicReplay (renumbered bundle))) := by
  have hExport : publicReplayExport (viewReplay observedAt bundle) =
      exportEnvelope (encodePublicReplay (renumbered bundle)) :=
    congrArg exportEnvelope (exportReplay_view hSchema)
  have hSafe := safe_export (safe_publicReplay (renumbered bundle))
  have hClean : (exportEnvelope (encodePublicReplay (renumbered bundle))).Clean exportForbidden :=
    Document.Clean.mono hSafe (by decide)
  rw [serializePublicReplay, hExport, hClean.exposes]
  rfl

/-- An artifact says its schema number. -/
theorem exportEnvelope_schema {left right : Engine.PublicReplayBundle}
    (h : exportEnvelope (encodePublicReplay left) = exportEnvelope (encodePublicReplay right)) :
    left.schemaVersion = right.schemaVersion := by
  simp only [exportEnvelope, encodePublicReplay, Document.object.injEq, List.cons.injEq,
    Prod.mk.injEq, encodeNat, Document.number.injEq, Option.some.injEq, true_and] at h
  exact UInt32.toNat_inj.mp (by omega)

theorem replayPublic_schema {artifact : Engine.PublicReplayBundle}
    (h : artifact.schemaVersion ≠ Engine.publicReplaySchemaVersion)
    (lexicon : Option Engine.WordValidator) :
    Game.replayPublic platform artifact lexicon = .error (.unsupportedSchema "public replay"
      artifact.schemaVersion Engine.publicReplaySchemaVersion) := by
  simp [Game.replayPublic, Fallible.bind_eq_error, h]

/-- The browser takes the replay of every finished game and exports all of its public bundle, and
nothing private, but under the schema number of the complete bundle. The engine accepts the public
bundle itself, and refuses whatever the exported artifact is read as for its number alone. -/
theorem exported_replay_refused (h : Reachable platform g)
    (hBundle : g.replayBundle platform = some bundle) (hObserved : SafeInteger observedAt.toInt) :
    ∃ replay, decodeReplayBundle (encodeEnvelope (encodeReplayView observedAt bundle)) = some replay ∧
      serializePublicReplay replay =
        some (exportEnvelope (encodePublicReplay (renumbered bundle))) ∧
      Game.replayPublic platform (.ofReplayBundle bundle) (some g.lexicon) = .ok g ∧
      ∀ artifact, serializePublicReplay replay = some (exportEnvelope (encodePublicReplay artifact)) →
        ∀ lexicon, Game.replayPublic platform artifact lexicon =
          .error (.unsupportedSchema "public replay" 3 1) := by
  have hHistory : bundle = g.history platform g.privateEvents := by
    rw [Game.replayBundle] at hBundle
    split at hBundle
    · exact (Option.some.inj hBundle).symm
    · cases hBundle
  have hSchema : bundle.schemaVersion = Engine.replaySchemaVersion := by
    rw [hHistory]
    rfl
  have hExport : serializePublicReplay (viewReplay observedAt bundle) = _ :=
    serializePublicReplay_view hSchema
  refine ⟨viewReplay observedAt bundle, decodeReplayBundle_encode h hObserved hHistory, hExport,
    Engine.replayPublic_iff_history.mpr ⟨h, rfl, congrArg _ hHistory⟩, fun artifact hArtifact => ?_⟩
  have hNumber : artifact.schemaVersion = 3 :=
    (exportEnvelope_schema (Option.some.inj (hArtifact.symm.trans hExport))).trans hSchema
  intro lexicon
  rw [replayPublic_schema (by rw [hNumber]; decide) lexicon, hNumber]
  rfl

/-- A resigned table of two, as a spectator exports it. -/
theorem resigned_table_refused : ∃ (bundle : Engine.ReplayBundle) (replay : ReplayBundle),
    decodeReplayBundle (encodeEnvelope (encodeReplayView 0 bundle)) = some replay ∧
      ∀ lexicon, Game.replayPublic Engine.basicPlatform (renumbered bundle) lexicon =
        .error (.unsupportedSchema "public replay" 3 1) := by
  obtain ⟨s, hValid⟩ := Engine.exists_shortGame
  have hObserved : SafeInteger (0 : Int64).toInt := ⟨by decide, by decide⟩
  obtain ⟨replay, hDecoded, hExport, -, hRefused⟩ := exported_replay_refused hValid.reachable
    (Engine.Reachable.replayBundle hValid.reachable hValid.finished) hObserved
  exact ⟨_, replay, hDecoded, hRefused _ hExport⟩

end Agreement

end WordArena.Web
