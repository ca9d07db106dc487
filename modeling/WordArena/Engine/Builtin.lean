import WordArena.Engine.Ruleset

/-! The two committed rulesets. The decoded fixtures are transcribed as data;
their expansion, pin checks and structural validation follow the loader. -/
namespace WordArena.Engine

open Fallible WordArena.Lexicon

structure TileFixture where
  token : Option String
  count : UInt16
  value : UInt16
deriving DecidableEq, Repr

structure GameFixture where
  rackCapacity : UInt8
  bingoBonus : UInt16
  exchangeMinimum : UInt16
  scorelessTurnLimit : UInt8
  tiles : List TileFixture
deriving DecidableEq, Repr

structure RulesetFixture where
  schemaVersion : UInt32
  id : RulesetId
  language : Language
  packId : String
  packVersion : String
  packFormatVersion : UInt32
  locale : String
  normalizationProfile : String
  lexiconContentSha256 : String
  game : GameFixture
deriving DecidableEq, Repr

structure BoardFixture where
  schemaVersion : UInt32
  width : UInt8
  height : UInt8
  doubleLetter : List (UInt8 × UInt8)
  tripleLetter : List (UInt8 × UInt8)
  doubleWord : List (UInt8 × UInt8)
  tripleWord : List (UInt8 × UInt8)
deriving DecidableEq, Repr

def englishContentSha256 : String :=
  "27faaa6b78de526d7e7681bf1af45ce952cb0400897190c79eab7c67b278a54b"

def frenchContentSha256 : String :=
  "c926a5f1ead63711d041277c9bfb3af23f3a460bb6edf57ff66408552c495193"

/-- `rulesets/english-v1.toml`. -/
def englishFixture : RulesetFixture where
  schemaVersion := 2
  id := .englishV1
  language := .english
  packId := "word-arena-en-world-v1"
  packVersion := "1.0.0"
  packFormatVersion := 1
  locale := "en"
  normalizationProfile := "en-basic-latin-v1"
  lexiconContentSha256 := "27faaa6b78de526d7e7681bf1af45ce952cb0400897190c79eab7c67b278a54b"
  game := ⟨7, 50, 7, 6,
    [⟨some "A", 9, 1⟩, ⟨some "B", 2, 3⟩, ⟨some "C", 2, 3⟩, ⟨some "D", 4, 2⟩,
     ⟨some "E", 12, 1⟩, ⟨some "F", 2, 4⟩, ⟨some "G", 3, 2⟩, ⟨some "H", 2, 4⟩,
     ⟨some "I", 9, 1⟩, ⟨some "J", 1, 8⟩, ⟨some "K", 1, 5⟩, ⟨some "L", 4, 1⟩,
     ⟨some "M", 2, 3⟩, ⟨some "N", 6, 1⟩, ⟨some "O", 8, 1⟩, ⟨some "P", 2, 3⟩,
     ⟨some "Q", 1, 10⟩, ⟨some "R", 6, 1⟩, ⟨some "S", 4, 1⟩, ⟨some "T", 6, 1⟩,
     ⟨some "U", 4, 1⟩, ⟨some "V", 2, 4⟩, ⟨some "W", 2, 4⟩, ⟨some "X", 1, 8⟩,
     ⟨some "Y", 2, 4⟩, ⟨some "Z", 1, 10⟩, ⟨none, 2, 0⟩]⟩

/-- `rulesets/french-v1.toml`. -/
def frenchFixture : RulesetFixture where
  schemaVersion := 2
  id := .frenchV1
  language := .french
  packId := "word-arena-fr-v1"
  packVersion := "1.0.0"
  packFormatVersion := 1
  locale := "fr"
  normalizationProfile := "fr-basic-latin-fold-v1"
  lexiconContentSha256 := "c926a5f1ead63711d041277c9bfb3af23f3a460bb6edf57ff66408552c495193"
  game := ⟨7, 50, 7, 6,
    [⟨some "A", 9, 1⟩, ⟨some "B", 2, 3⟩, ⟨some "C", 2, 3⟩, ⟨some "D", 3, 2⟩,
     ⟨some "E", 15, 1⟩, ⟨some "F", 2, 4⟩, ⟨some "G", 2, 2⟩, ⟨some "H", 2, 4⟩,
     ⟨some "I", 8, 1⟩, ⟨some "J", 1, 8⟩, ⟨some "K", 1, 10⟩, ⟨some "L", 5, 1⟩,
     ⟨some "M", 3, 2⟩, ⟨some "N", 6, 1⟩, ⟨some "O", 6, 1⟩, ⟨some "P", 2, 3⟩,
     ⟨some "Q", 1, 8⟩, ⟨some "R", 6, 1⟩, ⟨some "S", 6, 1⟩, ⟨some "T", 6, 1⟩,
     ⟨some "U", 6, 1⟩, ⟨some "V", 2, 4⟩, ⟨some "W", 1, 10⟩, ⟨some "X", 1, 10⟩,
     ⟨some "Y", 1, 10⟩, ⟨some "Z", 1, 10⟩, ⟨none, 2, 0⟩]⟩

/-- `rulesets/classic-board-v1.toml`. -/
def classicBoardFixture : BoardFixture where
  schemaVersion := 1
  width := 15
  height := 15
  doubleLetter :=
    [(0, 3), (0, 11), (2, 6), (2, 8), (3, 0), (3, 7), (3, 14), (6, 2), (6, 6), (6, 8),
     (6, 12), (7, 3), (7, 11), (8, 2), (8, 6), (8, 8), (8, 12), (11, 0), (11, 7), (11, 14),
     (12, 6), (12, 8), (14, 3), (14, 11)]
  tripleLetter :=
    [(1, 5), (1, 9), (5, 1), (5, 5), (5, 9), (5, 13), (9, 1), (9, 5), (9, 9), (9, 13),
     (13, 5), (13, 9)]
  doubleWord :=
    [(1, 1), (1, 13), (2, 2), (2, 12), (3, 3), (3, 11), (4, 4), (4, 10), (7, 7), (10, 4),
     (10, 10), (11, 3), (11, 11), (12, 2), (12, 12), (13, 1), (13, 13)]
  tripleWord :=
    [(0, 0), (0, 7), (0, 14), (7, 0), (7, 14), (14, 0), (14, 7), (14, 14)]

inductive RulesetFixtureError where
  | pin (reason : String)
  | board (reason : String)
  | tileToken (error : TileTokenError)
  | definition (error : RulesetDefinitionError)
deriving DecidableEq, Repr

/-- Assign one premium to one square that is still normal. -/
def placePremium (premium : Premium) (board : BoardDefinition) (square : UInt8 × UInt8) :
    Except RulesetFixtureError BoardDefinition := do
  let coordinate : Coordinate := ⟨square.1, square.2⟩
  reject (¬ coordinate.inBounds board.width board.height)
    (.board "premium coordinate is out of bounds")
  let found ← okOr (board.squares[coordinate.index board.width]?)
    (.board "premium coordinate is missing")
  reject (found.coordinate ≠ coordinate ∨ found.premium ≠ .normal)
    (.board "premium coordinates overlap or are not canonical")
  return { board with
    squares := board.squares.set (coordinate.index board.width) { found with premium } }

/-- Row-major squares, all normal. -/
def emptySquares (width height : UInt8) : List BoardSquare :=
  (List.range height.toNat).flatMap fun row =>
    (List.range width.toNat).map fun column =>
      ⟨⟨UInt8.ofNat row, UInt8.ofNat column⟩, .normal⟩

def expandBoard (fixture : BoardFixture) : Except RulesetFixtureError BoardDefinition := do
  let board : BoardDefinition :=
    ⟨fixture.width, fixture.height, emptySquares fixture.width fixture.height⟩
  let board ← fixture.doubleLetter.foldlM (placePremium .doubleLetter) board
  let board ← fixture.tripleLetter.foldlM (placePremium .tripleLetter) board
  let board ← fixture.doubleWord.foldlM (placePremium .doubleWord) board
  fixture.tripleWord.foldlM (placePremium .tripleWord) board

def loadTile (tile : TileFixture) : Except RulesetFixtureError TileDefinition :=
  match tile.token with
  | some token => do
      let letter ← mapErr .tileToken (TileToken.new token)
      return ⟨.letter letter, tile.count, tile.value⟩
  | none => .ok ⟨.blank, tile.count, tile.value⟩

/-- Language, normalization profile and lexicon digest pinned to a V1 name. -/
def expectedLexicon : RulesetId → Language × String × String
  | .englishV1 => (.english, englishNormalizationProfile, englishContentSha256)
  | .frenchV1 => (.french, frenchNormalizationProfile, frenchContentSha256)

def loadBuiltinRuleset (fixture : RulesetFixture) (boardFixture : BoardFixture)
    (expectedId : RulesetId) : Except RulesetFixtureError Ruleset := do
  reject (fixture.id ≠ expectedId)
    (.pin "fixture ID differs from selected built-in ruleset")
  reject (fixture.language ≠ (expectedLexicon fixture.id).1 ∨
      fixture.normalizationProfile ≠ (expectedLexicon fixture.id).2.1 ∨
      fixture.lexiconContentSha256 ≠ (expectedLexicon fixture.id).2.2)
    (.pin "fixture language, normalization, or lexicon pin differs from V1")
  reject (boardFixture.schemaVersion ≠ 1) (.board "unsupported board fixture schema")
  let board ← expandBoard boardFixture
  let tiles ← fixture.game.tiles.mapM loadTile
  let ruleset : Ruleset := {
    schemaVersion := fixture.schemaVersion
    id := fixture.id
    language := fixture.language
    lexicon := {
      packId := fixture.packId
      packVersion := fixture.packVersion
      formatVersion := fixture.packFormatVersion
      locale := fixture.locale
      normalization := ⟨normalizationAlgorithm, normalizationVersion, fixture.normalizationProfile⟩
      contentSha256 := fixture.lexiconContentSha256 }
    game := {
      board
      rackCapacity := fixture.game.rackCapacity
      bingoBonus := fixture.game.bingoBonus
      exchangeMinimum := fixture.game.exchangeMinimum
      scorelessTurnLimit := fixture.game.scorelessTurnLimit
      tiles } }
  mapErr .definition ruleset.validateDefinition
  return ruleset

def fixtureOf : RulesetId → RulesetFixture
  | .englishV1 => englishFixture
  | .frenchV1 => frenchFixture

def Ruleset.verifyBuiltin (id : RulesetId) : Except RulesetFixtureError Ruleset :=
  loadBuiltinRuleset (fixtureOf id) classicBoardFixture id

/-- Both committed fixtures load, so the panics of the source constructors
are unreachable. -/
def builtinLoads (id : RulesetId) :
    { loads : Bool // (Ruleset.verifyBuiltin id).toOption.isSome = loads } :=
  ⟨true, by cases id <;> decide +kernel⟩

theorem verifyBuiltin_isSome (id : RulesetId) : (Ruleset.verifyBuiltin id).toOption.isSome = true :=
  (builtinLoads id).2

/-- `english_v1` and `french_v1`. -/
def Ruleset.builtin (id : RulesetId) : Ruleset :=
  (Ruleset.verifyBuiltin id).toOption.get (verifyBuiltin_isSome id)

/-- A ruleset is valid when its structure is and it equals its fixture. -/
def Ruleset.validate (r : Ruleset) : Except GameError Unit := do
  mapErr (fun error => .invalidRulesetDefinition r.id error.display) r.validateDefinition
  reject (r ≠ Ruleset.builtin r.id) (.invalidRuleset r.id)

def Ruleset.ensureLexicon (r : Ruleset) (context : CompatibilityContext) (actual : PackIdentity) :
    Except GameError Unit := do
  r.validate
  mapErr .incompatibleLexicon (ensureExactPack context r.lexicon actual)

theorem verifyBuiltin_eq (id : RulesetId) :
    Ruleset.verifyBuiltin id = .ok (Ruleset.builtin id) := by
  have hGet := Option.some_get (verifyBuiltin_isSome id)
  change some (Ruleset.builtin id) = _ at hGet
  cases hLoad : Ruleset.verifyBuiltin id with
  | ok r =>
      rw [hLoad] at hGet
      exact congrArg Except.ok (Option.some.inj hGet).symm
  | error e =>
      rw [hLoad] at hGet
      cases hGet

/-- What the loader establishes about a committed ruleset. Every later fact
about the constants is read from here, not from the loaded value. -/
theorem builtin_loaded (id : RulesetId) :
    ∃ board tiles, expandBoard classicBoardFixture = .ok board ∧
      (fixtureOf id).game.tiles.mapM loadTile = .ok tiles ∧
      (Ruleset.builtin id).validateDefinition = .ok () ∧
      (Ruleset.builtin id).id = (fixtureOf id).id ∧
      (Ruleset.builtin id).lexicon.normalization.profile = (fixtureOf id).normalizationProfile ∧
      (Ruleset.builtin id).game =
        { board, tiles
          rackCapacity := (fixtureOf id).game.rackCapacity
          bingoBonus := (fixtureOf id).game.bingoBonus
          exchangeMinimum := (fixtureOf id).game.exchangeMinimum
          scorelessTurnLimit := (fixtureOf id).game.scorelessTurnLimit } := by
  have hLoad := verifyBuiltin_eq id
  simp only [Ruleset.verifyBuiltin, loadBuiltinRuleset, bind_eq_ok, pure_eq_ok, mapErr_eq_ok] at hLoad
  obtain ⟨-, -, -, -, -, -, board, hBoard, tiles, hTiles, _, hValid, hRuleset⟩ := hLoad
  rw [← hRuleset]
  exact ⟨board, tiles, hBoard, hTiles, hValid, rfl, rfl, rfl⟩

/-- The dictionary a committed ruleset pins. -/
theorem builtin_pins (id : RulesetId) :
    (Ruleset.builtin id).schemaVersion = (fixtureOf id).schemaVersion ∧
      (Ruleset.builtin id).lexicon = {
        packId := (fixtureOf id).packId
        packVersion := (fixtureOf id).packVersion
        formatVersion := (fixtureOf id).packFormatVersion
        locale := (fixtureOf id).locale
        normalization :=
          ⟨normalizationAlgorithm, normalizationVersion, (fixtureOf id).normalizationProfile⟩
        contentSha256 := (fixtureOf id).lexiconContentSha256 } := by
  have hLoad := verifyBuiltin_eq id
  simp only [Ruleset.verifyBuiltin, loadBuiltinRuleset, bind_eq_ok, pure_eq_ok] at hLoad
  obtain ⟨-, -, -, -, -, -, board, -, tiles, -, _, -, hRuleset⟩ := hLoad
  rw [← hRuleset]
  exact ⟨rfl, rfl⟩

theorem builtin_id (id : RulesetId) : (Ruleset.builtin id).id = id := by
  obtain ⟨_, _, -, -, -, hId, -⟩ := builtin_loaded id
  rw [hId]
  cases id <;> rfl

theorem validate_eq_ok {r : Ruleset} {u : Unit} :
    r.validate = .ok u ↔ r = Ruleset.builtin r.id := by
  simp only [Ruleset.validate, bind_eq_ok, mapErr_eq_ok, reject_eq_ok, not_not]
  constructor
  · rintro ⟨-, -, h⟩
    exact h
  · intro h
    obtain ⟨_, _, -, -, hValid, -⟩ := builtin_loaded r.id
    exact ⟨(), by rw [h]; exact hValid, h⟩

theorem ensureLexicon_eq_ok {r : Ruleset} {context : CompatibilityContext}
    {actual : PackIdentity} {u : Unit} :
    r.ensureLexicon context actual = .ok u ↔ r = Ruleset.builtin r.id ∧ r.lexicon = actual := by
  simp [Ruleset.ensureLexicon, bind_eq_ok, validate_eq_ok]

/-! Constants of the committed rulesets. -/

theorem builtin_limits (id : RulesetId) :
    (Ruleset.builtin id).game.rackCapacity = 7 ∧ (Ruleset.builtin id).game.bingoBonus = 50 ∧
      (Ruleset.builtin id).game.exchangeMinimum = 7 ∧
      (Ruleset.builtin id).game.scorelessTurnLimit = 6 := by
  obtain ⟨_, _, -, -, -, -, -, hGame⟩ := builtin_loaded id
  rw [hGame]
  cases id <;> exact ⟨rfl, rfl, rfl, rfl⟩

theorem builtin_profile (id : RulesetId) :
    Supported (Ruleset.builtin id).lexicon.normalization.profile := by
  obtain ⟨_, _, -, -, -, -, hProfile, -⟩ := builtin_loaded id
  rw [hProfile]
  cases id
  · exact .inl rfl
  · exact .inr (.inl rfl)

theorem loadTile_fields {tile : TileFixture} {definition : TileDefinition}
    (h : loadTile tile = .ok definition) :
    definition.count = tile.count ∧ definition.value = tile.value := by
  unfold loadTile at h
  split at h
  · obtain ⟨_, -, h⟩ := bind_eq_ok.mp h
    cases pure_eq_ok.mp h
    exact ⟨rfl, rfl⟩
  · cases h
    exact ⟨rfl, rfl⟩

theorem loadTiles_fields {fixtures : List TileFixture} {definitions : List TileDefinition}
    (h : List.Forall₂ (fun tile definition => loadTile tile = .ok definition) fixtures definitions) :
    definitions.map (fun t => (t.count, t.value)) = fixtures.map (fun t => (t.count, t.value)) := by
  induction h with
  | nil => rfl
  | cons hHead _ ih =>
      obtain ⟨hCount, hValue⟩ := loadTile_fields hHead
      simp [hCount, hValue, ih]

/-- Counts and values of the loaded distribution are those of its fixture. -/
theorem builtin_tiles (id : RulesetId) :
    (Ruleset.builtin id).game.tiles.map (fun t => (t.count, t.value)) =
      (fixtureOf id).game.tiles.map (fun t => (t.count, t.value)) := by
  obtain ⟨_, tiles, -, hTiles, -, -, -, hGame⟩ := builtin_loaded id
  rw [hGame]
  exact loadTiles_fields (mapM_eq_ok.mp hTiles)

theorem builtin_totalTiles (id : RulesetId) :
    (Ruleset.builtin id).game.totalTiles = match id with
      | .englishV1 => 100
      | .frenchV1 => 102 := by
  have h := congrArg (fun pairs => (pairs.map (fun p : UInt16 × UInt16 => p.1.toNat)).sum)
    (builtin_tiles id)
  simp only [List.map_map, Function.comp_def] at h
  rw [GameRules.totalTiles, h]
  cases id <;> rfl

theorem builtin_totalTiles_bounds (id : RulesetId) :
    100 ≤ (Ruleset.builtin id).game.totalTiles ∧ (Ruleset.builtin id).game.totalTiles ≤ 102 := by
  rw [builtin_totalTiles]
  cases id <;> simp

/-- No letter is worth more than ten points. -/
theorem builtin_letterValue_le {id : RulesetId} {token : String} {value : UInt16}
    (h : (Ruleset.builtin id).letterValue token = some value) : value.toNat ≤ 10 := by
  obtain ⟨definition, hFind, rfl⟩ := Option.map_eq_some_iff.mp h
  have hMem : (definition.count, definition.value) ∈
      (fixtureOf id).game.tiles.map (fun t => (t.count, t.value)) := by
    rw [← builtin_tiles]
    exact List.mem_map_of_mem (List.mem_of_find?_eq_some hFind)
  have hAll : ((fixtureOf id).game.tiles.map fun t => (t.count, t.value)).all
      (fun p => Nat.ble p.2.toNat 10) = true := by
    cases id <;> rfl
  exact Nat.le_of_ble_eq_true (List.all_eq_true.mp hAll _ hMem)

theorem placePremium_shape {premium : Premium} {board next : BoardDefinition}
    {square : UInt8 × UInt8} (h : placePremium premium board square = .ok next) :
    next.width = board.width ∧ next.height = board.height ∧
      next.squares.length = board.squares.length := by
  simp only [placePremium, bind_eq_ok, pure_eq_ok] at h
  obtain ⟨-, -, -, -, -, -, rfl⟩ := h
  exact ⟨rfl, rfl, List.length_set⟩

theorem placePremiums_shape {premium : Premium} {board next : BoardDefinition}
    {squares : List (UInt8 × UInt8)} (h : squares.foldlM (placePremium premium) board = .ok next) :
    next.width = board.width ∧ next.height = board.height ∧
      next.squares.length = board.squares.length := by
  refine foldlM_invariant (fun b => b.width = board.width ∧ b.height = board.height ∧
    b.squares.length = board.squares.length) h ⟨rfl, rfl, rfl⟩ ?_
  intro s x s' _ hInv hStep
  obtain ⟨hWidth, hHeight, hLength⟩ := placePremium_shape hStep
  exact ⟨hWidth.trans hInv.1, hHeight.trans hInv.2.1, hLength.trans hInv.2.2⟩

/-- The expanded board is fifteen by fifteen and has no missing square. -/
theorem builtin_board (id : RulesetId) :
    (Ruleset.builtin id).game.board.width = 15 ∧ (Ruleset.builtin id).game.board.height = 15 ∧
      (Ruleset.builtin id).game.board.squares.length = 225 := by
  obtain ⟨board, _, hBoard, -, -, -, -, hGame⟩ := builtin_loaded id
  rw [hGame]
  simp only [expandBoard, bind_eq_ok] at hBoard
  obtain ⟨b₁, h₁, b₂, h₂, b₃, h₃, h₄⟩ := hBoard
  have s₁ := placePremiums_shape h₁
  have s₂ := placePremiums_shape h₂
  have s₃ := placePremiums_shape h₃
  have s₄ := placePremiums_shape h₄
  refine ⟨s₄.1.trans (s₃.1.trans (s₂.1.trans s₁.1)),
    s₄.2.1.trans (s₃.2.1.trans (s₂.2.1.trans s₁.2.1)),
    s₄.2.2.trans (s₃.2.2.trans (s₂.2.2.trans (s₁.2.2.trans ?_)))⟩
  rfl

end WordArena.Engine
