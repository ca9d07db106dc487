import WordArena.Library.Sha256
import WordArena.Engine.Shape

/-! Creation succeeds for every built-in ruleset, its own dictionary and two to
four players. One concrete game with words on its board is played out. -/
namespace WordArena.Engine

open Fallible WordArena.Lexicon

section

variable {platform : Platform} {ruleset : Ruleset} {seed : GameSeed} {seats : List Seat}
  {playerCount : Nat} (hBuiltin : ruleset = Ruleset.builtin ruleset.id)
  (hSeats : Seat.active playerCount = some seats)

include hBuiltin hSeats

theorem builtin_deal_fits : ruleset.game.rackCapacity.toNat = 7 ∧
    7 * seats.length ≤ 28 ∧ 100 ≤ (physicalTiles ruleset.game).length ∧
    (physicalTiles ruleset.game).length ≤ 102 := by
  have hTiles := builtin_totalTiles_bounds ruleset.id
  have hCapacity := (builtin_limits ruleset.id).1
  obtain ⟨⟨-, hHigh⟩, -⟩ := Seat.active_eq_some.mp hSeats
  rw [← hBuiltin] at hTiles hCapacity
  rw [physicalTiles_length, Seat.active_length hSeats, hCapacity]
  refine ⟨rfl, ?_, hTiles⟩
  omega

/-- Every seat is dealt a full rack. -/
theorem initialDeal_rack {rack : Rack}
    (h : rack ∈ (initialDeal platform ruleset seed seats playerCount).racks) :
    rack.tiles.length = ruleset.game.rackCapacity.toNat := by
  obtain ⟨hCapacity, hNeeded, hTiles, -⟩ := builtin_deal_fits hBuiltin hSeats
  have hShuffled := (DeterministicRng.shuffle_perm (DeterministicRng.new platform seed)
    (physicalTiles ruleset.game)).length_eq
  obtain ⟨⟨hLow, hHigh⟩, -⟩ := Seat.active_eq_some.mp hSeats
  obtain ⟨i, hi, rfl⟩ := List.mem_iff_getElem.mp h
  have hIndex : i < playerCount := by
    have hLength : (initialDeal platform ruleset seed seats playerCount).racks.length =
        playerCount := (length_foldl_dealSeat ..).trans List.length_replicate
    omega
  have hFour : i < 4 := by omega
  obtain ⟨seat, rfl⟩ := Seat.exists_index hFour
  have hDealt := rack_foldl_dealSeat ruleset.game.rackCapacity.toNat
    (⟨((DeterministicRng.new platform seed).shuffle (physicalTiles ruleset.game)).1⟩,
      List.replicate playerCount ⟨[]⟩) seat (Seat.active_nodup hSeats)
    (fun other hOther => by
      rw [List.length_replicate]
      exact (Seat.mem_active hSeats).mp hOther)
    (by simp only [hShuffled, hCapacity]; omega)
  rw [if_pos ((Seat.mem_active hSeats).mpr hIndex)] at hDealt
  have hEmpty : ((List.replicate playerCount (⟨[]⟩ : Rack)).getD seat.index ⟨[]⟩).tiles.length = 0 := by
    simp [hIndex]
  rw [hEmpty, Nat.zero_add, List.getD_eq_getElem?_getD] at hDealt
  change ((initialDeal platform ruleset seed seats playerCount).racks[seat.index]?.getD
    ⟨[]⟩).tiles.length = _ at hDealt
  rwa [List.getElem?_eq_getElem hi, Option.getD_some] at hDealt

end

/-- A deal leaves most tiles in the bag. -/
theorem Creation.Valid.bag_length {d : Creation} {platform : Platform} {ruleset : Ruleset}
    {seed : GameSeed} {playerCount : Nat} (h : d.Valid platform ruleset seed playerCount) :
    72 ≤ d.deal.bag.tiles.length := by
  obtain ⟨-, seats, hSeats, hDeal⟩ := prepareInitialDealForPlayers_eq_ok.mp h.deal
  obtain ⟨hCapacity, hNeeded, hTiles, -⟩ := builtin_deal_fits h.builtin hSeats
  have hShuffled := (DeterministicRng.shuffle_perm (DeterministicRng.new platform seed)
    (physicalTiles ruleset.game)).length_eq
  rw [hDeal, initialDeal]
  simp only [bag_foldl_dealSeat, hShuffled, hCapacity]
  omega

/-- What is created, before it is checked. -/
def freshDeal (platform : Platform) (validator : WordValidator) (ruleset : Ruleset)
    (seed : GameSeed) (seats : List Seat) (playerCount : Nat) : Creation :=
  let deal := initialDeal platform ruleset seed seats playerCount
  ⟨validator, deal, List.replicate deal.racks.length 7, UInt16.ofNat deal.bag.tiles.length⟩

/-- The public counts of a fresh deal always fit. -/
theorem create_eq (platform : Platform) (gameId : String) {ruleset : Ruleset}
    {validator : WordValidator} (seed : GameSeed) (mode : GameMode) {playerCount : Nat}
    {seats : List Seat} (hBuiltin : ruleset = Ruleset.builtin ruleset.id)
    (hLexicon : ruleset.lexicon = validator.identity) (hSeats : Seat.active playerCount = some seats) :
    Game.createWithModeAndPlayers platform gameId ruleset (some validator) seed mode playerCount =
      .ok ((freshDeal platform validator ruleset seed seats playerCount).game platform gameId ruleset
        seed mode playerCount) := by
  obtain ⟨hCapacity, -, -, hTiles⟩ := builtin_deal_fits hBuiltin hSeats
  have hPerm := (@initialDeal_perm platform ruleset seed _ _ hSeats).length_eq
  have hCounts : rackCounts (initialDeal platform ruleset seed seats playerCount).racks =
      .ok (List.replicate (initialDeal platform ruleset seed seats playerCount).racks.length 7) := by
    rw [rackCounts_eq_ok, List.map_replicate]
    refine (List.eq_replicate_iff.mpr ⟨List.length_map _, fun n hn => ?_⟩).symm
    obtain ⟨rack, hRack, rfl⟩ := List.mem_map.mp hn
    rw [initialDeal_rack hBuiltin hSeats hRack, hCapacity]
    rfl
  have hBag : (initialDeal platform ruleset seed seats playerCount).bag.tiles.length < 2 ^ 16 := by
    rw [List.length_append] at hPerm
    omega
  refine createWithModeAndPlayers_eq_ok.mpr
    ⟨freshDeal platform validator ruleset seed seats playerCount, rfl,
      ⟨hBuiltin, hLexicon, ?_, hCounts, UInt16.toNat_ofNat_of_lt' hBag⟩, rfl⟩
  exact prepareInitialDealForPlayers_eq_ok.mpr ⟨hBuiltin, seats, hSeats, rfl⟩

theorem create_succeeds (platform : Platform) (gameId : String) {ruleset : Ruleset}
    {validator : WordValidator} (seed : GameSeed) (mode : GameMode) {playerCount : Nat}
    (hBuiltin : ruleset = Ruleset.builtin ruleset.id)
    (hLexicon : ruleset.lexicon = validator.identity)
    (hPlayers : 2 ≤ playerCount ∧ playerCount ≤ 4) :
    ∃ g, Game.createWithModeAndPlayers platform gameId ruleset (some validator) seed mode
      playerCount = .ok g :=
  ⟨_, create_eq platform gameId seed mode hBuiltin hLexicon
    (Seat.active_eq_some.mpr ⟨hPlayers, rfl⟩)⟩

/-! A concrete platform and a concrete table. -/

/-- The basic Latin part of the character tables. -/
def basicTables : CharacterTables where
  toUppercase c := [c.toUpper]
  nfd c := [c]
  isCombiningMark _ := false
  toUppercase_upper _ h := congrArg (fun c => [c]) (Ascii.toUpper_of_isUpper h)
  nfd_upper _ _ := rfl
  isCombiningMark_upper _ _ := rfl

def basicPlatform : Platform := ⟨basicTables, Sha256.digest⟩

/-- The platform as it is evaluated. -/
theorem basicPlatform_eq : basicPlatform = ⟨basicTables, Sha256.evaluate⟩ := by
  rw [basicPlatform, Sha256.digest_eq_evaluate]

/-- A dictionary that knows every key. -/
def openValidator (id : RulesetId) : WordValidator := ⟨(Ruleset.builtin id).lexicon, fun _ => true⟩

def zeroSeed : GameSeed := ⟨Vector.replicate 32 0⟩

theorem openTable_created (id : RulesetId) {playerCount : Nat}
    (hPlayers : 2 ≤ playerCount ∧ playerCount ≤ 4) :
    ∃ g, Game.createWithModeAndPlayers basicPlatform "table" (Ruleset.builtin id)
      (some (openValidator id)) zeroSeed .practice playerCount = .ok g :=
  create_succeeds basicPlatform "table" zeroSeed .practice (by rw [builtin_id]) rfl hPlayers

/-- A dictionary of three words. -/
def hookValidator : WordValidator :=
  ⟨(Ruleset.builtin .englishV1).lexicon, fun key => ["BAKE", "BAKES", "SAID"].contains key.value⟩

def hookTable : Except GameError Game :=
  Game.createWithModeAndPlayers basicPlatform "hook" (Ruleset.builtin .englishV1)
    (some hookValidator) zeroSeed .practice 2

/-- A pass out of turn, a first word across and a word down that extends it. -/
def hookCalls : List Call :=
  [⟨.two, 0, .pass⟩,
    ⟨.one, 0, .place [⟨⟨10⟩, ⟨7, 7⟩, ⟨"B", false⟩⟩, ⟨⟨1⟩, ⟨7, 8⟩, ⟨"A", false⟩⟩,
      ⟨⟨46⟩, ⟨7, 9⟩, ⟨"K", false⟩⟩, ⟨⟨26⟩, ⟨7, 10⟩, ⟨"E", false⟩⟩]⟩,
    ⟨.two, 1, .place [⟨⟨78⟩, ⟨7, 11⟩, ⟨"S", false⟩⟩, ⟨⟨8⟩, ⟨8, 11⟩, ⟨"A", false⟩⟩,
      ⟨⟨36⟩, ⟨9, 11⟩, ⟨"I", false⟩⟩, ⟨⟨16⟩, ⟨10, 11⟩, ⟨"D", false⟩⟩]⟩]

/-- The first word of the hook table. -/
def bake : List Placement :=
  [⟨⟨10⟩, ⟨7, 7⟩, ⟨"B", false⟩⟩, ⟨⟨1⟩, ⟨7, 8⟩, ⟨"A", false⟩⟩, ⟨⟨46⟩, ⟨7, 9⟩, ⟨"K", false⟩⟩,
    ⟨⟨26⟩, ⟨7, 10⟩, ⟨"E", false⟩⟩]

/-- The table that is created, without the checks on the way. -/
def hookFresh : Game :=
  (freshDeal basicPlatform hookValidator (Ruleset.builtin .englishV1) zeroSeed [.one, .two] 2).game
    basicPlatform "hook" (Ruleset.builtin .englishV1) zeroSeed .practice 2

theorem identity_mk (identity : PackIdentity) (isValid : NormalizedKey → Bool) :
    (WordValidator.mk identity isValid).identity = identity := rfl

theorem hookTable_eq : hookTable = .ok hookFresh := by
  have hLexicon : (Ruleset.builtin .englishV1).lexicon = hookValidator.identity := by
    unfold hookValidator
    exact (identity_mk _ _).symm
  have hSeats : Seat.active 2 = some [.one, .two] := rfl
  unfold hookTable hookFresh
  exact create_eq basicPlatform "hook" zeroSeed .practice (by rw [builtin_id]) hLexicon hSeats

/-- A committed ruleset without the checks of its loader. -/
def uncheckedBuiltin (id : RulesetId) : Ruleset where
  schemaVersion := (fixtureOf id).schemaVersion
  id := (fixtureOf id).id
  language := (fixtureOf id).language
  lexicon := {
    packId := (fixtureOf id).packId
    packVersion := (fixtureOf id).packVersion
    formatVersion := (fixtureOf id).packFormatVersion
    locale := (fixtureOf id).locale
    normalization :=
      ⟨normalizationAlgorithm, normalizationVersion, (fixtureOf id).normalizationProfile⟩
    contentSha256 := (fixtureOf id).lexiconContentSha256 }
  game := {
    board := (expandBoard classicBoardFixture).toOption.getD ⟨0, 0, []⟩
    rackCapacity := (fixtureOf id).game.rackCapacity
    bingoBonus := (fixtureOf id).game.bingoBonus
    exchangeMinimum := (fixtureOf id).game.exchangeMinimum
    scorelessTurnLimit := (fixtureOf id).game.scorelessTurnLimit
    tiles := ((fixtureOf id).game.tiles.mapM loadTile).toOption.getD [] }

theorem builtin_eq_unchecked (id : RulesetId) : Ruleset.builtin id = uncheckedBuiltin id := by
  have hLoad := verifyBuiltin_eq id
  simp only [Ruleset.verifyBuiltin, loadBuiltinRuleset, bind_eq_ok, pure_eq_ok] at hLoad
  obtain ⟨-, -, -, -, -, -, board, hBoard, tiles, hTiles, _, -, hRuleset⟩ := hLoad
  rw [← hRuleset, uncheckedBuiltin, hBoard, hTiles]
  rfl

/-- What the table shows after both words, and before the first one. -/
def hookShown :
    { shown : List Score × GamePhase × Bool × Bool //
      (((engine basicPlatform).settleAll hookFresh hookCalls).state.scores,
        ((engine basicPlatform).settleAll hookFresh hookCalls).state.phase,
        (((engine basicPlatform).settleAll hookFresh hookCalls).state.tileAt center).isSome,
        (hookFresh.playTiles basicPlatform .one 0 bake).toOption.isSome) = shown } :=
  ⟨([⟨20⟩, ⟨18⟩], .active, true, true), by
    rw [hookFresh, basicPlatform_eq, builtin_eq_unchecked]
    decide +kernel⟩

theorem hookFresh_shows :
    (((engine basicPlatform).settleAll hookFresh hookCalls).state.scores,
      ((engine basicPlatform).settleAll hookFresh hookCalls).state.phase,
      (((engine basicPlatform).settleAll hookFresh hookCalls).state.tileAt center).isSome,
      (hookFresh.playTiles basicPlatform .one 0 bake).toOption.isSome) =
      ([⟨20⟩, ⟨18⟩], .active, true, true) :=
  hookShown.2

theorem hookTable_played : ∃ fresh, hookTable = .ok fresh ∧
    ((engine basicPlatform).settleAll fresh hookCalls).state.scores = [⟨20⟩, ⟨18⟩] ∧
    ((engine basicPlatform).settleAll fresh hookCalls).state.phase = .active ∧
    (((engine basicPlatform).settleAll fresh hookCalls).state.tileAt center).isSome = true := by
  have hShows := hookFresh_shows
  simp only [Prod.mk.injEq] at hShows
  obtain ⟨hScores, hPhase, hTile, -⟩ := hShows
  exact ⟨hookFresh, hookTable_eq, hScores, hPhase, hTile⟩

/-- Some game with words on its board is reachable. -/
theorem exists_played : ∃ g, Reachable basicPlatform g ∧ g.state.scores = [⟨20⟩, ⟨18⟩] ∧
    g.state.phase = .active ∧ (g.state.tileAt center).isSome = true := by
  obtain ⟨fresh, hFresh, hShown⟩ := hookTable_played
  have hInitial : (engine basicPlatform).initial fresh := ⟨_, _, _, _, _, _, hFresh⟩
  exact ⟨_, System.reachable_settleAll hInitial hookCalls, hShown⟩

end WordArena.Engine
