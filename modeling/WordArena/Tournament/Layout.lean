import WordArena.Tournament.Schedule

/-! What the schedule builder lays out. Every step appends whole series, byes and
games, takes the next seeds and sequence numbers in order, and leaves the rest of
the builder alone. -/
namespace WordArena.Tournament

open Fallible WordArena.Engine

/-- A series in the order in which its pair was drawn, with the plan of its games. -/
structure SeriesEntry where
  first : String
  second : String
  plan : SeriesPlan
deriving DecidableEq

def SeriesPlan.game (spec : TournamentSpec) (seedIndex sequence : Nat) (plan : SeriesPlan)
    (gameIndex : Nat) : ScheduledMatch :=
  ⟨plan.matchId (gameIndex + 1), plan.seriesId, sequence + gameIndex, plan.roundNumber,
    plan.tableNumber, gameIndex + 1, (plan.seats gameIndex).1, (plan.seats gameIndex).2,
    spec.profiles.getD plan.profileIndex default,
    spec.gameSeedCommitments.getD (seedIndex + gameIndex) ""⟩

def SeriesEntry.toSeries (games : Nat) (entry : SeriesEntry) : ScheduledSeries :=
  ⟨entry.plan.seriesId, entry.plan.roundNumber, entry.plan.tableNumber, entry.first, entry.second,
    (List.range games).map fun i => entry.plan.matchId (i + 1)⟩

/-- The games of consecutive series. -/
def gamesFrom (spec : TournamentSpec) : Nat → Nat → List SeriesEntry → List ScheduledMatch
  | _, _, [] => []
  | seedIndex, sequence, entry :: entries =>
      (List.range spec.format.gamesPerSeries).map (entry.plan.game spec seedIndex sequence) ++
        gamesFrom spec (seedIndex + spec.format.gamesPerSeries)
          (sequence + spec.format.gamesPerSeries) entries

/-- One builder comes from another by laying out series and byes. -/
structure Adds (b : ScheduleBuilder) (entries : List SeriesEntry) (byes : List TournamentBye)
    (b' : ScheduleBuilder) : Prop where
  spec : b'.spec = b.spec
  formatIdentity : b'.formatIdentity = b.formatIdentity
  orderedEntrants : b'.orderedEntrants = b.orderedEntrants
  staticRoundsPerCycle : b'.staticRoundsPerCycle = b.staticRoundsPerCycle
  seedIndex : b'.seedIndex = b.seedIndex + entries.length * b.spec.format.gamesPerSeries
  nextSequence : b'.nextSequence = b.nextSequence + entries.length * b.spec.format.gamesPerSeries
  series : b'.series = b.series ++ entries.map (·.toSeries b.spec.format.gamesPerSeries)
  scheduledMatches : b'.scheduledMatches =
    b.scheduledMatches ++ gamesFrom b.spec b.seedIndex b.nextSequence entries
  byes : b'.byes = b.byes ++ byes
  enough : b.seedIndex ≤ b.spec.gameSeedCommitments.length →
    b'.seedIndex ≤ b.spec.gameSeedCommitments.length

theorem gamesFrom_append (spec : TournamentSpec) (seedIndex sequence : Nat)
    (entries later : List SeriesEntry) :
    gamesFrom spec seedIndex sequence (entries ++ later) =
      gamesFrom spec seedIndex sequence entries ++
        gamesFrom spec (seedIndex + entries.length * spec.format.gamesPerSeries)
          (sequence + entries.length * spec.format.gamesPerSeries) later := by
  induction entries generalizing seedIndex sequence with
  | nil => simp [gamesFrom]
  | cons entry entries ih =>
      rw [List.cons_append, gamesFrom, gamesFrom, ih, List.append_assoc, List.length_cons,
        Nat.succ_mul, Nat.add_assoc seedIndex, Nat.add_assoc sequence,
        Nat.add_comm spec.format.gamesPerSeries]

theorem Adds.refl (b : ScheduleBuilder) : Adds b [] [] b := by
  constructor <;> simp [gamesFrom]

theorem Adds.trans {b b' b'' : ScheduleBuilder} {entries entries' : List SeriesEntry}
    {byes byes' : List TournamentBye} (h : Adds b entries byes b')
    (h' : Adds b' entries' byes' b'') : Adds b (entries ++ entries') (byes ++ byes') b'' where
  spec := h'.spec.trans h.spec
  formatIdentity := h'.formatIdentity.trans h.formatIdentity
  orderedEntrants := h'.orderedEntrants.trans h.orderedEntrants
  staticRoundsPerCycle := h'.staticRoundsPerCycle.trans h.staticRoundsPerCycle
  seedIndex := by
    rw [h'.seedIndex, h.seedIndex, h.spec, List.length_append, Nat.add_mul, Nat.add_assoc]
  nextSequence := by
    rw [h'.nextSequence, h.nextSequence, h.spec, List.length_append, Nat.add_mul, Nat.add_assoc]
  series := by rw [h'.series, h.series, h.spec, List.map_append, List.append_assoc]
  scheduledMatches := by
    rw [h'.scheduledMatches, h.scheduledMatches, h.spec, h.seedIndex, h.nextSequence,
      gamesFrom_append, List.append_assoc]
  byes := by rw [h'.byes, h.byes, List.append_assoc]
  enough hStart := by
    have hEnough := h'.enough
    rw [h.spec] at hEnough
    exact hEnough (h.enough hStart)

@[simp] theorem fitU16_eq_ok {n m : Nat} : fitU16 n = .ok m ↔ n < 2 ^ 16 ∧ m = n := by
  unfold fitU16
  split <;> simp_all [eq_comm]

@[simp] theorem fitU64_eq_ok {n m : Nat} : fitU64 n = .ok m ↔ n < 2 ^ 64 ∧ m = n := by
  unfold fitU64
  split <;> simp_all [eq_comm]

section Games

variable {plan : SeriesPlan} {b b' : ScheduleBuilder} {balance balance' : SeatCounts}
  {ids ids' : List String}

theorem addGame_eq_ok {gameIndex : Nat}
    (h : ScheduleBuilder.addGame plan (b, balance, ids) gameIndex = .ok (b', balance', ids')) :
    b.seedIndex < b.spec.gameSeedCommitments.length ∧
      ids' = ids ++ [plan.matchId (gameIndex + 1)] ∧
      b' = { b with
        seedIndex := b.seedIndex + 1
        nextSequence := b.nextSequence + 1
        scheduledMatches := b.scheduledMatches ++ [⟨plan.matchId (gameIndex + 1), plan.seriesId,
          b.nextSequence, plan.roundNumber, plan.tableNumber, gameIndex + 1,
          (plan.seats gameIndex).1, (plan.seats gameIndex).2,
          b.spec.profiles.getD plan.profileIndex default,
          b.spec.gameSeedCommitments.getD b.seedIndex ""⟩] } := by
  simp only [ScheduleBuilder.addGame, bind_eq_ok, fitU16_eq_ok, fitU64_eq_ok, okOr_eq_ok,
    pure_eq_ok] at h
  obtain ⟨_, ⟨-, rfl⟩, seed, hSeed, _, ⟨-, rfl⟩, _, ⟨-, rfl⟩, h⟩ := h
  cases h
  obtain ⟨hLt, -⟩ := List.getElem?_eq_some_iff.mp hSeed
  have hTaken : b.spec.gameSeedCommitments.getD b.seedIndex "" = seed := by
    rw [List.getD_eq_getElem?_getD, hSeed, Option.getD_some]
  refine ⟨hLt, rfl, ?_⟩
  rw [hTaken]

theorem addGames_eq_ok {count : Nat}
    (h : (List.range count).foldlM (ScheduleBuilder.addGame plan) (b, balance, []) =
      .ok (b', balance', ids')) :
    (b.seedIndex ≤ b.spec.gameSeedCommitments.length →
        b.seedIndex + count ≤ b.spec.gameSeedCommitments.length) ∧
      ids' = ((List.range count).map fun i => plan.matchId (i + 1)) ∧
      b' = { b with
        seedIndex := b.seedIndex + count
        nextSequence := b.nextSequence + count
        scheduledMatches := b.scheduledMatches ++
          (List.range count).map (plan.game b.spec b.seedIndex b.nextSequence) } := by
  induction count generalizing b' balance' ids' with
  | zero =>
      cases pure_eq_ok.mp h
      simp
  | succ count ih =>
      rw [List.range_succ, List.foldlM_append, bind_eq_ok] at h
      obtain ⟨⟨middle, seats, found⟩, hBefore, hLast⟩ := h
      rw [List.foldlM_cons, bind_eq_ok] at hLast
      obtain ⟨_, hLast, hDone⟩ := hLast
      cases pure_eq_ok.mp hDone
      obtain ⟨hEnough, rfl, rfl⟩ := ih hBefore
      obtain ⟨hNext, rfl, rfl⟩ := addGame_eq_ok hLast
      refine ⟨fun _ => hNext, ?_, ?_⟩
      · rw [List.range_succ, List.map_append, List.map_singleton]
      · rw [List.range_succ, List.map_append, List.map_singleton, List.append_assoc]
        rfl

end Games

section Steps

variable {b b' : ScheduleBuilder} {balance balance' : SeatCounts} {roundNumber : Nat}
  {respectPairOrder : Bool}

theorem addSeries_adds {tableNumber : Nat} {first second : String}
    (h : b.addSeries roundNumber tableNumber first second balance respectPairOrder =
      .ok (b', balance')) :
    Adds b [⟨first, second, b.plan roundNumber tableNumber first second balance
      respectPairOrder⟩] [] b' := by
  obtain ⟨⟨middle, seats, ids⟩, hGames, h⟩ := bind_eq_ok.mp h
  cases pure_eq_ok.mp h
  obtain ⟨hEnough, rfl, rfl⟩ := addGames_eq_ok hGames
  constructor <;> simp [gamesFrom, SeriesEntry.toSeries]
  · exact ⟨rfl, rfl⟩
  · exact hEnough

/-- How an entry is laid out at a table of a round. -/
structure SeriesEntry.At (b : ScheduleBuilder) (roundNumber : Nat) (respectPairOrder : Bool)
    (seat : (String × String) × Nat) (entry : SeriesEntry) : Prop where
  first : entry.first = seat.1.1
  second : entry.second = seat.1.2
  round : entry.plan.roundNumber = roundNumber
  table : entry.plan.tableNumber = seat.2 + 1
  tableBound : seat.2 + 1 < 2 ^ 16
  name : entry.plan.seriesId = seriesId b.spec.tournamentId roundNumber (seat.2 + 1)
  base : entry.plan.baseOne = entry.first ∧ entry.plan.baseTwo = entry.second ∨
    entry.plan.baseOne = entry.second ∧ entry.plan.baseTwo = entry.first
  inOrder : respectPairOrder = true →
    entry.plan.baseOne = entry.first ∧ entry.plan.baseTwo = entry.second ∧
      entry.plan.profileIndex = b.staticProfile entry.first entry.second roundNumber

theorem preferredOrientation_or (first second : String) (balance : SeatCounts) :
    preferredOrientation first second balance = (first, second) ∨
      preferredOrientation first second balance = (second, first) := by
  unfold preferredOrientation
  dsimp only
  split
  · exact .inl rfl
  · exact .inr rfl

theorem plan_at {seat : (String × String) × Nat} (hBound : seat.2 + 1 < 2 ^ 16) :
    SeriesEntry.At b roundNumber respectPairOrder seat ⟨seat.1.1, seat.1.2,
      b.plan roundNumber (seat.2 + 1) seat.1.1 seat.1.2 balance respectPairOrder⟩ := by
  refine ⟨rfl, rfl, rfl, rfl, hBound, rfl, ?_, ?_⟩
  · cases respectPairOrder with
    | true => exact .inl ⟨rfl, rfl⟩
    | false =>
        simp only [ScheduleBuilder.plan, Bool.false_eq_true, if_false]
        rcases preferredOrientation_or seat.1.1 seat.1.2 balance with h | h
        · exact .inl ⟨congrArg Prod.fst h, congrArg Prod.snd h⟩
        · exact .inr ⟨congrArg Prod.fst h, congrArg Prod.snd h⟩
  · rintro rfl
    exact ⟨rfl, rfl, rfl⟩

/-- What fixes an entry is not changed by what was laid out before. -/
theorem SeriesEntry.At.of_adds {entries : List SeriesEntry} {byes : List TournamentBye}
    {seat : (String × String) × Nat} {entry : SeriesEntry} (hAdds : Adds b entries byes b')
    (h : SeriesEntry.At b' roundNumber respectPairOrder seat entry) :
    SeriesEntry.At b roundNumber respectPairOrder seat entry := by
  have hProfile : b'.staticProfile entry.first entry.second roundNumber =
      b.staticProfile entry.first entry.second roundNumber := by
    simp only [ScheduleBuilder.staticProfile, hAdds.staticRoundsPerCycle, hAdds.orderedEntrants,
      hAdds.spec]
  refine ⟨h.first, h.second, h.round, h.table, h.tableBound, ?_, h.base, ?_⟩
  · rw [h.name, hAdds.spec]
  · intro hRespect
    obtain ⟨hOne, hTwo, hIndex⟩ := h.inOrder hRespect
    exact ⟨hOne, hTwo, hIndex.trans hProfile⟩

theorem addTables_adds {seats : List ((String × String) × Nat)}
    (h : seats.foldlM (ScheduleBuilder.addTable roundNumber respectPairOrder) (b, balance) =
      .ok (b', balance')) :
    ∃ entries, Adds b entries [] b' ∧
      List.Forall₂ (SeriesEntry.At b roundNumber respectPairOrder) seats entries := by
  induction seats generalizing b balance with
  | nil =>
      cases pure_eq_ok.mp h
      exact ⟨[], .refl _, .nil⟩
  | cons seat seats ih =>
      rw [List.foldlM_cons, bind_eq_ok] at h
      obtain ⟨⟨middle, counts⟩, hHead, hTail⟩ := h
      obtain ⟨_, hFit, hHead⟩ := bind_eq_ok.mp hHead
      obtain ⟨hBound, rfl⟩ := fitU16_eq_ok.mp hFit
      have hFirst := addSeries_adds hHead
      obtain ⟨entries, hRest, hAll⟩ := ih hTail
      refine ⟨_ :: entries, hFirst.trans hRest, .cons (plan_at hBound) ?_⟩
      exact hAll.imp fun _ _ hAt => hAt.of_adds hFirst

/-- A round lays out its bye and one series for each of its pairs. -/
theorem addRound_adds {round : RoundPairings}
    (h : b.addRound roundNumber round balance respectPairOrder = .ok (b', balance')) :
    ∃ entries, Adds b entries (round.bye.toList.map fun e => ⟨roundNumber, e⟩) b' ∧
      List.Forall₂ (SeriesEntry.At b roundNumber respectPairOrder) round.pairs.zipIdx
        entries := by
  obtain ⟨entries, hAdds, hAll⟩ := addTables_adds h
  have hBye : Adds b [] (round.bye.toList.map fun e => ⟨roundNumber, e⟩)
      { b with byes := b.byes ++ round.bye.toList.map fun e => ⟨roundNumber, e⟩ } := by
    constructor <;> simp [gamesFrom]
  refine ⟨entries, by simpa using hBye.trans hAdds, ?_⟩
  exact hAll.imp fun _ _ hAt => hAt.of_adds hBye

theorem new_eq_ok {platform : Platform} {spec : TournamentSpec} {seedIndex nextSequence : Nat}
    (h : ScheduleBuilder.new platform spec seedIndex nextSequence = .ok b) :
    spec.Valid ∧ b.spec = spec ∧ spec.formatIdentity platform = .ok b.formatIdentity ∧
      b.seedIndex = seedIndex ∧ b.nextSequence = nextSequence ∧ b.series = [] ∧
      b.scheduledMatches = [] ∧ b.byes = [] ∧ b.orderedEntrants = spec.orderedEntrantIds ∧
      b.staticRoundsPerCycle = if spec.entrants.length % 2 = 0 then spec.entrants.length - 1
        else spec.entrants.length := by
  simp only [ScheduleBuilder.new, bind_eq_ok, fitU16_eq_ok, pure_eq_ok,
    TournamentSpec.length_orderedEntrantIds] at h
  obtain ⟨identity, hIdentity, _, ⟨-, rfl⟩, rfl⟩ := h
  exact ⟨TournamentSpec.formatIdentity_eq_ok hIdentity, rfl, hIdentity, rfl, rfl, rfl, rfl, rfl,
    rfl, rfl⟩

end Steps

section Sequence

/-- Consecutive games take consecutive sequence numbers. -/
theorem map_sequence_gamesFrom (spec : TournamentSpec) (seedIndex sequence : Nat)
    (entries : List SeriesEntry) :
    (gamesFrom spec seedIndex sequence entries).map (·.sequence) =
      List.range' sequence (entries.length * spec.format.gamesPerSeries) := by
  induction entries generalizing seedIndex sequence with
  | nil => simp [gamesFrom]
  | cons entry entries ih =>
      rw [gamesFrom, List.map_append, ih, List.map_map, List.length_cons, Nat.succ_mul,
        Nat.add_comm (entries.length * _), ← List.range'_append_1]
      congr 1
      rw [List.range'_eq_map_range]
      rfl

/-- Consecutive games take consecutive seeds. -/
theorem map_seed_gamesFrom (spec : TournamentSpec) (seedIndex sequence : Nat)
    (entries : List SeriesEntry) :
    (gamesFrom spec seedIndex sequence entries).map (·.gameSeedCommitmentSha256) =
      (List.range' seedIndex (entries.length * spec.format.gamesPerSeries)).map
        (spec.gameSeedCommitments.getD · "") := by
  induction entries generalizing seedIndex sequence with
  | nil => simp [gamesFrom]
  | cons entry entries ih =>
      rw [gamesFrom, List.map_append, ih, List.map_map, List.length_cons, Nat.succ_mul,
        Nat.add_comm (entries.length * _), ← List.range'_append_1, List.map_append]
      congr 1
      rw [List.range'_eq_map_range, List.map_map]
      rfl

/-- The games of a layout, series by series. Nothing but the sequence number and
the seed depends on the place of the series. -/
theorem map_gamesFrom {β : Type} (spec : TournamentSpec) (f : ScheduledMatch → β)
    (hf : ∀ plan seedIndex sequence i, f (SeriesPlan.game spec seedIndex sequence plan i) =
      f (SeriesPlan.game spec 0 0 plan i))
    (seedIndex sequence : Nat) (entries : List SeriesEntry) :
    (gamesFrom spec seedIndex sequence entries).map f =
      entries.flatMap fun entry =>
        (List.range spec.format.gamesPerSeries).map fun i => f (entry.plan.game spec 0 0 i) := by
  induction entries generalizing seedIndex sequence with
  | nil => rfl
  | cons entry entries ih =>
      rw [gamesFrom, List.map_append, ih, List.flatMap_cons, List.map_map]
      congr 1
      exact List.map_congr_left fun i _ => hf entry.plan seedIndex sequence i

theorem mem_gamesFrom {spec : TournamentSpec} {seedIndex sequence : Nat}
    {entries : List SeriesEntry} {m : ScheduledMatch}
    (h : m ∈ gamesFrom spec seedIndex sequence entries) :
    ∃ entry ∈ entries, ∃ seedIndex sequence i, i < spec.format.gamesPerSeries ∧
      m = entry.plan.game spec seedIndex sequence i := by
  induction entries generalizing seedIndex sequence with
  | nil => cases h
  | cons entry entries ih =>
      rcases List.mem_append.mp h with hHere | hLater
      · obtain ⟨i, hi, rfl⟩ := List.mem_map.mp hHere
        exact ⟨entry, List.mem_cons_self, seedIndex, sequence, i, List.mem_range.mp hi, rfl⟩
      · obtain ⟨found, hFound, rest⟩ := ih hLater
        exact ⟨found, List.mem_cons_of_mem _ hFound, rest⟩

/-- A test that all games of a series answer alike counts whole series. -/
theorem countP_gamesFrom (spec : TournamentSpec) {p : ScheduledMatch → Bool}
    {q : SeriesEntry → Bool} (seedIndex sequence : Nat) {entries : List SeriesEntry}
    (h : ∀ entry ∈ entries, ∀ seedIndex sequence i,
      p (entry.plan.game spec seedIndex sequence i) = q entry) :
    (gamesFrom spec seedIndex sequence entries).countP p =
      entries.countP q * spec.format.gamesPerSeries := by
  induction entries generalizing seedIndex sequence with
  | nil => simp [gamesFrom]
  | cons entry entries ih =>
      rw [List.forall_mem_cons] at h
      have hSeries : ((List.range spec.format.gamesPerSeries).map
          (entry.plan.game spec seedIndex sequence)).countP p =
          (if q entry = true then 1 else 0) * spec.format.gamesPerSeries := by
        rw [List.countP_map]
        have hAll : p ∘ entry.plan.game spec seedIndex sequence = fun _ => q entry :=
          funext fun i => h.1 seedIndex sequence i
        rw [hAll]
        cases q entry <;> simp
      rw [gamesFrom, List.countP_append, ih _ _ h.2, hSeries, List.countP_cons, Nat.add_mul,
        Nat.add_comm]

end Sequence

section Names

theorem toList_padded (n : Nat) : (padded n).toList =
    List.replicate (4 - (Nat.toDigits 10 n).length) '0' ++ Nat.toDigits 10 n :=
  String.toList_ofList

theorem padded_injective : Function.Injective padded := by
  intro a b h
  have hList := congrArg (fun text => Nat.ofDigitChars 10 text.toList 0) h
  simpa [toList_padded, Nat.ofDigitChars_append, Nat.ofDigitChars_replicate_zero,
    Nat.ofDigitChars_ten_toDigits] using hList

theorem dash_notMem_padded (n : Nat) : '-' ∉ (padded n).toList := by
  rw [toList_padded, List.mem_append]
  rintro (h | h)
  · exact absurd (List.eq_of_mem_replicate h) (by decide)
  · exact absurd (Nat.isDigit_of_mem_toDigits (by decide) (by decide) h) (by decide)

/-- Two texts with a dash in them that agree are cut alike at the first dash. -/
theorem cut_at_dash {x z y w : List Char} (hx : '-' ∉ x) (hz : '-' ∉ z)
    (h : x ++ '-' :: y = z ++ '-' :: w) : x = z ∧ y = w := by
  induction x generalizing z with
  | nil =>
      cases z with
      | nil => exact ⟨rfl, (List.cons.inj h).2⟩
      | cons c z =>
          rw [(List.cons.inj h).1] at hz
          exact absurd List.mem_cons_self hz
  | cons c x ih =>
      cases z with
      | nil =>
          rw [(List.cons.inj h).1] at hx
          exact absurd List.mem_cons_self hx
      | cons d z =>
          obtain ⟨rfl, hTail⟩ := List.cons.inj h
          rw [List.mem_cons, not_or] at hx hz
          obtain ⟨rfl, hRest⟩ := ih hx.2 hz.2 hTail
          exact ⟨rfl, hRest⟩

theorem toList_seriesId (tournamentId : String) (roundNumber tableNumber : Nat) :
    (seriesId tournamentId roundNumber tableNumber).toList =
      (tournamentId.toList ++ ['-', 'r']) ++
        ((padded roundNumber).toList ++ '-' :: 't' :: (padded tableNumber).toList) := by
  simp [seriesId]

theorem toList_matchId (plan : SeriesPlan) (seriesGameNumber : Nat) :
    (plan.matchId seriesGameNumber).toList =
      plan.seriesId.toList ++ '-' :: 'g' :: (padded seriesGameNumber).toList := by
  simp [SeriesPlan.matchId]

theorem dash_notMem_table (n : Nat) : '-' ∉ 't' :: (padded n).toList := by
  rw [List.mem_cons, not_or]
  exact ⟨by decide, dash_notMem_padded n⟩

/-- A series is named by its round and its table. -/
theorem seriesId_inj {tournamentId : String} {r r' t t' : Nat} :
    seriesId tournamentId r t = seriesId tournamentId r' t' ↔ r = r' ∧ t = t' := by
  refine ⟨fun h => ?_, by rintro ⟨rfl, rfl⟩; rfl⟩
  have hList := congrArg String.toList h
  rw [toList_seriesId, toList_seriesId, List.append_cancel_left_eq] at hList
  obtain ⟨hRound, hTable⟩ := cut_at_dash (dash_notMem_padded r) (dash_notMem_padded r') hList
  rw [List.cons.injEq] at hTable
  exact ⟨padded_injective (String.toList_inj.mp hRound),
    padded_injective (String.toList_inj.mp hTable.2)⟩

/-- A game is named by its round, its table and its place in the series. -/
theorem matchId_inj {tournamentId : String} {plan plan' : SeriesPlan} {g g' : Nat}
    (hPlan : plan.seriesId = seriesId tournamentId plan.roundNumber plan.tableNumber)
    (hPlan' : plan'.seriesId = seriesId tournamentId plan'.roundNumber plan'.tableNumber)
    (h : plan.matchId g = plan'.matchId g') :
    plan.roundNumber = plan'.roundNumber ∧ plan.tableNumber = plan'.tableNumber ∧ g = g' := by
  have hList := congrArg String.toList h
  rw [toList_matchId, toList_matchId, hPlan, hPlan', toList_seriesId, toList_seriesId] at hList
  simp only [List.append_assoc, List.append_cancel_left_eq, List.cons_append,
    List.cons.injEq, true_and, List.nil_append] at hList
  obtain ⟨hRound, hRest⟩ := cut_at_dash (dash_notMem_padded _) (dash_notMem_padded _) hList
  rw [List.cons.injEq] at hRest
  obtain ⟨hTable, hGame⟩ := cut_at_dash (dash_notMem_padded _) (dash_notMem_padded _) hRest.2
  rw [List.cons.injEq] at hGame
  exact ⟨padded_injective (String.toList_inj.mp hRound),
    padded_injective (String.toList_inj.mp hTable), padded_injective (String.toList_inj.mp hGame.2)⟩

/-- No game has the name of a series. -/
theorem matchId_ne_seriesId {tournamentId : String} {plan : SeriesPlan} {g r t : Nat}
    (hPlan : plan.seriesId = seriesId tournamentId plan.roundNumber plan.tableNumber) :
    plan.matchId g ≠ seriesId tournamentId r t := by
  intro h
  have hList := congrArg String.toList h
  rw [toList_matchId, hPlan, toList_seriesId, toList_seriesId] at hList
  simp only [List.append_assoc, List.append_cancel_left_eq, List.cons_append,
    List.cons.injEq, true_and, List.nil_append] at hList
  obtain ⟨-, hRest⟩ := cut_at_dash (dash_notMem_padded _) (dash_notMem_padded _) hList
  refine dash_notMem_table t ?_
  rw [← hRest]
  simp

/-- Entries stand in the order of their rounds, and of their tables within a round. -/
def SeriesEntry.Before (entry later : SeriesEntry) : Prop :=
  entry.plan.roundNumber < later.plan.roundNumber ∨
    entry.plan.roundNumber = later.plan.roundNumber ∧
      entry.plan.tableNumber < later.plan.tableNumber

def SeriesEntry.Named (tournamentId : String) (entry : SeriesEntry) : Prop :=
  entry.plan.seriesId = seriesId tournamentId entry.plan.roundNumber entry.plan.tableNumber

theorem SeriesEntry.Before.ne {entry later : SeriesEntry} (h : entry.Before later) :
    ¬ (entry.plan.roundNumber = later.plan.roundNumber ∧
      entry.plan.tableNumber = later.plan.tableNumber) := by
  unfold Before at h
  omega

/-- Series and games laid out in order all have different names. -/
theorem nodup_names (spec : TournamentSpec) (seedIndex sequence : Nat)
    {entries : List SeriesEntry} (hBefore : entries.Pairwise SeriesEntry.Before)
    (hNamed : ∀ entry ∈ entries, entry.Named spec.tournamentId) :
    (entries.map (·.plan.seriesId) ++
      (gamesFrom spec seedIndex sequence entries).map (·.matchId)).Nodup := by
  rw [map_gamesFrom spec (·.matchId) (fun _ _ _ _ => rfl), List.nodup_append]
  refine ⟨?_, ?_, ?_⟩
  · rw [List.nodup_iff_pairwise_ne, List.pairwise_map]
    refine hBefore.imp_of_mem fun {entry later} hEntry hLater h hSame => h.ne ?_
    rw [hNamed entry hEntry, hNamed later hLater] at hSame
    exact seriesId_inj.mp hSame
  · refine List.nodup_flatMap.mpr ⟨fun entry hEntry => ?_, ?_⟩
    · refine List.Nodup.map ?_ List.nodup_range
      intro i j hSame
      have := (matchId_inj (hNamed entry hEntry) (hNamed entry hEntry) hSame).2.2
      omega
    · refine hBefore.imp_of_mem fun {entry later} hEntry hLater h name hName hOther => h.ne ?_
      obtain ⟨i, -, rfl⟩ := List.mem_map.mp hName
      obtain ⟨j, -, hSame⟩ := List.mem_map.mp hOther
      have hPlace := matchId_inj (hNamed later hLater) (hNamed entry hEntry) hSame
      exact ⟨hPlace.1.symm, hPlace.2.1.symm⟩
  · rintro name hSeries other hGame rfl
    obtain ⟨entry, hEntry, rfl⟩ := List.mem_map.mp hSeries
    obtain ⟨played, hPlayed, hGame⟩ := List.mem_flatMap.mp hGame
    obtain ⟨i, -, hSame⟩ := List.mem_map.mp hGame
    rw [hNamed entry hEntry] at hSame
    exact matchId_ne_seriesId (hNamed played hPlayed) hSame

/-- The games that carry the name of a series are the games of that series. -/
theorem filter_gamesFrom (spec : TournamentSpec) (seedIndex sequence : Nat)
    {entries : List SeriesEntry} (hDistinct : (entries.map (·.plan.seriesId)).Nodup)
    {entry : SeriesEntry} (hEntry : entry ∈ entries) :
    ∃ seedIndex' sequence', (gamesFrom spec seedIndex sequence entries).filter
      (·.seriesId == entry.plan.seriesId) =
      (List.range spec.format.gamesPerSeries).map
        (entry.plan.game spec seedIndex' sequence') := by
  induction entries generalizing seedIndex sequence with
  | nil => cases hEntry
  | cons first entries ih =>
      rw [List.map_cons, List.nodup_cons] at hDistinct
      rw [gamesFrom, List.filter_append]
      rcases List.mem_cons.mp hEntry with rfl | hLater
      · refine ⟨seedIndex, sequence, ?_⟩
        have hHere : ((List.range spec.format.gamesPerSeries).map
            (entry.plan.game spec seedIndex sequence)).filter
            (·.seriesId == entry.plan.seriesId) = (List.range spec.format.gamesPerSeries).map
              (entry.plan.game spec seedIndex sequence) := by
          refine List.filter_eq_self.mpr fun m hm => ?_
          obtain ⟨i, -, rfl⟩ := List.mem_map.mp hm
          exact beq_self_eq_true _
        have hElsewhere : (gamesFrom spec (seedIndex + spec.format.gamesPerSeries)
            (sequence + spec.format.gamesPerSeries) entries).filter
            (·.seriesId == entry.plan.seriesId) = [] := by
          refine List.filter_eq_nil_iff.mpr fun m hm hSame => hDistinct.1 ?_
          obtain ⟨other, hOther, _, _, i, -, rfl⟩ := mem_gamesFrom hm
          rw [beq_iff_eq] at hSame
          exact List.mem_map.mpr ⟨other, hOther, hSame⟩
        rw [hHere, hElsewhere, List.append_nil]
      · obtain ⟨seedIndex', sequence', hGames⟩ := ih _ _ hDistinct.2 hLater
        refine ⟨seedIndex', sequence', ?_⟩
        have hElsewhere : ((List.range spec.format.gamesPerSeries).map
            (first.plan.game spec seedIndex sequence)).filter
            (·.seriesId == entry.plan.seriesId) = [] := by
          refine List.filter_eq_nil_iff.mpr fun m hm hSame => hDistinct.1 ?_
          obtain ⟨i, -, rfl⟩ := List.mem_map.mp hm
          rw [beq_iff_eq] at hSame
          exact List.mem_map.mpr ⟨entry, hLater, hSame.symm⟩
        rw [hElsewhere, hGames, List.nil_append]

end Names

end WordArena.Tournament
