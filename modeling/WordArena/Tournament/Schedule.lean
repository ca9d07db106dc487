import WordArena.Tournament.Model

/-! Deterministic schedules. A builder carries the seeds and sequence numbers
still to be used; every round adds its bye and its series, and every series its
games. Static formats schedule all their rounds, Swiss formats the next one. -/
namespace WordArena.Tournament

open Fallible WordArena.Engine

/-- The nearest `u32` above a count. -/
def saturateU32 (n : Nat) : Nat := min n (2 ^ 32 - 1)

def absDiff (a b : Nat) : Nat := (a - b) + (b - a)

/-- A number in a `u16`. -/
def fitU16 (n : Nat) : Except TournamentError Nat :=
  if n < 2 ^ 16 then .ok n else .error .overflow

/-- A number in a `u64`, which is also the width of an index. -/
def fitU64 (n : Nat) : Except TournamentError Nat :=
  if n < 2 ^ 64 then .ok n else .error .overflow

/-- At least four decimal digits. -/
def padded (n : Nat) : String :=
  String.ofList (List.replicate (4 - (Nat.toDigits 10 n).length) '0' ++ Nat.toDigits 10 n)

structure RoundPairings where
  pairs : List (String × String)
  bye : Option String
deriving DecidableEq

/-- Seat-one and seat-two games of each entrant. -/
abbrev SeatCounts := String → Nat × Nat

section Orientation

def orientationPenalty (seatOne seatTwo : Nat × Nat) : Nat :=
  absDiff (saturateU32 (seatOne.1 + 1)) seatOne.2 +
    absDiff seatTwo.1 (saturateU32 (seatTwo.2 + 1))

def preferredOrientation (first second : String) (balance : SeatCounts) : String × String :=
  let firstOne := orientationPenalty (balance first) (balance second)
  let secondOne := orientationPenalty (balance second) (balance first)
  if firstOne < secondOne ∨ firstOne = secondOne ∧ first ≤ second then (first, second)
  else (second, first)

def updateSeatBalance (balance : SeatCounts) (seatOne seatTwo : String) : SeatCounts :=
  let one := Function.update balance seatOne
    (saturateU32 ((balance seatOne).1 + 1), (balance seatOne).2)
  Function.update one seatTwo ((one seatTwo).1, saturateU32 ((one seatTwo).2 + 1))

/-- Whether the first of two ranks takes seat one, before the cycle is looked at. -/
def firstIsSeatOne (entrantCount firstRank secondRank : Nat) : Bool :=
  let difference := (secondRank + entrantCount - firstRank) % entrantCount
  if entrantCount % 2 = 0 ∧ difference = entrantCount / 2 then
    (min firstRank secondRank % 2 == 0) == decide (firstRank < secondRank)
  else decide (difference ≤ entrantCount / 2)

/-- The pair with the entrant of seat one in front. Ranks are positions in the
list of entrants ordered by seed. -/
def orientStaticPair (orderedEntrants : List String) (cycle : Nat) (pair : String × String) :
    String × String :=
  if firstIsSeatOne orderedEntrants.length (orderedEntrants.idxOf pair.1)
      (orderedEntrants.idxOf pair.2) ^^ !(cycle % 2 == 0) then pair
  else (pair.2, pair.1)

def orientStaticRound (orderedEntrants : List String) (cycle : Nat) (round : RoundPairings) :
    RoundPairings :=
  ⟨round.pairs.map (orientStaticPair orderedEntrants cycle), round.bye⟩

end Orientation

section Builder

structure ScheduleBuilder where
  spec : TournamentSpec
  formatIdentity : TournamentFormatIdentity
  seedIndex : Nat
  nextSequence : Nat
  series : List ScheduledSeries
  scheduledMatches : List ScheduledMatch
  byes : List TournamentBye
  profileExposure : String → Nat → Nat
  orderedEntrants : List String
  staticRoundsPerCycle : Nat

def ScheduleBuilder.new (platform : Platform) (spec : TournamentSpec)
    (seedIndex nextSequence : Nat) : Except TournamentError ScheduleBuilder := do
  let orderedEntrants := spec.orderedEntrantIds
  let staticRoundCount :=
    if orderedEntrants.length % 2 = 0 then orderedEntrants.length - 1 else orderedEntrants.length
  let formatIdentity ← spec.formatIdentity platform
  let staticRoundsPerCycle ← fitU16 staticRoundCount
  return ⟨spec, formatIdentity, seedIndex, nextSequence, [], [], [], fun _ _ => 0,
    orderedEntrants, staticRoundsPerCycle⟩

/-- The profile with the least joint exposure, the least single exposure among
those, and the nearest after the running start among the rest. -/
def ScheduleBuilder.preferredProfile (b : ScheduleBuilder) (first second : String) : Nat :=
  let profileCount := b.spec.profiles.length
  let start := b.series.length % profileCount
  let key (profile : Nat) : List Nat :=
    [saturateU32 (b.profileExposure first profile + b.profileExposure second profile),
      max (b.profileExposure first profile) (b.profileExposure second profile),
      (profile + profileCount - start) % profileCount]
  let candidates := (List.range profileCount).map fun offset => (start + offset) % profileCount
  candidates.tail.foldl (fun best profile => if key profile < key best then profile else best)
    (candidates.headD 0)

def circularDistance (entrantCount firstRank secondRank : Nat) : Nat :=
  min (absDiff firstRank secondRank) (entrantCount - absDiff firstRank secondRank)

def ScheduleBuilder.staticProfile (b : ScheduleBuilder) (first second : String)
    (roundNumber : Nat) : Nat :=
  let cycle := (roundNumber - 1) / b.staticRoundsPerCycle
  (circularDistance b.orderedEntrants.length (b.orderedEntrants.idxOf first)
    (b.orderedEntrants.idxOf second) - 1 + cycle) % b.spec.profiles.length

/-- What is fixed for the games of one series. -/
structure SeriesPlan where
  seriesId : String
  roundNumber : Nat
  tableNumber : Nat
  baseOne : String
  baseTwo : String
  profileIndex : Nat
deriving DecidableEq

def SeriesPlan.matchId (plan : SeriesPlan) (seriesGameNumber : Nat) : String :=
  plan.seriesId ++ "-g" ++ padded seriesGameNumber

/-- Seats alternate from game to game. -/
def SeriesPlan.seats (plan : SeriesPlan) (gameIndex : Nat) : String × String :=
  if gameIndex % 2 = 0 then (plan.baseOne, plan.baseTwo) else (plan.baseTwo, plan.baseOne)

/-- One game of a series. The profile index is below their number, so the
default is never read. -/
def ScheduleBuilder.addGame (plan : SeriesPlan)
    (acc : ScheduleBuilder × SeatCounts × List String) (gameIndex : Nat) :
    Except TournamentError (ScheduleBuilder × SeatCounts × List String) := do
  let (b, balance, matchIds) := acc
  let seriesGameNumber ← fitU16 (gameIndex + 1)
  let matchId := plan.matchId seriesGameNumber
  let (seatOne, seatTwo) := plan.seats gameIndex
  let seed ← okOr b.spec.gameSeedCommitments[b.seedIndex]? .missingGameSeeds
  let seedIndex ← fitU64 (b.seedIndex + 1)
  let nextSequence ← fitU64 (b.nextSequence + 1)
  let game : ScheduledMatch := ⟨matchId, plan.seriesId, b.nextSequence, plan.roundNumber,
    plan.tableNumber, seriesGameNumber, seatOne, seatTwo,
    b.spec.profiles.getD plan.profileIndex default, seed⟩
  return ({ b with
      seedIndex := seedIndex
      nextSequence := nextSequence
      scheduledMatches := b.scheduledMatches ++ [game] },
    updateSeatBalance balance seatOne seatTwo, matchIds ++ [matchId])

def seriesId (tournamentId : String) (roundNumber tableNumber : Nat) : String :=
  tournamentId ++ "-r" ++ padded roundNumber ++ "-t" ++ padded tableNumber

def addExposure (exposure : String → Nat → Nat) (entrant : String) (profile games : Nat) :
    String → Nat → Nat :=
  fun e p => if e = entrant ∧ p = profile then saturateU32 (exposure e p + games) else exposure e p

def ScheduleBuilder.plan (b : ScheduleBuilder) (roundNumber tableNumber : Nat)
    (first second : String) (balance : SeatCounts) (respectPairOrder : Bool) : SeriesPlan :=
  let base := if respectPairOrder then (first, second)
    else preferredOrientation first second balance
  let profileIndex := if respectPairOrder then b.staticProfile first second roundNumber
    else b.preferredProfile first second
  ⟨seriesId b.spec.tournamentId roundNumber tableNumber, roundNumber, tableNumber, base.1, base.2,
    profileIndex⟩

def ScheduleBuilder.addSeries (b : ScheduleBuilder) (roundNumber tableNumber : Nat)
    (first second : String) (balance : SeatCounts) (respectPairOrder : Bool) :
    Except TournamentError (ScheduleBuilder × SeatCounts) := do
  let plan := b.plan roundNumber tableNumber first second balance respectPairOrder
  let games := b.spec.format.gamesPerSeries
  let (b, balance, matchIds) ← (List.range games).foldlM (addGame plan) (b, balance, [])
  let exposure := addExposure (addExposure b.profileExposure first plan.profileIndex games) second
    plan.profileIndex games
  return ({ b with
      profileExposure := exposure
      series := b.series ++ [⟨plan.seriesId, roundNumber, tableNumber, first, second, matchIds⟩] },
    balance)

def ScheduleBuilder.addTable (roundNumber : Nat) (respectPairOrder : Bool)
    (acc : ScheduleBuilder × SeatCounts) (entry : (String × String) × Nat) :
    Except TournamentError (ScheduleBuilder × SeatCounts) := do
  let tableNumber ← fitU16 (entry.2 + 1)
  acc.1.addSeries roundNumber tableNumber entry.1.1 entry.1.2 acc.2 respectPairOrder

def ScheduleBuilder.addRound (b : ScheduleBuilder) (roundNumber : Nat) (round : RoundPairings)
    (balance : SeatCounts) (respectPairOrder : Bool) :
    Except TournamentError (ScheduleBuilder × SeatCounts) :=
  let b := { b with byes := b.byes ++ round.bye.toList.map fun e => ⟨roundNumber, e⟩ }
  round.pairs.zipIdx.foldlM (addTable roundNumber respectPairOrder) (b, balance)

def ScheduleBuilder.finish (b : ScheduleBuilder) (requireAllSeeds : Bool) :
    Except TournamentError TournamentSchedule := do
  reject (requireAllSeeds = true ∧ b.seedIndex ≠ b.spec.gameSeedCommitments.length)
    .extraGameSeeds
  return ⟨scheduleSchemaVersion, b.spec.tournamentId, b.formatIdentity, b.series,
    b.scheduledMatches, b.byes⟩

end Builder

section Static

/-- One table of a round: the slots at the same distance from both ends. -/
def circleTable (slots : List (Option String)) (acc : RoundPairings) (table : Nat) :
    RoundPairings :=
  match (slots[table]?).join, (slots[slots.length - 1 - table]?).join with
  | some first, some second => { acc with pairs := acc.pairs ++ [(first, second)] }
  | some entrant, none => { acc with bye := some entrant }
  | none, some entrant => { acc with bye := some entrant }
  | none, none => acc

def circleRound (slots : List (Option String)) : RoundPairings :=
  (List.range (slots.length / 2)).foldl (circleTable slots) ⟨[], none⟩

/-- The last slot is taken out and put back in second place. -/
def nextSlots (slots : List (Option String)) : List (Option String) :=
  match slots.getLast? with
  | some last => slots.dropLast.insertIdx 1 last
  | none => slots

def circleSlots (entrants : List String) : List (Option String) :=
  if entrants.length % 2 = 0 then entrants.map some else entrants.map some ++ [none]

def circleRounds (entrants : List String) : List RoundPairings :=
  let slots := circleSlots entrants
  ((List.range (slots.length - 1)).foldl
    (fun (acc : List RoundPairings × List (Option String)) _ =>
      (acc.1 ++ [circleRound acc.2], nextSlots acc.2)) ([], slots)).1

def addStaticRound (orderedEntrants : List String) (roundCount cycle : Nat)
    (acc : ScheduleBuilder × SeatCounts) (entry : RoundPairings × Nat) :
    Except TournamentError (ScheduleBuilder × SeatCounts) := do
  let roundOffset ← fitU16 entry.2
  let rounds ← fitU16 roundCount
  let start ← fitU16 (cycle * rounds)
  let before ← fitU16 (start + roundOffset)
  let roundNumber ← fitU16 (before + 1)
  acc.1.addRound roundNumber (orientStaticRound orderedEntrants cycle entry.1) acc.2 true

/-- The complete schedule of a static format. -/
def TournamentSpec.schedule (platform : Platform) (spec : TournamentSpec) :
    Except TournamentError TournamentSchedule := do
  spec.validate
  let cycles ← okOr spec.format.staticCycles .swissProgressRequired
  let orderedEntrants := spec.orderedEntrantIds
  let rounds := circleRounds orderedEntrants
  let builder ← ScheduleBuilder.new platform spec 0 0
  let (builder, _) ← (List.range cycles).foldlM (fun acc cycle =>
    rounds.zipIdx.foldlM (addStaticRound orderedEntrants rounds.length cycle) acc)
    (builder, fun _ => (0, 0))
  builder.finish true

end Static

section Swiss

def validateSwissProgress (spec : TournamentSpec) (progress : SwissProgress) (rounds : Nat) :
    Except TournamentError Unit := do
  reject (rounds ≤ progress.completedRounds ∨
    progress.standings.length ≠ spec.entrants.length ∨
    spec.gameSeedCommitments.length < progress.nextSeedIndex) .invalidSwissProgress
  reject ((progress.standings.map (·.entrantId)).toFinset ≠
      (spec.entrants.map (·.entrantId)).toFinset ∨
    (progress.standings.map (·.entrantId)).toFinset.card ≠ progress.standings.length)
    .invalidSwissProgress

def TournamentSpec.seedOf (spec : TournamentSpec) (entrantId : String) : Nat :=
  ((spec.entrants.find? (·.entrantId = entrantId)).map (·.seedNumber)).getD 0

/-- Match points, spread and wins from the highest down, then seed and
identifier from the lowest up. -/
def standingOrder (spec : TournamentSpec) (left right : SwissStanding) : Bool :=
  if left.matchPoints ≠ right.matchPoints then right.matchPoints < left.matchPoints
  else if left.spread ≠ right.spread then right.spread < left.spread
  else if left.wins ≠ right.wins then right.wins < left.wins
  else if spec.seedOf left.entrantId ≠ spec.seedOf right.entrantId then
    spec.seedOf left.entrantId < spec.seedOf right.entrantId
  else left.entrantId ≤ right.entrantId

def orderedSwissEntrants (spec : TournamentSpec) (progress : SwissProgress) : List String :=
  (progress.standings.insertionSort fun left right => standingOrder spec left right = true).map
    (·.entrantId)

/-- The last of the entrants without an earlier bye, or the last of all. -/
def chooseSwissBye (ordered : List String) (priorByes : Finset String) :
    Option String × List String :=
  if ordered.length % 2 = 0 then (none, ordered)
  else
    let index := ((List.range ordered.length).reverse.find? fun i =>
      ordered[i]?.any fun entrant => decide (entrant ∉ priorByes)).getD (ordered.length - 1)
    (ordered[index]?, ordered.eraseIdx index)

/-- Depth-first search for a pairing without rematches, nearest partner first. -/
def pairWithoutRematches (prior : Finset EntrantPairing) :
    List String → Option (List (String × String))
  | [] => some []
  | first :: rest =>
      (List.range rest.length).findSome? fun partnerIndex =>
        match rest[partnerIndex]? with
        | none => none
        | some partner =>
            if EntrantPairing.new first partner ∈ prior then none
            else (pairWithoutRematches prior (rest.eraseIdx partnerIndex)).map
              ((first, partner) :: ·)
termination_by ordered => ordered.length
decreasing_by
  have := List.length_eraseIdx_le rest partnerIndex
  simp only [List.length_cons]
  omega

/-- Neighbours in pairs; an entrant left over at the end is dropped. -/
def neighbours : List String → List (String × String)
  | first :: second :: rest => (first, second) :: neighbours rest
  | _ => []

def swissPairs (ordered : List String) (prior : Finset EntrantPairing)
    (policy : SwissRematchPolicy) : Except TournamentError (List (String × String)) :=
  match pairWithoutRematches prior ordered with
  | some pairs => .ok pairs
  | none =>
      if policy = .allowWhenRequired then .ok (neighbours ordered)
      else .error .swissPairingUnavailable

/-- Recorded seat counts, the last entry of an entrant standing for it. -/
def recordedBalance (recorded : List SeatBalance) : SeatCounts :=
  recorded.foldl (fun balance value =>
    Function.update balance value.entrantId (value.seatOneGames, value.seatTwoGames))
    fun _ => (0, 0)

/-- Exactly the next round of a Swiss format. -/
def TournamentSpec.scheduleSwissRound (platform : Platform) (spec : TournamentSpec)
    (progress : SwissProgress) : Except TournamentError TournamentSchedule := do
  spec.validate
  match spec.format with
  | .swiss rounds _ rematches =>
      validateSwissProgress spec progress rounds
      let ordered := orderedSwissEntrants spec progress
      let (bye, active) := chooseSwissBye ordered progress.priorByes
      let pairs ← swissPairs active progress.priorPairings rematches
      let roundNumber ← fitU16 (progress.completedRounds + 1)
      let builder ← ScheduleBuilder.new platform spec progress.nextSeedIndex
        progress.nextMatchSequence
      let (builder, _) ← builder.addRound roundNumber ⟨pairs, bye⟩
        (recordedBalance progress.seatBalance) false
      builder.finish false
  | _ => .error .invalidSwissProgress

end Swiss

end WordArena.Tournament
