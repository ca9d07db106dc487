import WordArena.Library.Tally
import WordArena.Statistics.Aggregate

/-! Aggregation does not depend on the order in which observations arrive or on how often
each does. The accumulator holds the matching observations under their sources, and all
that is reported is computed from them in the order of the sources. -/
namespace WordArena.Statistics

open Fallible Tally

section Sums

theorem checkedAdd_value {left right sum : Nat} (h : checkedAdd left right = .ok sum) :
    sum = left + right := by
  unfold checkedAdd at h
  split at h
  · exact (Except.ok.inj h).symm
  · cases h

theorem checkedAddSigned_value {left right sum : Int} (h : checkedAddSigned left right = .ok sum) :
    sum = left + right := by
  rw [checkedAddSigned, okOr_eq_ok, Checked.addI64_eq_some] at h
  exact h.2

def PremiumUse.plus (a b : PremiumUse) : PremiumUse :=
  ⟨a.doubleLetter + b.doubleLetter, a.tripleLetter + b.tripleLetter,
    a.doubleWord + b.doubleWord, a.tripleWord + b.tripleWord⟩

theorem addPremiumCounts_value {target value next : PremiumUse}
    (h : addPremiumCounts target value = .ok next) : next = target.plus value := by
  simp only [addPremiumCounts, bind_eq_ok, pure_eq_ok] at h
  obtain ⟨_, hOne, _, hTwo, _, hThree, _, hFour, rfl⟩ := h
  rw [checkedAdd_value hOne, checkedAdd_value hTwo, checkedAdd_value hThree,
    checkedAdd_value hFour]
  rfl

theorem addFrequency_value {words next : Std.ExtTreeMap String Nat} {entry : String × Nat}
    (h : addFrequency words entry = .ok next) : next = bump words entry := by
  simp only [addFrequency, bind_eq_ok, pure_eq_ok] at h
  obtain ⟨count, hCount, rfl⟩ := h
  rw [checkedAdd_value hCount]
  rfl

/-- The exact sums after one more observation. -/
def Totals.plus (t : Totals) (o : StatisticsObservation) : Totals where
  games := t.games + o.games
  wins := t.wins + o.wins
  losses := t.losses + o.losses
  ties := t.ties + o.ties
  scoreFor := t.scoreFor + o.scoreFor
  scoreAgainst := t.scoreAgainst + o.scoreAgainst
  spread := t.spread + o.spread
  scoringMoves := t.scoringMoves + o.scoringMoves
  moveScore := t.moveScore + o.moveScore
  bingos := t.bingos + o.bingos
  invalidActions := t.invalidActions + o.invalidActions
  passes := t.passes + o.passes
  exchanges := t.exchanges + o.exchanges
  premiumUse := t.premiumUse.plus o.premiumUse
  words := o.wordFrequencies.foldl bump t.words
  latencyTotal := t.latencyTotal ++ [o.turnLatencyTotalMs]
  latencySamples := t.latencySamples ++ [o.turnLatencySamples]
  tools := t.tools ++ [o.toolCalls]
  inputTokens := t.inputTokens ++ [o.inputTokens]
  outputTokens := t.outputTokens ++ [o.outputTokens]
  costs := t.costs ++ [o.costMicrousd]

/-- Checked sums that succeed are exact. -/
theorem Totals.add_value {t next : Totals} {o : StatisticsObservation} (h : t.add o = .ok next) :
    next = t.plus o := by
  simp only [Totals.add, bind_eq_ok, pure_eq_ok] at h
  obtain ⟨_, hGames, _, hWins, _, hLosses, _, hTies, _, hFor, _, hAgainst, _, hSpread, h⟩ := h
  obtain ⟨_, hMoves, _, hScore, _, hBingos, _, hInvalid, _, hPasses, _, hExchanges, h⟩ := h
  obtain ⟨_, hPremium, _, hWords, rfl⟩ := h
  rw [checkedAdd_value hGames, checkedAdd_value hWins, checkedAdd_value hLosses,
    checkedAdd_value hTies, checkedAddSigned_value hFor, checkedAddSigned_value hAgainst,
    checkedAddSigned_value hSpread, checkedAdd_value hMoves, checkedAdd_value hScore,
    checkedAdd_value hBingos, checkedAdd_value hInvalid, checkedAdd_value hPasses,
    checkedAdd_value hExchanges, addPremiumCounts_value hPremium,
    foldlM_value (fun _ _ _ => addFrequency_value) hWords]
  rfl

end Sums

section Metrics

/-- What a group of sourced values amounts to: nothing when a value is missing, an estimate
when one of them is, and else their exact sum. -/
structure Pooled (parts : List SourcedStatistic) (s : SourcedStatistic) : Prop where
  unavailable : s.availability = .unavailable ↔
    parts = [] ∨ ∃ part ∈ parts, part.availability = .unavailable
  estimated : s.availability ≠ .unavailable →
    (s.availability = .estimated ↔ ∃ part ∈ parts, part.availability = .estimated)
  value : s.value = if s.availability = .unavailable then none
    else some (parts.map (·.value.getD 0)).sum

theorem addMetric_value {sum next : Nat} {metric : SourcedStatistic}
    (h : addMetric sum metric = .ok next) : next = sum + metric.value.getD 0 := by
  simp only [addMetric, bind_eq_ok, okOr_eq_ok] at h
  obtain ⟨value, hValue, hSum⟩ := h
  rw [checkedAdd_value hSum, hValue, Option.getD_some]

theorem combineMetrics_pooled {metrics : List SourcedStatistic} {s : SourcedStatistic}
    (h : combineMetrics metrics = .ok s) : Pooled metrics s := by
  simp only [combineMetrics, List.any_eq_true, beq_iff_eq] at h
  split at h
  · rename_i hMissing
    cases h
    exact ⟨by simp [SourcedStatistic.unavailable, hMissing], by simp [SourcedStatistic.unavailable],
      by simp [SourcedStatistic.unavailable]⟩
  · rename_i hThere
    simp only [bind_eq_ok, pure_eq_ok] at h
    obtain ⟨value, hValue, rfl⟩ := h
    have hSum := foldlM_value (fun _ _ _ => addMetric_value) hValue
    have hTotal := foldl_sum (fun sum : Nat => sum)
      (fun metric : SourcedStatistic => metric.value.getD 0) (fun _ _ => rfl) metrics 0
    rw [hTotal, Nat.zero_add] at hSum
    by_cases hEstimate : ∃ part ∈ metrics, part.availability = .estimated
    · simp only [hEstimate, if_true]
      exact ⟨by simp [SourcedStatistic.estimated, hThere], by simpa [SourcedStatistic.estimated],
        by simp [SourcedStatistic.estimated, hSum]⟩
    · simp only [hEstimate, if_false]
      exact ⟨by simp [SourcedStatistic.exact, hThere],
        by simpa [SourcedStatistic.exact] using hEstimate,
        by simp [SourcedStatistic.exact, hSum]⟩

end Metrics

section Accumulator

variable {filter : StatisticsFilter} {observations : List StatisticsObservation}

/-- An accumulator collects the observations that match its filter. -/
theorem StatisticsAccumulator.add_eq_ok
    (m : Std.ExtTreeMap String StatisticsObservation) (o : StatisticsObservation)
    (next : StatisticsAccumulator) :
    StatisticsAccumulator.add ⟨filter, m⟩ o = .ok next ↔ validateObservation o = .ok () ∧
      ∃ held, Collects StatisticsObservation.sourceId (fun o => filter.matches o.scope = true) m o
        held ∧ next = ⟨filter, held⟩ := by
  simp only [StatisticsAccumulator.add, bind_eq_ok, Collects, Unique.exists_iff]
  apply and_congr_right
  intro _
  cases hMatch : filter.matches o.scope with
  | false => simp [eq_comm (a := next)]
  | true =>
      cases hHeld : m[o.sourceId]? with
      | none => simp [eq_comm (a := next)]
      | some existing => by_cases hSame : existing = o <;> simp [hSame, eq_comm (a := next)]

theorem aggregateStatistics_eq_ok {result : OperatorStatistics} :
    aggregateStatistics filter observations = .ok result ↔
      filter.validate = .ok () ∧ (∀ o ∈ observations, validateObservation o = .ok ()) ∧
      ∃ m, Collected StatisticsObservation.sourceId (fun o => filter.matches o.scope = true)
        observations m ∧ StatisticsAccumulator.operator ⟨filter, m⟩ = .ok result := by
  have hLoop : ∀ t, observations.foldlM StatisticsAccumulator.add ⟨filter, ∅⟩ = .ok t ↔
      (∀ o ∈ observations, validateObservation o = .ok ()) ∧
      ∃ m, Collected StatisticsObservation.sourceId (fun o => filter.matches o.scope = true)
        observations m ∧ t = ⟨filter, m⟩ :=
    fun t => foldlM_collects (StatisticsAccumulator.mk filter) StatisticsAccumulator.add_eq_ok
  simp only [aggregateStatistics, StatisticsAccumulator.new, bind_eq_ok, pure_eq_ok]
  constructor
  · intro ⟨_, ⟨_, hFilter, rfl⟩, a, hAdded, hEnd⟩
    obtain ⟨hValid, m, hHeld, rfl⟩ := (hLoop a).mp hAdded
    exact ⟨hFilter, hValid, m, hHeld, hEnd⟩
  · intro ⟨hFilter, hValid, m, hHeld, hEnd⟩
    exact ⟨_, ⟨(), hFilter, rfl⟩, _, (hLoop _).mpr ⟨hValid, m, hHeld, rfl⟩, hEnd⟩

end Accumulator
section Results

variable {filter : StatisticsFilter} {observations kept : List StatisticsObservation}

/-- The matching observations, one for each source and in the order of the sources. -/
structure Sources (filter : StatisticsFilter) (observations kept : List StatisticsObservation) :
    Prop where
  mem : ∀ o, o ∈ kept ↔ o ∈ observations ∧ filter.matches o.scope = true
  ordered : (kept.map (·.sourceId)).Pairwise fun a b => compare a b = .lt

/-- Every counter is an exact sum over the observations and every rate is computed from
such sums. -/
structure Sums (kept : List StatisticsObservation) (r : PublicStatistics) : Prop where
  games : r.games = (kept.map (·.games)).sum
  wins : r.wins = (kept.map (·.wins)).sum
  losses : r.losses = (kept.map (·.losses)).sum
  ties : r.ties = (kept.map (·.ties)).sum
  winRate : ratio r.wins r.games rateScale = .ok r.winRateMillionths
  scoreFor : r.scoreFor = (kept.map (·.scoreFor)).sum
  scoreAgainst : r.scoreAgainst = (kept.map (·.scoreAgainst)).sum
  spread : r.spread = (kept.map (·.spread)).sum
  scoringMoves : r.scoringMoves = (kept.map (·.scoringMoves)).sum
  averageMoveScore : ratio (kept.map (·.moveScore)).sum r.scoringMoves 1000 =
    .ok r.averageMoveScoreMilli
  bingos : r.bingos = (kept.map (·.bingos)).sum
  invalidActions : r.invalidActions = (kept.map (·.invalidActions)).sum
  passes : r.passes = (kept.map (·.passes)).sum
  exchanges : r.exchanges = (kept.map (·.exchanges)).sum
  doubleLetter : r.premiumUse.doubleLetter = (kept.map (·.premiumUse.doubleLetter)).sum
  tripleLetter : r.premiumUse.tripleLetter = (kept.map (·.premiumUse.tripleLetter)).sum
  doubleWord : r.premiumUse.doubleWord = (kept.map (·.premiumUse.doubleWord)).sum
  tripleWord : r.premiumUse.tripleWord = (kept.map (·.premiumUse.tripleWord)).sum
  latency : ∃ total samples, Pooled (kept.map (·.turnLatencyTotalMs)) total ∧
    Pooled (kept.map (·.turnLatencySamples)) samples ∧
    averageMetric total samples = .ok r.averageTurnLatencyMs
  toolCalls : Pooled (kept.map (·.toolCalls)) r.toolCalls
  inputTokens : Pooled (kept.map (·.inputTokens)) r.inputTokens
  outputTokens : Pooled (kept.map (·.outputTokens)) r.outputTokens
  costMicrousd : Pooled (kept.map (·.costMicrousd)) r.costMicrousd

/-- A word is listed when an observation has it, with the exact sum of its uses. -/
structure Frequencies (kept : List StatisticsObservation) (words : Std.ExtTreeMap String Nat) :
    Prop where
  count : ∀ word, words.getD word 0 = (kept.map (counted ·.wordFrequencies word)).sum
  mem : ∀ word, word ∈ words ↔ ∃ o ∈ kept, word ∈ o.wordFrequencies.map Prod.fst

/-- The exact sums over a list of observations. -/
def Totals.of (kept : List StatisticsObservation) : Totals := kept.foldl Totals.plus .zero

theorem Totals.of_sum {M : Type} [AddMonoid M] (field : Totals → M)
    (measure : StatisticsObservation → M)
    (hStep : ∀ t o, field (t.plus o) = field t + measure o) (hZero : field .zero = 0) :
    field (Totals.of kept) = (kept.map measure).sum := by
  rw [Totals.of, foldl_sum field measure hStep, hZero, zero_add]

theorem Totals.of_parts {γ : Type} (field : Totals → List γ) (part : StatisticsObservation → γ)
    (hStep : ∀ t o, field (t.plus o) = field t ++ [part o]) (hZero : field .zero = []) :
    field (Totals.of kept) = kept.map part := by
  rw [Totals.of, foldl_parts field part hStep, hZero, List.nil_append]

theorem Totals.mem_words {word : String} {t : Totals} :
    word ∈ (kept.foldl Totals.plus t).words ↔
      word ∈ t.words ∨ ∃ o ∈ kept, word ∈ o.wordFrequencies.map Prod.fst := by
  induction kept generalizing t with
  | nil => simp
  | cons o kept ih =>
      have hFirst : word ∈ (t.plus o).words ↔
          word ∈ t.words ∨ word ∈ o.wordFrequencies.map Prod.fst :=
        mem_foldl_bump o.wordFrequencies t.words word
      rw [List.foldl_cons, ih, hFirst, or_assoc, List.exists_mem_cons_iff]

theorem Totals.of_frequencies : Frequencies kept (Totals.of kept).words where
  count word := Totals.of_sum (·.words.getD word 0) (counted ·.wordFrequencies word)
    (fun t o => getD_foldl_bump o.wordFrequencies t.words word) rfl
  mem word := by
    rw [Totals.of, Totals.mem_words]
    simp [Totals.zero]

theorem aggregateValues_accounts {values : AggregateValues}
    (h : aggregateValues filter kept = .ok values) :
    Sums kept values.publicStatistics ∧ Frequencies kept values.words ∧
      values.publicStatistics.vocabularySize = values.words.size := by
  simp only [aggregateValues, bind_eq_ok, pure_eq_ok] at h
  obtain ⟨t, hLoop, total, hTotal, samples, hSamples, _, hLatency, _, hRate, _, hAverage, h⟩ := h
  obtain ⟨_, _, _, hTools, _, hInput, _, hOutput, _, hCost, rfl⟩ := h
  obtain rfl : t = Totals.of kept := foldlM_value (fun _ _ _ => Totals.add_value) hLoop
  have hScore : (Totals.of kept).moveScore = (kept.map (·.moveScore)).sum :=
    Totals.of_sum _ _ (fun _ _ => rfl) rfl
  rw [Totals.of_parts (·.latencyTotal) (·.turnLatencyTotalMs) (fun _ _ => rfl) rfl] at hTotal
  rw [Totals.of_parts (·.latencySamples) (·.turnLatencySamples) (fun _ _ => rfl) rfl] at hSamples
  rw [Totals.of_parts (·.tools) (·.toolCalls) (fun _ _ => rfl) rfl] at hTools
  rw [Totals.of_parts (·.inputTokens) (·.inputTokens) (fun _ _ => rfl) rfl] at hInput
  rw [Totals.of_parts (·.outputTokens) (·.outputTokens) (fun _ _ => rfl) rfl] at hOutput
  rw [Totals.of_parts (·.costs) (·.costMicrousd) (fun _ _ => rfl) rfl] at hCost
  rw [hScore] at hAverage
  refine ⟨?_, Totals.of_frequencies, rfl⟩
  exact {
    games := Totals.of_sum (·.games) (·.games) (fun _ _ => rfl) rfl
    wins := Totals.of_sum (·.wins) (·.wins) (fun _ _ => rfl) rfl
    losses := Totals.of_sum (·.losses) (·.losses) (fun _ _ => rfl) rfl
    ties := Totals.of_sum (·.ties) (·.ties) (fun _ _ => rfl) rfl
    winRate := hRate
    scoreFor := Totals.of_sum (·.scoreFor) (·.scoreFor) (fun _ _ => rfl) rfl
    scoreAgainst := Totals.of_sum (·.scoreAgainst) (·.scoreAgainst) (fun _ _ => rfl) rfl
    spread := Totals.of_sum (·.spread) (·.spread) (fun _ _ => rfl) rfl
    scoringMoves := Totals.of_sum (·.scoringMoves) (·.scoringMoves) (fun _ _ => rfl) rfl
    averageMoveScore := hAverage
    bingos := Totals.of_sum (·.bingos) (·.bingos) (fun _ _ => rfl) rfl
    invalidActions := Totals.of_sum (·.invalidActions) (·.invalidActions) (fun _ _ => rfl) rfl
    passes := Totals.of_sum (·.passes) (·.passes) (fun _ _ => rfl) rfl
    exchanges := Totals.of_sum (·.exchanges) (·.exchanges) (fun _ _ => rfl) rfl
    doubleLetter := Totals.of_sum (·.premiumUse.doubleLetter) (·.premiumUse.doubleLetter) (fun _ _ => rfl) rfl
    tripleLetter := Totals.of_sum (·.premiumUse.tripleLetter) (·.premiumUse.tripleLetter) (fun _ _ => rfl) rfl
    doubleWord := Totals.of_sum (·.premiumUse.doubleWord) (·.premiumUse.doubleWord) (fun _ _ => rfl) rfl
    tripleWord := Totals.of_sum (·.premiumUse.tripleWord) (·.premiumUse.tripleWord) (fun _ _ => rfl) rfl
    latency := ⟨total, samples, combineMetrics_pooled hTotal, combineMetrics_pooled hSamples,
      hLatency⟩
    toolCalls := combineMetrics_pooled hTools
    inputTokens := combineMetrics_pooled hInput
    outputTokens := combineMetrics_pooled hOutput
    costMicrousd := combineMetrics_pooled hCost }

/-- What an accumulator collected is a list of sources, whose identifiers it reports. -/
theorem sources_of_collected {m : Std.ExtTreeMap String StatisticsObservation}
    (h : Collected StatisticsObservation.sourceId (fun o => filter.matches o.scope = true)
      observations m) :
    Sources filter observations (StatisticsAccumulator.values ⟨filter, m⟩) ∧
      (StatisticsAccumulator.values ⟨filter, m⟩).map (·.sourceId) = m.keys := by
  have hKeys : (StatisticsAccumulator.values ⟨filter, m⟩).map (·.sourceId) = m.keys := h.map_key
  refine ⟨⟨fun o => h.mem_values, ?_⟩, hKeys⟩
  rw [hKeys]
  exact Std.ExtTreeMap.ordered_keys

end Results

section Independence

/-- Aggregation depends on the set of the observations only, and a successful one accounts
for exactly the distinct matching sources. -/
theorem aggregation_accounts (filter : StatisticsFilter)
    (observations : List StatisticsObservation) :
    (∀ others : List StatisticsObservation, (∀ o, o ∈ others ↔ o ∈ observations) →
      ∀ result, aggregateStatistics filter others = .ok result ↔
        aggregateStatistics filter observations = .ok result) ∧
    ∀ result, aggregateStatistics filter observations = .ok result →
      ∃ kept, Sources filter observations kept ∧
        result.sourceIds = kept.map (·.sourceId) ∧
        Sums kept result.publicStatistics ∧
        Frequencies kept result.wordFrequencies ∧
        result.publicStatistics.vocabularySize = result.wordFrequencies.size := by
  constructor
  · intro others hSame result
    simp only [aggregateStatistics_eq_ok, hSame, Collected.congr hSame]
  · intro result h
    obtain ⟨-, -, m, hHeld, hEnd⟩ := aggregateStatistics_eq_ok.mp h
    obtain ⟨hSources, hKeys⟩ := sources_of_collected hHeld
    simp only [StatisticsAccumulator.operator, bind_eq_ok, pure_eq_ok] at hEnd
    obtain ⟨values, hValues, rfl⟩ := hEnd
    obtain ⟨hSums, hFrequencies, hSize⟩ := aggregateValues_accounts hValues
    exact ⟨_, hSources, hKeys.symm, hSums, hFrequencies, hSize⟩

def anyone : StatisticsFilter :=
  ⟨none, none, none, none, none, none, none, none, none, none, none, none⟩

/-- The observation of a seat that won one game with one word. -/
def demoObservation (sourceId word : String) : StatisticsObservation where
  schemaVersion := 1
  sourceId := sourceId
  scope :=
    { language := "en"
      rulesetId := "r"
      rulesetSha256 := "0000000000000000000000000000000000000000000000000000000000000000"
      packId := "p"
      packVersion := "1"
      packSha256 := "0000000000000000000000000000000000000000000000000000000000000000"
      agentManifestSha256 := none
      tournamentId := none
      matchId := "m"
      gameId := "g"
      entrantId := "e"
      seatNumber := 1
      finishedAt := 0 }
  games := 1
  wins := 1
  losses := 0
  ties := 0
  scoreFor := 6
  scoreAgainst := -2
  spread := 8
  scoringMoves := 1
  moveScore := 6
  bingos := 0
  invalidActions := 0
  passes := 1
  exchanges := 0
  premiumUse := ⟨0, 0, 1, 0⟩
  wordFrequencies := [(word, 1)]
  turnLatencyTotalMs := .exact 40
  turnLatencySamples := .exact 2
  toolCalls := .exact 2
  inputTokens := .estimated 9
  outputTokens := .unavailable
  costMicrousd := .unavailable

/-- Two sources, one of which arrives twice. -/
theorem demo_aggregation_accounts :
    (∀ result,
      aggregateStatistics anyone
          [demoObservation "a" "CAT", demoObservation "b" "DOG", demoObservation "a" "CAT"] =
        .ok result ↔
      aggregateStatistics anyone [demoObservation "b" "DOG", demoObservation "a" "CAT"] =
        .ok result) ∧
    ∃ result, aggregateStatistics anyone [demoObservation "b" "DOG", demoObservation "a" "CAT"] =
        .ok result ∧ result.sourceIds = ["a", "b"] ∧ result.publicStatistics.spread = 16 ∧
      ∃ kept, Sources anyone [demoObservation "b" "DOG", demoObservation "a" "CAT"] kept ∧
        Sums kept result.publicStatistics := by
  have hBoth := aggregation_accounts anyone [demoObservation "b" "DOG", demoObservation "a" "CAT"]
  have hRuns : ((aggregateStatistics anyone
      [demoObservation "b" "DOG", demoObservation "a" "CAT"]).toOption.any fun result =>
        result.sourceIds == ["a", "b"] && result.publicStatistics.spread == 16) = true := by
    decide +kernel
  constructor
  · apply hBoth.1
    simp
  · generalize hEnd : aggregateStatistics anyone _ = ending at hRuns
    cases ending with
    | error e => cases hRuns
    | ok result =>
        obtain ⟨kept, hSources, -, hSums, -⟩ := hBoth.2 result hEnd
        simp only [Except.toOption, Option.any_some, Bool.and_eq_true, beq_iff_eq] at hRuns
        exact ⟨result, rfl, hRuns.1, hRuns.2, kept, hSources, hSums⟩

end Independence

end WordArena.Statistics
