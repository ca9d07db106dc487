import WordArena.Statistics.Model

/-! The outcome of a derivation taken apart: the checks, the loop over the events, and
the columns that neither the loop nor the telemetry touches. -/
namespace WordArena.Statistics

open Fallible WordArena.Engine WordArena.Application

section Kept

/-- Two observations of the same seat and the same result. -/
structure Kept (a b : StatisticsObservation) : Prop where
  schemaVersion : b.schemaVersion = a.schemaVersion
  sourceId : b.sourceId = a.sourceId
  scope : b.scope = a.scope
  games : b.games = a.games
  wins : b.wins = a.wins
  losses : b.losses = a.losses
  ties : b.ties = a.ties
  scoreFor : b.scoreFor = a.scoreFor
  scoreAgainst : b.scoreAgainst = a.scoreAgainst
  spread : b.spread = a.spread

theorem Kept.refl (a : StatisticsObservation) : Kept a a :=
  ⟨rfl, rfl, rfl, rfl, rfl, rfl, rfl, rfl, rfl, rfl⟩

theorem Kept.trans {a b c : StatisticsObservation} (h : Kept a b) (h' : Kept b c) : Kept a c :=
  ⟨h'.schemaVersion.trans h.schemaVersion, h'.sourceId.trans h.sourceId, h'.scope.trans h.scope,
    h'.games.trans h.games, h'.wins.trans h.wins, h'.losses.trans h.losses, h'.ties.trans h.ties,
    h'.scoreFor.trans h.scoreFor, h'.scoreAgainst.trans h.scoreAgainst, h'.spread.trans h.spread⟩

variable {o next : StatisticsObservation}

theorem countMove_kept {board : BoardDefinition} {placements : List Placement}
    {words : List FormedWord} {bingoBonus score : UInt32}
    (h : countMove board placements words bingoBonus score o = .ok next) : Kept o next := by
  obtain ⟨_, -, h⟩ := bind_eq_ok.mp h
  obtain ⟨_, -, h⟩ := bind_eq_ok.mp h
  obtain ⟨_, -, h⟩ := bind_eq_ok.mp h
  obtain ⟨_, -, h⟩ := bind_eq_ok.mp h
  obtain ⟨_, -, h⟩ := bind_eq_ok.mp h
  cases pure_eq_ok.mp h
  constructor <;> rfl

theorem countPass_kept (h : countPass o = .ok next) : Kept o next := by
  obtain ⟨_, -, h⟩ := bind_eq_ok.mp h
  cases pure_eq_ok.mp h
  constructor <;> rfl

theorem countExchange_kept (h : countExchange o = .ok next) : Kept o next := by
  obtain ⟨_, -, h⟩ := bind_eq_ok.mp h
  cases pure_eq_ok.mp h
  constructor <;> rfl

theorem finishObservation_kept {input : MatchStatisticsInput} {index : Fin 2}
    (h : finishObservation input index o = .ok next) : Kept o next := by
  rw [finishObservation] at h
  obtain ⟨_, -, h⟩ := bind_eq_ok.mp h
  cases pure_eq_ok.mp h
  constructor <;> rfl

end Kept

section Loop

variable {observations next : Vector StatisticsObservation 2}

theorem updateObservation_eq_ok {index : Nat}
    {change : StatisticsObservation → Except StatisticsError StatisticsObservation} :
    updateObservation index change observations = .ok next ↔
      ∃ (h : index < 2) (o : StatisticsObservation),
        change (observations.get ⟨index, h⟩) = .ok o ∧ next = observations.set index o := by
  by_cases h : index < 2
  · rw [updateObservation, dif_pos h]
    simp only [bind_eq_ok, mapErr_eq_ok, pure_eq_ok]
    constructor
    · rintro ⟨o, hChange, hNext⟩
      exact ⟨h, o, hChange, hNext.symm⟩
    · rintro ⟨_, o, hChange, hNext⟩
      exact ⟨o, hChange, hNext.symm⟩
  · rw [updateObservation, dif_neg h]
    constructor
    · simp
    · rintro ⟨hIndex, -⟩
      exact absurd hIndex h

/-- A change keeps the frame of every observation when it keeps that of its own. -/
theorem updateObservation_kept {index : Nat}
    {change : StatisticsObservation → Except StatisticsError StatisticsObservation}
    (hChange : ∀ {o o'}, change o = .ok o' → Kept o o')
    (h : updateObservation index change observations = .ok next) (k : Fin 2) :
    Kept (observations.get k) (next.get k) := by
  obtain ⟨hIndex, o, hNext, rfl⟩ := updateObservation_eq_ok.mp h
  have hGet : (observations.set index o).get k =
      if index = k.val then o else observations.get k := Vector.getElem_set ..
  rw [hGet]
  split_ifs with hSame
  · have hk : k = ⟨index, hIndex⟩ := Fin.ext hSame.symm
    rw [hk]
    exact hChange hNext
  · exact Kept.refl _

theorem countEvent_kept {ruleset : Ruleset} {event : GameEvent}
    (h : countEvent ruleset observations event = .ok next) (k : Fin 2) :
    Kept (observations.get k) (next.get k) := by
  unfold countEvent at h
  split at h
  · exact updateObservation_kept countMove_kept h k
  · exact updateObservation_kept countPass_kept h k
  · exact updateObservation_kept countExchange_kept h k
  · cases h
    exact Kept.refl _
  · cases h
    exact Kept.refl _

theorem countEvents_kept {ruleset : Ruleset} {events : List GameEvent}
    (h : events.foldlM (countEvent ruleset) observations = .ok next) (k : Fin 2) :
    Kept (observations.get k) (next.get k) :=
  foldlM_invariant (fun counted => Kept (observations.get k) (counted.get k)) h (Kept.refl _)
    fun _ _ _ _ hKept hStep => hKept.trans (countEvent_kept hStep k)

end Loop

section Derive

variable {platform : Platform} {input : MatchStatisticsInput}
  {derived : Vector StatisticsObservation 2}

theorem emptyObservations_get (ruleset : Ruleset) (result : GameResult) (k : Fin 2) :
    (emptyObservations platform input ruleset result).get k =
      emptyObservation platform input ruleset result k := by
  match k with
  | 0 => rfl
  | 1 => rfl

theorem derive_eq_ok : input.derive platform = .ok derived ↔
    ∃ ruleset result counted, input.validate platform = .ok (ruleset, result) ∧
      input.events.foldlM (countEvent ruleset)
        (emptyObservations platform input ruleset result) = .ok counted ∧
      ∀ k : Fin 2, finishObservation input k (counted.get k) = .ok (derived.get k) := by
  simp only [MatchStatisticsInput.derive, bind_eq_ok, mapErr_eq_ok, pure_eq_ok]
  constructor
  · rintro ⟨⟨ruleset, result⟩, hValid, counted, hCounted, one, hOne, two, hTwo, rfl⟩
    refine ⟨ruleset, result, counted, hValid, hCounted, fun k => ?_⟩
    revert k
    exact Fin.forall_fin_two.mpr ⟨hOne, hTwo⟩
  · rintro ⟨ruleset, result, counted, hValid, hCounted, hFinish⟩
    refine ⟨(ruleset, result), hValid, counted, hCounted, derived.get 0, hFinish 0, derived.get 1,
      hFinish 1, ?_⟩
    refine Vector.ext fun i hi => ?_
    obtain rfl | rfl : i = 0 ∨ i = 1 := by omega
    · rfl
    · rfl

/-- A derived observation keeps what it was created with. -/
theorem derive_kept (h : input.derive platform = .ok derived) :
    ∃ ruleset result, input.validate platform = .ok (ruleset, result) ∧
      ∀ k : Fin 2, Kept (emptyObservation platform input ruleset result k) (derived.get k) := by
  obtain ⟨ruleset, result, counted, hValid, hCounted, hFinish⟩ := derive_eq_ok.mp h
  refine ⟨ruleset, result, hValid, fun k => ?_⟩
  rw [← emptyObservations_get]
  exact (countEvents_kept hCounted k).trans (finishObservation_kept (hFinish k))

end Derive

end WordArena.Statistics
