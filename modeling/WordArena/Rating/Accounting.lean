import Mathlib.Algebra.BigOperators.Group.List.Basic
import Mathlib.Data.List.Perm.Basic
import WordArena.Library.Ordered
import WordArena.Rating.Model

/-! The accounts of a rating period: what validation accepts, and how each game is
entered once for either side. -/
namespace WordArena.Rating

open Fallible WordArena.Engine WordArena.Application

section Spec

variable (checks : PeriodChecks) (period : RatingPeriod)

/-- The rating that an entrant brings into the period. -/
def RatingPeriod.previousOf (entrantId : String) : Option RatingValue :=
  (period.updates.find? (·.entrantId == entrantId)).map (·.previous)

/-- What one game makes of an entrant's opponents. -/
def opponentsOf (entrantId : String) (game : RatedMatchInput) : List RatingOpponent :=
  (if game.entrantOne = entrantId then
    (period.previousOf game.entrantTwo).toList.map (⟨·, game.scoreOneMillionths⟩) else []) ++
  (if game.entrantTwo = entrantId then
    (period.previousOf game.entrantOne).toList.map (⟨·, scoreScale - game.scoreOneMillionths⟩)
    else [])

/-- Ids, ratings and scores are well formed; games and entrants are distinct. -/
structure RatingPeriod.WellFormed : Prop where
  version : period.schemaVersion = ratingSchemaVersion
  periodId : checks.validId period.periodId = true
  pool : checks.validPool period.pool = true
  nonempty : period.updates ≠ []
  games : ∀ game ∈ period.games, checks.validGame game = true
  matchIds : (period.games.map (·.matchId)).Nodup
  previous : ∀ update ∈ period.updates, checks.validateRating update.previous = .ok ()
  entrantIds : ∀ update ∈ period.updates, checks.validId update.entrantId = true
  opponents : ∀ update ∈ period.updates, ∀ opponent ∈ update.opponents,
    checks.validOpponent opponent = true
  entrants : (period.updates.map (·.entrantId)).Nodup

/-- Both sides of every game are updated once, and the opponents of an entrant are those
of its games, in some order. -/
structure RatingPeriod.Accounted : Prop where
  entered : ∀ game ∈ period.games,
    (period.updates.map (·.entrantId)).count game.entrantOne = 1 ∧
      (period.updates.map (·.entrantId)).count game.entrantTwo = 1
  opponents : ∀ update ∈ period.updates,
    update.opponents.Perm (period.games.flatMap (opponentsOf period update.entrantId))

end Spec

section Sorting

theorem orderKey_injective : Function.Injective RatingOpponent.orderKey := by
  intro ⟨⟨rating, deviation, volatility⟩, score⟩ ⟨⟨rating', deviation', volatility'⟩, score'⟩ h
  simpa [RatingOpponent.orderKey, and_assoc] using h

/-- Sorted copies agree exactly when the lists do as multisets. -/
theorem sortOpponents_eq_iff {left right : List RatingOpponent} :
    sortOpponents left = sortOpponents right ↔ left.Perm right := by
  have hPerm : ∀ opponents : List RatingOpponent, (sortOpponents opponents).Perm opponents :=
    fun opponents => List.perm_insertionSort _ opponents
  have hSorted : ∀ opponents : List RatingOpponent, (sortOpponents opponents).Pairwise
      fun left right => left.orderKey ≤ right.orderKey := by
    intro opponents
    have : Std.Total fun left right : RatingOpponent => left.orderKey ≤ right.orderKey :=
      ⟨fun left right => le_total left.orderKey right.orderKey⟩
    have : IsTrans RatingOpponent fun left right => left.orderKey ≤ right.orderKey :=
      ⟨fun _ _ _ => le_trans⟩
    exact List.pairwise_insertionSort _ opponents
  constructor
  · intro hSame
    exact (hPerm left).symm.trans (hSame ▸ hPerm right)
  · intro h
    apply List.Perm.eq_of_pairwise _ (hSorted left) (hSorted right)
    · exact (hPerm left).trans (h.trans (hPerm right).symm)
    · intro a b _ _ hab hba
      exact orderKey_injective (le_antisymm hab hba)

end Sorting

section Loops

variable {checks : PeriodChecks} {period : RatingPeriod} {games : List RatedMatchInput}
  {expected last : ExpectedOpponents} {entrantId : String}

theorem checkGame_eq_ok {seen next : Std.TreeSet String} {game : RatedMatchInput} :
    checks.checkGame seen game = .ok next ↔
      (checks.validGame game = true ∧ game.matchId ∉ seen) ∧ next = seen.insert game.matchId := by
  rw [PeriodChecks.checkGame, bind_eq_ok]
  simp [eq_comm (a := next)]

/-- What the loop over the updates asks of each. -/
def PeriodChecks.ValidUpdate (checks : PeriodChecks) (update : RatingUpdateInput) : Prop :=
  checks.validateRating update.previous = .ok () ∧ checks.validId update.entrantId = true ∧
    ∀ opponent ∈ update.opponents, checks.validOpponent opponent = true

theorem checkUpdate_eq_ok {seen next : Std.TreeSet String} {update : RatingUpdateInput} :
    checks.checkUpdate seen update = .ok next ↔
      (checks.ValidUpdate update ∧ update.entrantId ∉ seen) ∧
        next = seen.insert update.entrantId := by
  simp only [PeriodChecks.checkUpdate, PeriodChecks.ValidUpdate, bind_eq_ok, reject_eq_ok,
    pure_eq_ok, not_or, Bool.not_eq_false, List.all_eq_true, Std.TreeSet.contains_iff_mem]
  constructor
  · rintro ⟨_, hRating, _, ⟨hId, hNew, hOpponents⟩, hNext⟩
    exact ⟨⟨⟨hRating, hId, hOpponents⟩, hNew⟩, hNext.symm⟩
  · rintro ⟨⟨⟨hRating, hId, hOpponents⟩, hNew⟩, hNext⟩
    exact ⟨(), hRating, (), ⟨hId, hNew, hOpponents⟩, hNext.symm⟩

/-- With distinct entrants, the map of previous ratings is the search for an entrant. -/
theorem previousRatings_get? (hEntrants : (period.updates.map (·.entrantId)).Nodup)
    (entrantId : String) :
    period.previousRatings.get? entrantId = period.previousOf entrantId := by
  have hKeys : ((period.updates.map fun update =>
      (update.entrantId, update.previous)).map Prod.fst).Nodup := by
    simpa [Function.comp_def] using hEntrants
  rw [RatingPeriod.previousOf]
  cases hFound : period.updates.find? (·.entrantId == entrantId) with
  | none =>
      apply (Ordered.ofList_eq_none hKeys).mpr
      simpa [List.find?_eq_none] using hFound
  | some update =>
      apply (Ordered.ofList_eq_some hKeys).mpr
      have hSame : update.entrantId = entrantId := by simpa using List.find?_some hFound
      exact List.mem_map.mpr ⟨update, List.mem_of_find?_eq_some hFound, by rw [hSame]⟩

theorem ExpectedOpponents.push_getD (expected : ExpectedOpponents) (entrant : String)
    (opponent : RatingOpponent) :
    (expected.push entrant opponent).getD entrantId [] =
      expected.getD entrantId [] ++ if entrant = entrantId then [opponent] else [] := by
  rw [ExpectedOpponents.push, Std.TreeMap.getD_insert]
  by_cases h : entrant = entrantId
  · simp [h]
  · simp [h]

/-- One game enters its opponents at the end of both lists. -/
theorem expectGame_eq_ok (hEntrants : (period.updates.map (·.entrantId)).Nodup)
    {game : RatedMatchInput} {next : ExpectedOpponents}
    (h : expectGame period.previousRatings expected game = .ok next) :
    next.getD entrantId [] = expected.getD entrantId [] ++ opponentsOf period entrantId game := by
  simp only [expectGame, bind_eq_ok, okOr_eq_ok, pure_eq_ok,
    previousRatings_get? hEntrants] at h
  obtain ⟨one, hOne, two, hTwo, rfl⟩ := h
  rw [ExpectedOpponents.push_getD, ExpectedOpponents.push_getD, List.append_assoc, opponentsOf,
    hOne, hTwo]
  rfl

/-- The loop over the games succeeds exactly when every entrant has an update. -/
theorem expectGames_succeeds (hEntrants : (period.updates.map (·.entrantId)).Nodup) :
    (∃ last, games.foldlM (expectGame period.previousRatings) expected = .ok last) ↔
      ∀ game ∈ games, (period.previousOf game.entrantOne).isSome = true ∧
        (period.previousOf game.entrantTwo).isSome = true := by
  induction games generalizing expected with
  | nil => simp [pure, Except.pure]
  | cons game games ih =>
      rw [List.forall_mem_cons, ← previousRatings_get? hEntrants, ← previousRatings_get? hEntrants,
        List.foldlM_cons]
      simp only [expectGame]
      cases hOne : period.previousRatings.get? game.entrantOne with
      | none => simp [okOr, bind, Except.bind]
      | some one =>
          cases hTwo : period.previousRatings.get? game.entrantTwo with
          | none => simp [okOr, bind, Except.bind]
          | some two =>
              simp only [okOr, ok_bind, pure, Except.pure, Option.isSome_some, and_self, true_and]
              exact ih

theorem expectGames_getD (hEntrants : (period.updates.map (·.entrantId)).Nodup)
    (h : games.foldlM (expectGame period.previousRatings) expected = .ok last) :
    last.getD entrantId [] =
      expected.getD entrantId [] ++ games.flatMap (opponentsOf period entrantId) := by
  induction games generalizing expected with
  | nil => cases pure_eq_ok.mp h; simp
  | cons game games ih =>
      rw [List.foldlM_cons, bind_eq_ok] at h
      obtain ⟨next, hNext, hRest⟩ := h
      rw [ih hRest, expectGame_eq_ok hEntrants hNext, List.append_assoc, List.flatMap_cons]

theorem takeExpected_eq_ok {left next : ExpectedOpponents} {update : RatingUpdateInput} :
    takeExpected left update = .ok next ↔
      update.opponents.Perm (left.getD update.entrantId []) ∧
        next = left.erase update.entrantId := by
  rw [takeExpected, bind_eq_ok]
  simp [sortOpponents_eq_iff, eq_comm (a := next)]

end Loops

section Accepted

variable {checks : PeriodChecks} {period : RatingPeriod}

/-- With distinct entrants, an entrant has a previous rating exactly when it has one
update. -/
theorem previousOf_isSome (hEntrants : (period.updates.map (·.entrantId)).Nodup)
    (entrantId : String) :
    (period.previousOf entrantId).isSome = true ↔
      (period.updates.map (·.entrantId)).count entrantId = 1 := by
  rw [List.Nodup.count hEntrants]
  simp [RatingPeriod.previousOf]

/-- Validation accepts exactly the well formed periods whose opponents are accounted. -/
theorem validateWith_eq_ok :
    period.validateWith checks = .ok () ↔ period.WellFormed checks ∧ period.Accounted := by
  have hGames : (∃ last, period.games.foldlM checks.checkGame ∅ = .ok last) ↔
      (∀ game ∈ period.games, checks.validGame game = true) ∧
        (∀ game ∈ period.games, game.matchId ∉ (∅ : Std.TreeSet String)) ∧
          (period.games.map (·.matchId)).Nodup := by
    apply Ordered.foldlM_seen_eq_ok
    intro seen game next
    exact checkGame_eq_ok
  have hUpdates : (∃ last, period.updates.foldlM checks.checkUpdate ∅ = .ok last) ↔
      (∀ update ∈ period.updates, checks.ValidUpdate update) ∧
        (∀ update ∈ period.updates, update.entrantId ∉ (∅ : Std.TreeSet String)) ∧
          (period.updates.map (·.entrantId)).Nodup := by
    apply Ordered.foldlM_seen_eq_ok
    intro seen update next
    exact checkUpdate_eq_ok
  have hTaken : (period.updates.map (·.entrantId)).Nodup → ∀ expected : ExpectedOpponents,
      (∃ last, period.updates.foldlM takeExpected expected = .ok last) ↔
        ∀ update ∈ period.updates,
          update.opponents.Perm (expected.getD update.entrantId []) := by
    intro hEntrants expected
    apply Ordered.foldlM_taken_eq_ok _ hEntrants
    intro left update next
    exact takeExpected_eq_ok
  simp only [RatingPeriod.validateWith, bind_eq_ok, reject_eq_ok, not_or, not_not,
    Bool.not_eq_false]
  constructor
  · rintro ⟨_, ⟨hVersion, hId, hPool, hSome⟩, seen, hSeen, seen', hSeen', expected, hExpected,
      last, hLast, _⟩
    obtain ⟨hGameOk, -, hMatchIds⟩ := hGames.mp ⟨seen, hSeen⟩
    obtain ⟨hUpdateOk, -, hEntrants⟩ := hUpdates.mp ⟨seen', hSeen'⟩
    have hEntered := (expectGames_succeeds hEntrants).mp ⟨expected, hExpected⟩
    have hPerm := (hTaken hEntrants expected).mp ⟨last, hLast⟩
    constructor
    · exact ⟨hVersion, hId, hPool, hSome, hGameOk, hMatchIds, fun update h => (hUpdateOk update h).1,
        fun update h => (hUpdateOk update h).2.1, fun update h => (hUpdateOk update h).2.2,
        hEntrants⟩
    · constructor
      · intro game hGame
        rw [← previousOf_isSome hEntrants, ← previousOf_isSome hEntrants]
        exact hEntered game hGame
      · intro update hUpdate
        simpa [expectGames_getD hEntrants hExpected] using hPerm update hUpdate
  · rintro ⟨hForm, hAccounted⟩
    obtain ⟨seen, hSeen⟩ := hGames.mpr ⟨hForm.games, by simp, hForm.matchIds⟩
    obtain ⟨seen', hSeen'⟩ := hUpdates.mpr ⟨fun update h => ⟨hForm.previous update h,
      hForm.entrantIds update h, hForm.opponents update h⟩, by simp, hForm.entrants⟩
    obtain ⟨expected, hExpected⟩ : ∃ expected,
        period.games.foldlM (expectGame period.previousRatings) ∅ = .ok expected := by
      apply (expectGames_succeeds hForm.entrants).mpr
      intro game hGame
      rw [previousOf_isSome hForm.entrants, previousOf_isSome hForm.entrants]
      exact hAccounted.entered game hGame
    obtain ⟨last, hLast⟩ := (hTaken hForm.entrants expected).mpr fun update hUpdate => by
      simpa [expectGames_getD hForm.entrants hExpected] using hAccounted.opponents update hUpdate
    exact ⟨(), ⟨hForm.version, hForm.periodId, hForm.pool, hForm.nonempty⟩, seen, hSeen, seen',
      hSeen', expected, hExpected, last, hLast, rfl⟩

end Accepted

section Entries

variable {checks : PeriodChecks} {period : RatingPeriod} {game : RatedMatchInput}
  {entrantId : String}

theorem previousOf_eq_some (hEntrants : (period.updates.map (·.entrantId)).Nodup)
    {rating : RatingValue} :
    period.previousOf entrantId = some rating ↔
      ∃ update ∈ period.updates, update.entrantId = entrantId ∧ update.previous = rating := by
  have hKeys : ((period.updates.map fun update =>
      (update.entrantId, update.previous)).map Prod.fst).Nodup := by
    simpa [Function.comp_def] using hEntrants
  rw [← previousRatings_get? hEntrants, RatingPeriod.previousRatings,
    Ordered.ofList_eq_some hKeys]
  simp

/-- The game is entered once for either side, and for nobody else; the two scores share
the scale. -/
def RatingPeriod.EnteredTwice (period : RatingPeriod) (game : RatedMatchInput) : Prop :=
  ∃ one ∈ period.updates, ∃ two ∈ period.updates, one ≠ two ∧
    opponentsOf period one.entrantId game = [⟨two.previous, game.scoreOneMillionths⟩] ∧
    opponentsOf period two.entrantId game =
      [⟨one.previous, scoreScale - game.scoreOneMillionths⟩] ∧
    game.scoreOneMillionths + (scoreScale - game.scoreOneMillionths) = scoreScale ∧
    ∀ update ∈ period.updates, update ≠ one → update ≠ two →
      opponentsOf period update.entrantId game = []

theorem RatingPeriod.WellFormed.sides (h : period.WellFormed checks) (hGame : game ∈ period.games) :
    game.entrantOne ≠ game.entrantTwo ∧ game.scoreOneMillionths ≤ scoreScale := by
  have hValid := h.games game hGame
  simp only [PeriodChecks.validGame, Bool.and_eq_true, bne_iff_ne, decide_eq_true_eq] at hValid
  exact ⟨hValid.1.2, hValid.2⟩

theorem RatingPeriod.Accounted.entries (h : period.Accounted) (hForm : period.WellFormed checks)
    (hGame : game ∈ period.games) : period.EnteredTwice game := by
  obtain ⟨hSides, hScore⟩ := hForm.sides hGame
  have hUpdate : ∀ entrant, (period.updates.map (·.entrantId)).count entrant = 1 →
      ∃ update ∈ period.updates, update.entrantId = entrant ∧
        period.previousOf entrant = some update.previous := by
    intro entrant hCount
    obtain ⟨rating, hRating⟩ := Option.isSome_iff_exists.mp
      ((previousOf_isSome hForm.entrants entrant).mpr hCount)
    obtain ⟨update, hMem, hId, rfl⟩ := (previousOf_eq_some hForm.entrants).mp hRating
    exact ⟨update, hMem, hId, hRating⟩
  obtain ⟨one, hOne, hOneId, hOnePrevious⟩ := hUpdate _ (h.entered game hGame).1
  obtain ⟨two, hTwo, hTwoId, hTwoPrevious⟩ := hUpdate _ (h.entered game hGame).2
  have hOnly : ∀ update ∈ period.updates, ∀ other ∈ period.updates,
      update.entrantId = other.entrantId → update = other := fun update hMem other hOther =>
    List.inj_on_of_nodup_map hForm.entrants hMem hOther
  refine ⟨one, hOne, two, hTwo, ?_, ?_, ?_, ?_, ?_⟩
  · intro hSame
    exact hSides (hOneId.symm.trans (hSame ▸ hTwoId))
  · simp [opponentsOf, hOneId, hTwoPrevious, hSides.symm]
  · simp [opponentsOf, hTwoId, hOnePrevious, hSides]
  · omega
  · intro update hMem hNotOne hNotTwo
    have hFirst : game.entrantOne ≠ update.entrantId := fun hSame =>
      hNotOne (hOnly update hMem one hOne (hSame.symm.trans hOneId.symm))
    have hSecond : game.entrantTwo ≠ update.entrantId := fun hSame =>
      hNotTwo (hOnly update hMem two hTwo (hSame.symm.trans hTwoId.symm))
    simp [opponentsOf, hFirst, hSecond]

theorem length_opponentsOf (hOne : (period.previousOf game.entrantOne).isSome = true)
    (hTwo : (period.previousOf game.entrantTwo).isSome = true) :
    (opponentsOf period entrantId game).length =
      (if game.entrantOne = entrantId then 1 else 0) +
        (if game.entrantTwo = entrantId then 1 else 0) := by
  obtain ⟨one, hOne⟩ := Option.isSome_iff_exists.mp hOne
  obtain ⟨two, hTwo⟩ := Option.isSome_iff_exists.mp hTwo
  rw [opponentsOf, hOne, hTwo, List.length_append]
  congr 1
  · split <;> rfl
  · split <;> rfl

theorem sum_indicator (entrants : List String) (entrant : String) :
    (entrants.map fun other => if entrant = other then 1 else 0).sum = entrants.count entrant := by
  induction entrants with
  | nil => rfl
  | cons other entrants ih =>
      rw [List.map_cons, List.sum_cons, ih, List.count_cons, Nat.add_comm]
      simp only [beq_iff_eq, eq_comm (a := other)]

/-- Some games enter twice as many opponents. -/
theorem sum_entries {games : List RatedMatchInput}
    (hGames : ∀ game ∈ games, (period.updates.map (·.entrantId)).count game.entrantOne = 1 ∧
      (period.updates.map (·.entrantId)).count game.entrantTwo = 1)
    (hEntrants : (period.updates.map (·.entrantId)).Nodup) :
    ((period.updates.map (·.entrantId)).map fun entrant =>
      (games.flatMap (opponentsOf period entrant)).length).sum = 2 * games.length := by
  induction games with
  | nil => simp [Function.comp_def]
  | cons game games ih =>
      obtain ⟨hOne, hTwo⟩ := hGames game List.mem_cons_self
      have hTurn : ∀ entrant, ((game :: games).flatMap (opponentsOf period entrant)).length =
          ((if game.entrantOne = entrant then 1 else 0) +
            (if game.entrantTwo = entrant then 1 else 0)) +
          (games.flatMap (opponentsOf period entrant)).length := by
        intro entrant
        rw [List.flatMap_cons, List.length_append,
          length_opponentsOf ((previousOf_isSome hEntrants _).mpr hOne)
            ((previousOf_isSome hEntrants _).mpr hTwo)]
      simp only [hTurn, List.sum_map_add, sum_indicator, hOne, hTwo]
      rw [ih fun other h => hGames other (List.mem_cons_of_mem _ h), List.length_cons]
      omega

theorem RatingPeriod.Accounted.total (h : period.Accounted) (hForm : period.WellFormed checks) :
    (period.updates.map fun update => update.opponents.length).sum =
      2 * period.games.length := by
  rw [← sum_entries h.entered hForm.entrants, List.map_map]
  exact congrArg List.sum (List.map_congr_left fun update hMem =>
    (h.opponents update hMem).length_eq)

end Entries

section Rearranged

/-- The update of the same entrant, with its opponents listed in some order. -/
def SameUpdate (update other : RatingUpdateInput) : Prop :=
  other.entrantId = update.entrantId ∧ other.previous = update.previous ∧
    other.opponents.Perm update.opponents

/-- The same period with its games, updates and opponents listed in another order. -/
structure RatingPeriod.Rearranged (period other : RatingPeriod) : Prop where
  schemaVersion : other.schemaVersion = period.schemaVersion
  periodId : other.periodId = period.periodId
  sequence : other.sequence = period.sequence
  pool : other.pool = period.pool
  games : other.games.Perm period.games
  updates : Relation.Comp List.Perm (List.Forall₂ SameUpdate) period.updates other.updates

variable {checks : PeriodChecks} {period other : RatingPeriod}

theorem SameUpdate.symm {update other : RatingUpdateInput} (h : SameUpdate update other) :
    SameUpdate other update :=
  ⟨h.1.symm, h.2.1.symm, h.2.2.symm⟩

theorem RatingPeriod.Rearranged.symm (h : period.Rearranged other) : other.Rearranged period := by
  refine ⟨h.schemaVersion.symm, h.periodId.symm, h.sequence.symm, h.pool.symm, h.games.symm, ?_⟩
  obtain ⟨updates, hPerm, hSame⟩ := h.updates
  rw [← List.forall₂_comp_perm_eq_perm_comp_forall₂]
  refine ⟨updates, ?_, hPerm.symm⟩
  exact (List.Forall₂.flip hSame).imp fun _ _ hUpdate => SameUpdate.symm hUpdate

theorem RatingPeriod.Rearranged.update (h : period.Rearranged other) {update : RatingUpdateInput}
    (hUpdate : update ∈ other.updates) : ∃ old ∈ period.updates, SameUpdate old update := by
  obtain ⟨updates, hPerm, hSame⟩ := h.updates
  obtain ⟨i, hi, rfl⟩ := List.getElem_of_mem hUpdate
  have hLength : i < updates.length := hSame.length_eq ▸ hi
  exact ⟨updates[i], hPerm.mem_iff.mpr (List.getElem_mem hLength), hSame.get hLength hi⟩

theorem RatingPeriod.Rearranged.entrants (h : period.Rearranged other) :
    (other.updates.map (·.entrantId)).Perm (period.updates.map (·.entrantId)) := by
  obtain ⟨updates, hPerm, hSame⟩ := h.updates
  have hIds : ∀ {left right : List RatingUpdateInput}, List.Forall₂ SameUpdate left right →
      right.map (·.entrantId) = left.map (·.entrantId) := by
    intro left right hSame
    induction hSame with
    | nil => rfl
    | cons hHead _ ih => rw [List.map_cons, List.map_cons, hHead.1, ih]
  rw [hIds hSame]
  exact (hPerm.map _).symm

theorem RatingPeriod.Rearranged.previousOf (h : period.Rearranged other)
    (hEntrants : (period.updates.map (·.entrantId)).Nodup) (entrantId : String) :
    other.previousOf entrantId = period.previousOf entrantId := by
  ext rating
  rw [previousOf_eq_some hEntrants,
    previousOf_eq_some (h.entrants.nodup_iff.mpr hEntrants)]
  constructor
  · intro ⟨update, hUpdate, hId, hRating⟩
    obtain ⟨old, hOld, hSame⟩ := h.update hUpdate
    exact ⟨old, hOld, hSame.1.symm.trans hId, hSame.2.1.symm.trans hRating⟩
  · intro ⟨update, hUpdate, hId, hRating⟩
    obtain ⟨new, hNew, hSame⟩ := h.symm.update hUpdate
    exact ⟨new, hNew, hSame.1.symm.trans hId, hSame.2.1.symm.trans hRating⟩

theorem RatingPeriod.Rearranged.wellFormed (h : period.Rearranged other) (hForm : period.WellFormed checks) :
    other.WellFormed checks := by
  constructor
  · rw [h.schemaVersion, hForm.version]
  · rw [h.periodId, hForm.periodId]
  · rw [h.pool, hForm.pool]
  · intro hNil
    have hIds := h.entrants
    rw [hNil, List.map_nil] at hIds
    exact hForm.nonempty (List.map_eq_nil_iff.mp hIds.symm.eq_nil)
  · intro game hGame
    exact hForm.games game (h.games.mem_iff.mp hGame)
  · exact (h.games.map _).nodup_iff.mpr hForm.matchIds
  · intro update hUpdate
    obtain ⟨old, hOld, hSame⟩ := h.update hUpdate
    rw [hSame.2.1, hForm.previous old hOld]
  · intro update hUpdate
    obtain ⟨old, hOld, hSame⟩ := h.update hUpdate
    rw [hSame.1, hForm.entrantIds old hOld]
  · intro update hUpdate opponent hOpponent
    obtain ⟨old, hOld, hSame⟩ := h.update hUpdate
    exact hForm.opponents old hOld opponent (hSame.2.2.mem_iff.mp hOpponent)
  · exact h.entrants.nodup_iff.mpr hForm.entrants

theorem RatingPeriod.Rearranged.accounted (h : period.Rearranged other)
    (hEntrants : (period.updates.map (·.entrantId)).Nodup) (hAccounted : period.Accounted) :
    other.Accounted := by
  have hResults : ∀ entrant game, opponentsOf other entrant game =
      opponentsOf period entrant game := by
    intro entrant game
    rw [opponentsOf, opponentsOf, h.previousOf hEntrants,
      h.previousOf hEntrants]
  constructor
  · intro game hGame
    rw [h.entrants.count_eq, h.entrants.count_eq]
    exact hAccounted.entered game (h.games.mem_iff.mp hGame)
  · intro update hUpdate
    obtain ⟨old, hOld, hSame⟩ := h.update hUpdate
    rw [hSame.1, funext (hResults old.entrantId)]
    exact hSame.2.2.trans ((hAccounted.opponents old hOld).trans
      (h.games.symm.flatMap_right _))

theorem RatingPeriod.Rearranged.validate (h : period.Rearranged other)
    (hValid : period.validateWith checks = .ok ()) : other.validateWith checks = .ok () := by
  obtain ⟨hForm, hAccounted⟩ := validateWith_eq_ok.mp hValid
  exact validateWith_eq_ok.mpr
    ⟨h.wellFormed hForm, h.accounted hForm.entrants hAccounted⟩

end Rearranged

/-- A period is accepted exactly when it is well formed and its opponents are those of
its games. Then each game stands in two lists, and the order of games, updates and
opponents does not matter. -/
theorem period_accounts (checks : PeriodChecks) (period : RatingPeriod) :
    (period.validateWith checks = .ok () ↔ period.WellFormed checks ∧ period.Accounted) ∧
    (period.validateWith checks = .ok () →
      (∀ game ∈ period.games, period.EnteredTwice game) ∧
        (period.updates.map fun update => update.opponents.length).sum =
          2 * period.games.length) ∧
    ∀ other, period.Rearranged other →
      (period.validateWith checks = .ok () ↔ other.validateWith checks = .ok ()) := by
  refine ⟨validateWith_eq_ok, ?_, ?_⟩
  · intro hValid
    obtain ⟨hForm, hAccounted⟩ := validateWith_eq_ok.mp hValid
    exact ⟨fun game hGame => hAccounted.entries hForm hGame, hAccounted.total hForm⟩
  · intro other hOther
    exact ⟨fun hValid => hOther.validate hValid, fun hValid => hOther.symm.validate hValid⟩

section Demonstration

/-- Two games of one pairing, between ratings that are equal, and an entrant without games. -/
def rematchPeriod : RatingPeriod :=
  ⟨ratingSchemaVersion, "week-1", 0,
    ⟨"en", "classic", "0123456789abcdef0123456789abcdef0123456789abcdef0123456789abcdef",
      "paired"⟩,
    [⟨"match-1", "series-1", 1, "north", "south", 1000000⟩,
      ⟨"match-2", "series-1", 2, "south", "north", 400000⟩],
    [⟨"south", ⟨1500000, 350000, 60000000⟩,
        [⟨⟨1500000, 350000, 60000000⟩, 400000⟩, ⟨⟨1500000, 350000, 60000000⟩, 0⟩]⟩,
      ⟨"west", ⟨1500000, 350000, 60000000⟩, []⟩,
      ⟨"north", ⟨1500000, 350000, 60000000⟩,
        [⟨⟨1500000, 350000, 60000000⟩, 1000000⟩, ⟨⟨1500000, 350000, 60000000⟩, 600000⟩]⟩]⟩

theorem rematchPeriod_accounts :
    ∀ game ∈ rematchPeriod.games, rematchPeriod.EnteredTwice game :=
  ((period_accounts .standard rematchPeriod).2.1 (by decide +kernel)).1

end Demonstration

end WordArena.Rating
