import Mathlib.Data.List.Induction
import WordArena.Rating.Accounting
import WordArena.Rating.Commit

/-! The current ratings as a projection of the periods: what a period derives for an
entrant, and why the table holds the last rating that was derived. -/
namespace WordArena.Rating

open Fallible WordArena.Engine WordArena.Application

section Derived

variable {system : RatingSystem} {period : RatingPeriod} {derived : List (String × RatingValue)}

/-- A rating that a period derives, and what it is computed from. -/
def Derives (system : RatingSystem) (input : RatingUpdateInput)
    (pair : String × RatingValue) : Prop :=
  pair.1 = input.entrantId ∧ system.updateRating input.previous input.opponents = .ok pair.2

theorem derive_eq_ok : period.derive system = .ok derived ↔
    period.validate = .ok () ∧ List.Forall₂ (Derives system) period.sortedUpdates derived := by
  have hTurn : ∀ (input : RatingUpdateInput) (pair : String × RatingValue),
      ((do
        let next ← system.updateRating input.previous input.opponents
        return (input.entrantId, next)) : Except RatingError _) = .ok pair ↔
      Derives system input pair := by
    intro input pair
    rw [bind_eq_ok]
    constructor
    · rintro ⟨next, hNext, hPair⟩
      cases pure_eq_ok.mp hPair
      exact ⟨rfl, hNext⟩
    · rintro ⟨hEntrant, hNext⟩
      exact ⟨pair.2, hNext, pure_eq_ok.mpr (by rw [← hEntrant])⟩
  rw [RatingPeriod.derive, bind_eq_ok]
  simp only [mapM_eq_ok, hTurn]
  exact ⟨fun ⟨_, hValid, hAll⟩ => ⟨hValid, hAll⟩, fun ⟨hValid, hAll⟩ => ⟨(), hValid, hAll⟩⟩

/-- What validation says about the games and the entrants of a period. -/
structure RatingPeriod.Distinct (period : RatingPeriod) : Prop where
  version : period.schemaVersion = ratingSchemaVersion
  periodId : validId period.periodId 256 = true
  pool : period.pool.valid = true
  matchIds : (period.games.map (·.matchId)).Nodup
  entrants : (period.updates.map (·.entrantId)).Nodup

theorem distinct_of_validate (h : period.validate = .ok ()) : period.Distinct := by
  obtain ⟨hForm, -⟩ := validateWith_eq_ok.mp h
  exact ⟨hForm.version, hForm.periodId, hForm.pool, hForm.matchIds, hForm.entrants⟩

theorem sortedUpdates_perm (period : RatingPeriod) : period.sortedUpdates.Perm period.updates :=
  List.perm_insertionSort _ _

theorem map_fst_derived {inputs : List RatingUpdateInput}
    (h : List.Forall₂ (Derives system) inputs derived) :
    derived.map Prod.fst = inputs.map (·.entrantId) := by
  induction h with
  | nil => rfl
  | cons hHead _ ih => rw [List.map_cons, List.map_cons, hHead.1, ih]

theorem mem_derived (h : period.derive system = .ok derived) {entrantId : String} :
    entrantId ∈ derived.map Prod.fst ↔ entrantId ∈ period.updates.map (·.entrantId) := by
  rw [map_fst_derived (derive_eq_ok.mp h).2]
  exact ((sortedUpdates_perm period).map _).mem_iff

theorem nodup_derived (h : period.derive system = .ok derived) :
    (derived.map Prod.fst).Nodup := by
  obtain ⟨hValid, hAll⟩ := derive_eq_ok.mp h
  rw [map_fst_derived hAll]
  exact (((sortedUpdates_perm period).map _).nodup_iff).mpr (distinct_of_validate hValid).entrants

end Derived

section Ratings

variable {derived : List (String × RatingValue)} {entrantId : String} {rating : RatingValue}

/-- Entries that are added to a map win over the old ones. -/
theorem get?_insertMany (ratings : Std.TreeMap String RatingValue) :
    (ratings.insertMany derived).get? entrantId =
      ((Std.TreeMap.ofList derived).get? entrantId).or (ratings.get? entrantId) := by
  simp only [Std.TreeMap.get?_eq_getElem?]
  rw [Std.TreeMap.ofList_eq_insertMany_empty, Std.TreeMap.getElem?_insertMany_list,
    Std.TreeMap.getElem?_insertMany_list, Std.TreeMap.getElem?_emptyc, Option.or_none]

end Ratings

section Last

/-- The rating that the last of some periods derived for an entrant. -/
def lastRating (periods : List PeriodRow) (entrantId : String) : Option RatingValue :=
  periods.foldl (fun found row => (ratingIn row entrantId).or found) none

@[simp] theorem lastRating_nil (entrantId : String) : lastRating [] entrantId = none := rfl

@[simp] theorem lastRating_concat (periods : List PeriodRow) (row : PeriodRow)
    (entrantId : String) : lastRating (periods ++ [row]) entrantId =
      (ratingIn row entrantId).or (lastRating periods entrantId) := by
  rw [lastRating, List.foldl_append]
  rfl

/-- Periods that an entrant skips do not matter. -/
theorem lastRating_append_absent {periods later : List PeriodRow} {entrantId : String}
    (h : ∀ row ∈ later, ratingIn row entrantId = none) :
    lastRating (periods ++ later) entrantId = lastRating periods entrantId := by
  induction later using List.reverseRecOn with
  | nil => rw [List.append_nil]
  | append_singleton later row ih =>
      rw [← List.append_assoc, lastRating_concat, h row (by simp), Option.none_or,
        ih fun other hOther => h other (List.mem_append_left _ hOther)]

end Last

section Upsert

variable {rows : List CurrentRow} {added : CurrentRow}

def CurrentRow.key (row : CurrentRow) : String × String := (row.poolKey, row.entrantId)

/-- The rows with one key. -/
def findCurrent (rows : List CurrentRow) (poolKey entrantId : String) : Option CurrentRow :=
  rows.find? fun row => row.poolKey == poolKey && row.entrantId == entrantId

/-- A later row takes the place of an earlier one. -/
theorem upsertCurrent_eq (h : ∀ old ∈ rows, old.key = added.key → old.sequence < added.sequence) :
    upsertCurrent added rows =
      if rows.any (fun old => old.poolKey == added.poolKey && old.entrantId == added.entrantId) then
        Table.update (fun old => old.poolKey == added.poolKey && old.entrantId == added.entrantId)
          (fun _ => added) rows
      else rows ++ [added] := by
  rw [upsertCurrent]
  congr 1
  refine List.map_congr_left fun old hOld => ?_
  cases hKey : (old.poolKey == added.poolKey && old.entrantId == added.entrantId) with
  | false => simp only [hKey, Bool.false_and]
  | true =>
      rw [Bool.and_eq_true, beq_iff_eq, beq_iff_eq] at hKey
      have hBefore := h old hOld (Prod.ext hKey.1 hKey.2)
      simp only [hBefore, decide_true, Bool.and_true]

theorem findCurrent_upsert
    (h : ∀ old ∈ rows, old.key = added.key → old.sequence < added.sequence)
    (poolKey entrantId : String) :
    findCurrent (upsertCurrent added rows) poolKey entrantId =
      if added.poolKey = poolKey ∧ added.entrantId = entrantId then some added
      else findCurrent rows poolKey entrantId := by
  rw [upsertCurrent_eq h]
  split_ifs with hAny hSame hSame
  · obtain ⟨rfl, rfl⟩ := hSame
    rw [findCurrent, Table.find?_update_hit (by simp)]
    cases hFound : rows.find? fun old =>
        old.poolKey == added.poolKey && old.entrantId == added.entrantId with
    | none =>
        obtain ⟨old, hOld, hKey⟩ := List.any_eq_true.mp hAny
        exact absurd hKey (List.find?_eq_none.mp hFound old hOld)
    | some found => rfl
  · rw [findCurrent, findCurrent, Table.find?_update_other]
    · intro old hKey
      rw [Bool.and_eq_true, beq_iff_eq, beq_iff_eq] at hKey
      rw [hKey.1, hKey.2]
      simpa using hSame
    · intro old _
      simpa using hSame
  · obtain ⟨rfl, rfl⟩ := hSame
    rw [findCurrent, List.find?_append, List.find?_eq_none.mpr (by simpa using hAny)]
    simp
  · rw [findCurrent, findCurrent, List.find?_append, List.find?_cons_of_neg (by simpa using hSame),
      List.find?_nil, Option.or_none]

theorem mem_upsert {row : CurrentRow} (h : row ∈ upsertCurrent added rows) :
    row = added ∨ row ∈ rows := by
  rw [upsertCurrent] at h
  split_ifs at h
  · obtain ⟨old, hOld, hRow⟩ := Table.mem_update.mp h
    split_ifs at hRow
    · exact .inl hRow
    · exact .inr (hRow ▸ hOld)
  · rcases List.mem_append.mp h with hOld | hNew
    · exact .inr hOld
    · exact .inl (List.mem_singleton.mp hNew)

theorem nodup_upsert (h : (rows.map CurrentRow.key).Nodup) :
    ((upsertCurrent added rows).map CurrentRow.key).Nodup := by
  rw [upsertCurrent]
  split_ifs with hAny
  · have hKeys : (Table.update (fun old => old.poolKey == added.poolKey &&
        old.entrantId == added.entrantId && decide (old.sequence < added.sequence))
        (fun _ => added) rows).map CurrentRow.key = rows.map CurrentRow.key := by
      rw [Table.update, List.map_map]
      refine List.map_congr_left fun old _ => ?_
      simp only [Function.comp_apply]
      split_ifs with hHit
      · simp only [Bool.and_eq_true, beq_iff_eq] at hHit
        exact (Prod.ext hHit.1.1 hHit.1.2 : old.key = added.key).symm
      · rfl
    rwa [hKeys]
  · rw [List.map_append, List.nodup_append]
    refine ⟨h, List.nodup_singleton _, ?_⟩
    rintro a ha b hb rfl
    obtain ⟨old, hOld, rfl⟩ := List.mem_map.mp ha
    refine hAny (List.any_eq_true.mpr ⟨old, hOld, ?_⟩)
    have hSame : old.key = added.key := List.mem_singleton.mp hb
    rw [Bool.and_eq_true, beq_iff_eq, beq_iff_eq]
    exact Prod.mk.injEq .. ▸ hSame

end Upsert

section Advance

variable {row : PeriodRow} {rows : List CurrentRow} {inputs : List RatingUpdateInput}

theorem mem_advance {found : CurrentRow} (h : found ∈ advance row inputs rows) :
    (∃ input ∈ inputs, found = currentRow row input) ∨ found ∈ rows := by
  induction inputs generalizing rows with
  | nil => exact .inr h
  | cons input inputs ih =>
      rcases ih h with ⟨other, hOther, rfl⟩ | hRows
      · exact .inl ⟨other, List.mem_cons_of_mem _ hOther, rfl⟩
      · rcases mem_upsert hRows with rfl | hOld
        · exact .inl ⟨input, List.mem_cons_self, rfl⟩
        · exact .inr hOld

theorem nodup_advance (h : (rows.map CurrentRow.key).Nodup) :
    ((advance row inputs rows).map CurrentRow.key).Nodup := by
  induction inputs generalizing rows with
  | nil => exact h
  | cons input inputs ih => exact ih (nodup_upsert h)

/-- The entrants of a period get its ratings, and everyone else keeps theirs. -/
theorem findCurrent_advance (hEntrants : (inputs.map (·.entrantId)).Nodup)
    (hBefore : ∀ input ∈ inputs, ∀ old ∈ rows,
      old.key = (row.poolKey, input.entrantId) → old.sequence < row.sequence)
    (poolKey entrantId : String) :
    findCurrent (advance row inputs rows) poolKey entrantId =
      if row.poolKey = poolKey then
        ((inputs.find? (·.entrantId == entrantId)).map (currentRow row)).or
          (findCurrent rows poolKey entrantId)
      else findCurrent rows poolKey entrantId := by
  induction inputs generalizing rows with
  | nil => simp [advance]
  | cons input inputs ih =>
      rw [List.map_cons, List.nodup_cons] at hEntrants
      have hLater : ∀ old ∈ rows, old.key = (currentRow row input).key →
          old.sequence < (currentRow row input).sequence := hBefore input List.mem_cons_self
      have hFirst := findCurrent_upsert hLater poolKey entrantId
      have hRest : ∀ other ∈ inputs, ∀ old ∈ upsertCurrent (currentRow row input) rows,
          old.key = (row.poolKey, other.entrantId) → old.sequence < row.sequence := by
        intro other hOther old hOld hKey
        rcases mem_upsert hOld with rfl | hRows
        · have hSame : input.entrantId = other.entrantId := congrArg Prod.snd hKey
          exact absurd (hSame ▸ List.mem_map_of_mem hOther) hEntrants.1
        · exact hBefore other (List.mem_cons_of_mem _ hOther) old hRows hKey
      have hNext := ih hEntrants.2 hRest
      rw [advance, List.foldl_cons, ← advance, hNext, hFirst]
      by_cases hPool : row.poolKey = poolKey
      · by_cases hEntrant : input.entrantId = entrantId
        · have hNone : inputs.find? (·.entrantId == entrantId) = none := by
            rw [List.find?_eq_none]
            intro other hOther hSame
            refine hEntrants.1 (hEntrant ▸ ?_)
            exact beq_iff_eq.mp hSame ▸ List.mem_map_of_mem hOther
          simp [hPool, hEntrant, hNone, currentRow]
        · simp [hPool, hEntrant, currentRow]
      · simp [hPool, currentRow]

end Advance

end WordArena.Rating
