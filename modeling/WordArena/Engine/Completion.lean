import Mathlib.Algebra.Order.BigOperators.Group.List
import WordArena.Library.Leader
import WordArena.Engine.Actions

/-! End adjustments and the winner. Scores are read as exact integers per seat,
so the checked additions of the source become sums. -/
namespace WordArena.Engine

open Fallible

/-- The score of a seat as an exact integer. -/
def scoreOf (scores : List Score) (seat : Seat) : Int := (scores.getD seat.index .zero).value.toInt

def rackOf (racks : List Rack) (seat : Seat) : Rack := racks.getD seat.index ⟨[]⟩

/-- The value of a rack without the width of its accumulator. -/
def rackPoints (ruleset : Ruleset) (rack : Rack) : Nat :=
  (rack.tiles.map fun tile => (tileValue ruleset tile).toNat).sum

theorem scoreOf_set {scores : List Score} {seat other : Seat} {score : Score}
    (h : seat.index < scores.length) :
    scoreOf (scores.set seat.index score) other =
      if other = seat then score.value.toInt else scoreOf scores other := by
  unfold scoreOf
  split
  · rename_i hSeat
    rw [hSeat, List.getD_eq_getElem?_getD, List.getElem?_set_self h]
    rfl
  · rename_i hSeat
    have hIndex : seat.index ≠ other.index := fun h => hSeat (Seat.index_injective h.symm)
    rw [List.getD_eq_getElem?_getD, List.getElem?_set_ne hIndex, ← List.getD_eq_getElem?_getD]

/-- The checked sum of a rack exists exactly when its exact value fits. -/
theorem rackValue_eq_ok {ruleset : Ruleset} {rack : Rack} {value : Int32} :
    rackValue ruleset rack = .ok value ↔ value.toInt = rackPoints ruleset rack := by
  have hFold : ∀ (tiles : List PhysicalTile) (total : Int32),
      tiles.foldlM (fun total tile =>
        okOr (Checked.addI32 total (Int32.ofInt (tileValue ruleset tile).toNat))
          GameError.scoreOverflow) total = .ok value ↔
        value.toInt = total.toInt + (tiles.map fun t => (tileValue ruleset t).toNat).sum := by
    intro tiles
    induction tiles with
    | nil =>
        intro total
        rw [List.foldlM_nil, pure_eq_ok, ← Int32.toInt_inj]
        simp [eq_comm]
    | cons tile tiles ih =>
        intro total
        have hTile := (tileValue ruleset tile).toNat_lt
        have hExact : (Int32.ofInt (tileValue ruleset tile).toNat).toInt =
            (tileValue ruleset tile).toNat :=
          Int32.toInt_ofInt_of_le (by omega) (by omega)
        simp only [List.foldlM_cons, bind_eq_ok, okOr_eq_ok, Checked.addI32_eq_some, ih, hExact,
          List.map_cons, List.sum_cons]
        constructor
        · rintro ⟨next, hNext, hValue⟩
          omega
        · intro hValue
          have hLow := total.le_toInt
          have hHigh := value.toInt_lt
          have hNext := Int32.toInt_ofInt_of_le (n := total.toInt + (tileValue ruleset tile).toNat)
            (by omega) (by omega)
          exact ⟨_, hNext, by omega⟩
  simpa [rackValue, rackPoints] using hFold rack.tiles 0

theorem adjustScore_eq_ok {scores next : List Score} {seat : Seat} {delta : Int32} :
    adjustScore scores seat delta = .ok next ↔ ∃ updated : Score,
      updated.value.toInt = scoreOf scores seat + delta.toInt ∧
        next = scores.set seat.index updated := by
  simp only [adjustScore, bind_eq_ok, okOr_eq_ok, Score.checkedAdd_eq_some, pure_eq_ok, scoreOf,
    @eq_comm _ next]

/-- One seat's score moved by a delta, all others kept. -/
def Shifted (scores next : List Score) (delta : Seat → Int) : Prop :=
  next.length = scores.length ∧
    ∀ seat, seat.index < scores.length → scoreOf next seat = scoreOf scores seat + delta seat

theorem Shifted.refl (scores : List Score) : Shifted scores scores fun _ => 0 :=
  ⟨rfl, fun _ _ => (Int.add_zero _).symm⟩

theorem Shifted.trans {a b c : List Score} {first second : Seat → Int} (left : Shifted a b first)
    (right : Shifted b c second) : Shifted a c fun seat => first seat + second seat := by
  refine ⟨right.1.trans left.1, fun seat hSeat => ?_⟩
  rw [right.2 seat (left.1 ▸ hSeat), left.2 seat hSeat, Int.add_assoc]

theorem Shifted.congr {a b : List Score} {first second : Seat → Int} (h : Shifted a b first)
    (hEq : ∀ seat, seat.index < a.length → first seat = second seat) : Shifted a b second :=
  ⟨h.1, fun seat hSeat => (h.2 seat hSeat).trans (by rw [hEq seat hSeat])⟩

theorem shifted_of_adjustScore {scores next : List Score} {seat : Seat} {delta : Int32}
    (hSeat : seat.index < scores.length) (h : adjustScore scores seat delta = .ok next) :
    Shifted scores next fun other => if other = seat then delta.toInt else 0 := by
  obtain ⟨updated, hValue, rfl⟩ := adjustScore_eq_ok.mp h
  refine ⟨List.length_set, fun other _ => ?_⟩
  rw [scoreOf_set hSeat]
  by_cases hOther : other = seat
  · simp only [hOther, if_true, hValue]
  · simp only [if_neg hOther, Int.add_zero]

theorem adjustScore_succeeds (scores : List Score) (seat : Seat) (delta : Int32)
    (hLow : -2 ^ 31 ≤ scoreOf scores seat + delta.toInt)
    (hHigh : scoreOf scores seat + delta.toInt < 2 ^ 31) :
    ∃ next, adjustScore scores seat delta = .ok next :=
  ⟨_, adjustScore_eq_ok.mpr ⟨⟨Int32.ofInt _⟩, Int32.toInt_ofInt_of_le hLow hHigh, rfl⟩⟩

/-- Negating a rack value is exact, since the value is not negative. -/
theorem neg_rackValue {ruleset : Ruleset} {rack : Rack} {value : Int32}
    (h : value.toInt = rackPoints ruleset rack) : (-value).toInt = -(rackPoints ruleset rack) := by
  have hHigh := value.toInt_lt
  rw [Int32.toInt_neg, h, Int.bmod_eq_of_le] <;> omega

theorem deductRack_eq_ok {ruleset : Ruleset} {racks : List Rack} {scores next : List Score}
    {seat : Seat} {deduction : Int32} :
    deductRack ruleset racks scores seat = .ok (next, deduction) ↔
      deduction.toInt = rackPoints ruleset (rackOf racks seat) ∧
        adjustScore scores seat (-deduction) = .ok next := by
  simp only [deductRack, bind_eq_ok, rackValue_eq_ok, pure_eq_ok, Prod.mk.injEq, rackOf]
  constructor
  · rintro ⟨_, hValue, _, hScores, rfl, rfl⟩
    exact ⟨hValue, hScores⟩
  · rintro ⟨hValue, hScores⟩
    exact ⟨deduction, hValue, next, hScores, rfl, rfl⟩

/-- Deductions of a list of distinct seats, with their running total. -/
theorem deductOthers_fold {ruleset : Ruleset} {racks : List Rack} {seats : List Seat}
    {scores next : List Score} {bonus total : Int32} (hNodup : seats.Nodup)
    (hSeats : ∀ seat ∈ seats, seat.index < scores.length)
    (h : seats.foldlM (fun sofar seat => do
      let (scores, deduction) ← deductRack ruleset racks sofar.1 seat
      let bonus ← okOr (Checked.addI32 sofar.2 deduction) GameError.scoreOverflow
      return (scores, bonus)) (scores, bonus) = .ok (next, total)) :
    Shifted scores next (fun seat =>
      if seat ∈ seats then -(rackPoints ruleset (rackOf racks seat)) else 0) ∧
    total.toInt =
      bonus.toInt + (seats.map fun seat => rackPoints ruleset (rackOf racks seat)).sum := by
  induction seats generalizing scores bonus with
  | nil =>
      cases pure_eq_ok.mp h
      simpa using Shifted.refl _
  | cons seat seats ih =>
      simp only [List.foldlM_cons, bind_eq_ok, Prod.exists, deductRack_eq_ok, okOr_eq_ok,
        Checked.addI32_eq_some, pure_eq_ok, Prod.mk.injEq] at h
      obtain ⟨scores', bonus', ⟨mid, deduction, ⟨hValue, hAdjust⟩, _, hBonus, rfl, rfl⟩, hRest⟩ := h
      obtain ⟨hFresh, hNodup⟩ := List.nodup_cons.mp hNodup
      have hHead := shifted_of_adjustScore (hSeats seat List.mem_cons_self) hAdjust
      obtain ⟨hTail, hTotal⟩ := ih hNodup (fun other hOther => by
        rw [hHead.1]; exact hSeats other (List.mem_cons_of_mem _ hOther)) hRest
      refine ⟨(hHead.trans hTail).congr fun other _ => ?_, ?_⟩
      · by_cases hOther : other = seat
        · subst hOther
          simp [hFresh, neg_rackValue hValue]
        · simp [hOther]
      · rw [hTotal, hBonus, hValue]
        simp only [List.map_cons, List.sum_cons]
        omega

theorem deductAll_shifted {ruleset : Ruleset} {racks : List Rack} {seats : List Seat}
    {scores next : List Score} (hNodup : seats.Nodup)
    (hSeats : ∀ seat ∈ seats, seat.index < scores.length)
    (h : deductAll ruleset racks seats scores = .ok next) :
    Shifted scores next (fun seat =>
      if seat ∈ seats then -(rackPoints ruleset (rackOf racks seat)) else 0) := by
  unfold deductAll at h
  induction seats generalizing scores with
  | nil =>
      cases pure_eq_ok.mp h
      simpa using Shifted.refl _
  | cons seat seats ih =>
      simp only [List.foldlM_cons, bind_eq_ok, Prod.exists, deductRack_eq_ok, pure_eq_ok] at h
      obtain ⟨_, ⟨mid, deduction, ⟨hValue, hAdjust⟩, rfl⟩, hRest⟩ := h
      obtain ⟨hFresh, hNodup⟩ := List.nodup_cons.mp hNodup
      have hHead := shifted_of_adjustScore (hSeats seat List.mem_cons_self) hAdjust
      have hTail := ih hNodup (fun other hOther => by
        rw [hHead.1]; exact hSeats other (List.mem_cons_of_mem _ hOther)) hRest
      refine (hHead.trans hTail).congr fun other _ => ?_
      by_cases hOther : other = seat
      · subst hOther
        simp [hFresh, neg_rackValue hValue]
      · simp [hOther]

/-- The end adjustment of a seat, as the rules state it. -/
def adjustment (ruleset : Ruleset) (racks : List Rack) (active : List Seat)
    (reason : TerminalReason) (seat : Seat) : Int :=
  match reason with
  | .resignation _ => 0
  | .scorelessTurns => -(rackPoints ruleset (rackOf racks seat))
  | .rackEmptied outgoing =>
      if seat = outgoing then
        ((active.filter (· ≠ outgoing)).map fun other =>
          rackPoints ruleset (rackOf racks other)).sum
      else -(rackPoints ruleset (rackOf racks seat))

/-- Final scores are the running scores moved by the end adjustment. -/
theorem finalScores_shifted {ruleset : Ruleset} {racks : List Rack} {active : List Seat}
    {reason : TerminalReason} {scores next : List Score}
    (hActive : Seat.active scores.length = some active)
    (hReason : ∀ outgoing, reason = .rackEmptied outgoing → outgoing.index < scores.length)
    (h : finalScores ruleset racks active reason scores = .ok next) :
    Shifted scores next (adjustment ruleset racks active reason) := by
  have hSeats : ∀ seat ∈ active, seat.index < scores.length :=
    fun seat => (Seat.mem_active hActive).mp
  cases reason with
  | resignation resigned =>
      cases h
      exact Shifted.refl scores
  | scorelessTurns =>
      refine (deductAll_shifted (Seat.active_nodup hActive) hSeats h).congr fun seat hSeat => ?_
      rw [if_pos ((Seat.mem_active hActive).mpr hSeat)]
      rfl
  | rackEmptied outgoing =>
      simp only [finalScores, bind_eq_ok, Prod.exists] at h
      obtain ⟨mid, bonus, hOthers, hAdjust⟩ := h
      obtain ⟨hShift, hBonus⟩ := deductOthers_fold ((Seat.active_nodup hActive).filter _)
        (fun seat hSeat => hSeats seat (List.mem_of_mem_filter hSeat)) hOthers
      have hOutgoing := hReason outgoing rfl
      have hLast := shifted_of_adjustScore (hShift.1 ▸ hOutgoing) hAdjust
      refine (hShift.trans hLast).congr fun seat hSeat => ?_
      have hMem := (Seat.mem_active hActive).mpr hSeat
      by_cases hEq : seat = outgoing
      · simp [adjustment, hEq, hBonus]
      · simp [adjustment, hEq, hMem]

/-! Room for the adjustments. -/

theorem deductRack_succeeds {ruleset : Ruleset} {racks : List Rack} {scores : List Score}
    {seat : Seat}
    (hRoom : -2 ^ 31 + (rackPoints ruleset (rackOf racks seat) : Int) ≤ scoreOf scores seat)
    (hPoints : rackPoints ruleset (rackOf racks seat) < 2 ^ 31) :
    ∃ next deduction, deductRack ruleset racks scores seat = .ok (next, deduction) := by
  obtain ⟨deduction, hValue⟩ : ∃ deduction : Int32,
      deduction.toInt = rackPoints ruleset (rackOf racks seat) :=
    Checked.exists_i32 (by omega) (by omega)
  have hHigh : scoreOf scores seat < 2 ^ 31 := Int32.toInt_lt _
  have hNeg := neg_rackValue hValue
  obtain ⟨next, hNext⟩ := adjustScore_succeeds scores seat (-deduction) (by omega) (by omega)
  exact ⟨next, deduction, deductRack_eq_ok.mpr ⟨hValue, hNext⟩⟩

/-- A deduction leaves the scores of the other seats alone. -/
theorem scoreOf_deductRack {ruleset : Ruleset} {racks : List Rack} {scores next : List Score}
    {seat other : Seat} {deduction : Int32} (hSeat : seat.index < scores.length)
    (hOther : other ≠ seat)
    (h : deductRack ruleset racks scores seat = .ok (next, deduction)) :
    scoreOf next other = scoreOf scores other := by
  obtain ⟨updated, -, rfl⟩ := adjustScore_eq_ok.mp (deductRack_eq_ok.mp h).2
  rw [scoreOf_set hSeat, if_neg hOther]

theorem length_deductRack {ruleset : Ruleset} {racks : List Rack} {scores next : List Score}
    {seat : Seat} {deduction : Int32}
    (h : deductRack ruleset racks scores seat = .ok (next, deduction)) :
    next.length = scores.length := by
  obtain ⟨updated, -, rfl⟩ := adjustScore_eq_ok.mp (deductRack_eq_ok.mp h).2
  exact List.length_set

theorem deductAll_succeeds {ruleset : Ruleset} {racks : List Rack} {seats : List Seat}
    {scores : List Score} (hNodup : seats.Nodup)
    (hSeats : ∀ seat ∈ seats, seat.index < scores.length)
    (hRoom : ∀ seat ∈ seats,
      -2 ^ 31 + (rackPoints ruleset (rackOf racks seat) : Int) ≤ scoreOf scores seat)
    (hPoints : ∀ seat ∈ seats, rackPoints ruleset (rackOf racks seat) < 2 ^ 31) :
    ∃ next, deductAll ruleset racks seats scores = .ok next := by
  unfold deductAll
  induction seats generalizing scores with
  | nil => exact ⟨scores, rfl⟩
  | cons seat seats ih =>
      obtain ⟨hFresh, hNodup⟩ := List.nodup_cons.mp hNodup
      simp only [List.forall_mem_cons] at hSeats hRoom hPoints
      obtain ⟨mid, deduction, hDeduct⟩ := deductRack_succeeds hRoom.1 hPoints.1
      have hLength := length_deductRack hDeduct
      obtain ⟨next, hNext⟩ := @ih mid hNodup (by rw [hLength]; exact hSeats.2)
        (fun other hOther => by
          have hNe : other ≠ seat := fun h => hFresh (h ▸ hOther)
          rw [scoreOf_deductRack hSeats.1 hNe hDeduct]
          exact hRoom.2 other hOther) hPoints.2
      refine ⟨next, ?_⟩
      simp only [List.foldlM_cons, bind_eq_ok, Prod.exists, pure_eq_ok]
      exact ⟨mid, ⟨mid, deduction, hDeduct, rfl⟩, hNext⟩

theorem deductOthers_fold_succeeds {ruleset : Ruleset} {racks : List Rack} {seats : List Seat}
    {scores : List Score} (bonus : Int32) (hNodup : seats.Nodup)
    (hSeats : ∀ seat ∈ seats, seat.index < scores.length)
    (hRoom : ∀ seat ∈ seats,
      -2 ^ 31 + (rackPoints ruleset (rackOf racks seat) : Int) ≤ scoreOf scores seat)
    (hBonus : 0 ≤ bonus.toInt)
    (hTotal : bonus.toInt +
      (seats.map fun seat => rackPoints ruleset (rackOf racks seat)).sum < 2 ^ 31) :
    ∃ next total, seats.foldlM (fun sofar seat => do
      let (scores, deduction) ← deductRack ruleset racks sofar.1 seat
      let bonus ← okOr (Checked.addI32 sofar.2 deduction) GameError.scoreOverflow
      return (scores, bonus)) (scores, bonus) = .ok (next, total) := by
  induction seats generalizing scores bonus with
  | nil => exact ⟨scores, bonus, rfl⟩
  | cons seat seats ih =>
      obtain ⟨hFresh, hNodup⟩ := List.nodup_cons.mp hNodup
      simp only [List.forall_mem_cons] at hSeats hRoom
      simp only [List.map_cons, List.sum_cons] at hTotal
      obtain ⟨mid, deduction, hDeduct⟩ := deductRack_succeeds hRoom.1 (by omega)
      have hValue := (deductRack_eq_ok.mp hDeduct).1
      have hLength := length_deductRack hDeduct
      have hSum : (Int32.ofInt (bonus.toInt + deduction.toInt)).toInt =
          bonus.toInt + deduction.toInt := Int32.toInt_ofInt_of_le (by omega) (by omega)
      obtain ⟨next, total, hNext⟩ := @ih mid (Int32.ofInt _) hNodup
        (by rw [hLength]; exact hSeats.2) (fun other hOther => by
          have hNe : other ≠ seat := fun h => hFresh (h ▸ hOther)
          rw [scoreOf_deductRack hSeats.1 hNe hDeduct]
          exact hRoom.2 other hOther) (by rw [hSum]; omega) (by rw [hSum]; omega)
      refine ⟨next, total, ?_⟩
      simp only [List.foldlM_cons, bind_eq_ok, Prod.exists, okOr_eq_ok, Checked.addI32_eq_some,
        pure_eq_ok, Prod.mk.injEq]
      exact ⟨mid, _, ⟨mid, deduction, hDeduct, _, hSum, rfl, rfl⟩, hNext⟩

/-- Points of all racks of a table. -/
def tablePoints (ruleset : Ruleset) (racks : List Rack) (active : List Seat) : Nat :=
  (active.map fun seat => rackPoints ruleset (rackOf racks seat)).sum

theorem rackPoints_le_tablePoints (ruleset : Ruleset) (racks : List Rack) {active : List Seat}
    {seat : Seat} (h : seat ∈ active) :
    rackPoints ruleset (rackOf racks seat) ≤ tablePoints ruleset racks active :=
  List.single_le_sum (by simp) _ (List.mem_map_of_mem h)

theorem filter_points_le (ruleset : Ruleset) (racks : List Rack) (active : List Seat)
    (keep : Seat → Bool) :
    ((active.filter keep).map fun seat => rackPoints ruleset (rackOf racks seat)).sum ≤
      tablePoints ruleset racks active :=
  (List.filter_sublist.map _).sum_le_sum (by simp)

/-- Completion succeeds whenever every score has room for all racks. -/
theorem finalScores_succeeds {ruleset : Ruleset} {racks : List Rack} {active : List Seat}
    {scores : List Score} (reason : TerminalReason)
    (hActive : Seat.active scores.length = some active)
    (hReason : ∀ outgoing, reason = .rackEmptied outgoing → outgoing.index < scores.length)
    (hLow : ∀ seat ∈ active,
      -2 ^ 31 + (tablePoints ruleset racks active : Int) ≤ scoreOf scores seat)
    (hHigh : ∀ seat ∈ active,
      scoreOf scores seat + tablePoints ruleset racks active < 2 ^ 31)
    (hPoints : tablePoints ruleset racks active < 2 ^ 31) :
    ∃ next, finalScores ruleset racks active reason scores = .ok next := by
  have hSeats : ∀ seat ∈ active, seat.index < scores.length :=
    fun seat => (Seat.mem_active hActive).mp
  have hRoom : ∀ seat ∈ active,
      -2 ^ 31 + (rackPoints ruleset (rackOf racks seat) : Int) ≤ scoreOf scores seat := by
    intro seat hSeat
    have := hLow seat hSeat
    have := rackPoints_le_tablePoints ruleset racks hSeat
    omega
  cases reason with
  | resignation resigned => exact ⟨scores, rfl⟩
  | scorelessTurns =>
      refine deductAll_succeeds (Seat.active_nodup hActive) hSeats hRoom fun seat hSeat => ?_
      exact (rackPoints_le_tablePoints ruleset racks hSeat).trans_lt hPoints
  | rackEmptied outgoing =>
      have hOutgoing := hReason outgoing rfl
      have hSum := filter_points_le ruleset racks active (· ≠ outgoing)
      have hNodup : (active.filter (· ≠ outgoing)).Nodup := (Seat.active_nodup hActive).filter _
      have hMem : ∀ seat ∈ active.filter (· ≠ outgoing), seat.index < scores.length :=
        fun seat hSeat => hSeats seat (List.mem_of_mem_filter hSeat)
      obtain ⟨mid, bonus, hOthers⟩ := deductOthers_fold_succeeds 0 hNodup hMem
        (fun seat hSeat => hRoom seat (List.mem_of_mem_filter hSeat)) (by simp)
        (by rw [show (0 : Int32).toInt = 0 from rfl]; omega)
      obtain ⟨hShift, hBonus⟩ := deductOthers_fold hNodup hMem hOthers
      have hScore : scoreOf mid outgoing = scoreOf scores outgoing := by
        rw [hShift.2 outgoing hOutgoing]
        simp
      have hOut := (Seat.mem_active hActive).mpr hOutgoing
      have := hLow outgoing hOut
      have := hHigh outgoing hOut
      rw [show (0 : Int32).toInt = 0 from rfl] at hBonus
      obtain ⟨next, hNext⟩ := adjustScore_succeeds mid outgoing bonus (by omega) (by omega)
      refine ⟨next, ?_⟩
      simp only [finalScores, bind_eq_ok, Prod.exists]
      exact ⟨mid, bonus, hOthers, hNext⟩

/-! The winner. -/

/-- The seats that take part in the comparison. -/
def contenders (playerCount : Nat) (excluded : Option Seat) : Set Seat :=
  { seat | seat.index < playerCount ∧ some seat ≠ excluded }

theorem contenders_succ {seat : Seat} {excluded : Option Seat} (h : some seat ≠ excluded) :
    contenders (seat.index + 1) excluded = insert seat (contenders seat.index excluded) := by
  ext other
  simp only [contenders, Set.mem_ofPred_eq, Set.mem_insert_iff]
  constructor
  · rintro ⟨hIndex, hOther⟩
    rcases Nat.lt_succ_iff_lt_or_eq.mp hIndex with hIndex | hIndex
    · exact .inr ⟨hIndex, hOther⟩
    · exact .inl (Seat.index_injective hIndex)
  · rintro (rfl | ⟨hIndex, hOther⟩)
    · exact ⟨Nat.lt_succ_self _, h⟩
    · exact ⟨Nat.lt_succ_of_lt hIndex, hOther⟩

theorem contenders_skip {seat : Seat} {excluded : Option Seat} (h : some seat = excluded) :
    contenders (seat.index + 1) excluded = contenders seat.index excluded := by
  ext other
  simp only [contenders, Set.mem_ofPred_eq]
  refine and_congr_left fun hOther => ⟨fun hIndex => ?_, Nat.lt_succ_of_lt⟩
  rcases Nat.lt_succ_iff_lt_or_eq.mp hIndex with hIndex | hIndex
  · exact hIndex
  · exact absurd (Seat.index_injective hIndex ▸ h) hOther

/-- One turn of the pass. The next seat becomes the best one, ties with it,
stays behind it or is excluded. -/
theorem uniqueWinnerLoop_step {scores : List Score} {excluded : Option Seat} {seat : Seat}
    {score : Score} {best : Option (Seat × Score)} {tied : Bool}
    (hScore : score.value.toInt = scoreOf scores seat)
    (hBest : ∀ b ∈ best, b.2.value.toInt = scoreOf scores b.1)
    (h : Leader (scoreOf scores) (contenders seat.index excluded) (best.map (·.1)) tied)
    (rest : List (Score × Nat)) :
    ∃ best' tied', uniqueWinnerLoop excluded ((score, seat.index) :: rest) best tied =
        uniqueWinnerLoop excluded rest best' tied' ∧
      (∀ b ∈ best', b.2.value.toInt = scoreOf scores b.1) ∧
      Leader (scoreOf scores) (contenders (seat.index + 1) excluded) (best'.map (·.1)) tied' := by
  have hLookup := Seat.all_getElem? seat
  by_cases hExcluded : some seat = excluded
  · refine ⟨best, tied, ?_, hBest, (contenders_skip hExcluded).symm ▸ h⟩
    simp only [uniqueWinnerLoop, hLookup, if_pos hExcluded]
  · rw [contenders_succ hExcluded]
    have hSelf : ∀ b ∈ some (seat, score), b.2.value.toInt = scoreOf scores b.1 := by
      intro b hb
      cases hb
      exact hScore
    cases best with
    | none =>
        refine ⟨some (seat, score), false, ?_, hSelf, h.first⟩
        simp only [uniqueWinnerLoop, hLookup, if_neg hExcluded]
    | some b =>
        have hValue := hBest b rfl
        rcases Int.lt_trichotomy (scoreOf scores b.1) (scoreOf scores seat) with hLt | hEq | hGt
        · have hGreater : score.value > b.2.value := Int32.lt_iff_toInt_lt.mpr (by omega)
          refine ⟨some (seat, score), false, ?_, hSelf, h.ahead hLt⟩
          simp only [uniqueWinnerLoop, hLookup, if_neg hExcluded, if_pos hGreater]
        · have hNotGreater : ¬ score.value > b.2.value :=
            fun hGreater => absurd (Int32.lt_iff_toInt_lt.mp hGreater) (by omega)
          have hWord : score.value = b.2.value := Int32.toInt_inj.mp (by omega)
          have hSame : score = b.2 := congrArg Score.mk hWord
          have hNew : seat ∉ contenders seat.index excluded := fun hSeen => lt_irrefl _ hSeen.1
          refine ⟨some b, true, ?_, hBest, h.level hNew hEq.symm⟩
          simp only [uniqueWinnerLoop, hLookup, if_neg hExcluded, if_neg hNotGreater, if_pos hSame]
        · have hNotGreater : ¬ score.value > b.2.value :=
            fun hGreater => absurd (Int32.lt_iff_toInt_lt.mp hGreater) (by omega)
          have hNotSame : score ≠ b.2 := fun hSame => by
            rw [hSame] at hScore
            omega
          refine ⟨some b, tied, ?_, hBest, h.behind hGt⟩
          simp only [uniqueWinnerLoop, hLookup, if_neg hExcluded, if_neg hNotGreater,
            if_neg hNotSame]

theorem uniqueWinnerLoop_eq_some {scores : List Score} {excluded : Option Seat} {winner : Seat}
    (hLength : scores.length ≤ 4) :
    ∀ (rest : List Score) (bound : Nat) (best : Option (Seat × Score)) (tied : Bool),
      scores.drop bound = rest → bound ≤ scores.length →
      (∀ b ∈ best, b.2.value.toInt = scoreOf scores b.1) →
      Leader (scoreOf scores) (contenders bound excluded) (best.map (·.1)) tied →
      (uniqueWinnerLoop excluded (rest.zipIdx bound) best tied = some winner ↔
        StrictMax (scoreOf scores) (contenders scores.length excluded) winner) := by
  intro rest
  induction rest with
  | nil =>
      intro bound best tied hDrop hBound _ hLeader
      have hEnd : bound = scores.length := by
        have := List.drop_eq_nil_iff.mp hDrop
        omega
      rw [← hEnd]
      exact hLeader.winner_iff
  | cons score rest ih =>
      intro bound best tied hDrop hBound hBest hLeader
      have hLt : bound < scores.length := by
        have := congrArg List.length hDrop
        simp only [List.length_drop, List.length_cons] at this
        omega
      have hFour : bound < 4 := by omega
      obtain ⟨seat, rfl⟩ := Seat.exists_index hFour
      rw [List.drop_eq_getElem_cons hLt, List.cons.injEq] at hDrop
      obtain ⟨hHead, hTail⟩ := hDrop
      have hScore : score.value.toInt = scoreOf scores seat := by
        rw [scoreOf, List.getD_eq_getElem?_getD, List.getElem?_eq_getElem hLt, hHead,
          Option.getD_some]
      obtain ⟨best', tied', hStep, hBest', hLeader'⟩ :=
        uniqueWinnerLoop_step hScore hBest hLeader (rest.zipIdx (seat.index + 1))
      rw [List.zipIdx_cons, hStep]
      exact ih _ _ _ hTail hLt hBest' hLeader'

/-- The pass names a seat exactly when it is strictly ahead of every other
seat that takes part. -/
theorem uniqueWinner_eq_some {scores : List Score} {excluded : Option Seat} {winner : Seat}
    (hLength : scores.length ≤ 4) :
    uniqueWinner scores excluded = some winner ↔
      StrictMax (scoreOf scores) (contenders scores.length excluded) winner := by
  refine uniqueWinnerLoop_eq_some hLength scores 0 none false rfl (Nat.zero_le _) (by simp)
    (.empty ?_)
  ext seat
  simp [contenders]

end WordArena.Engine
