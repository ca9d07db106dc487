import Mathlib.Algebra.Order.Floor.Div
import Mathlib.Data.Int.Order.Basic
import Mathlib.Tactic.Ring

/-! A level that rises at a constant rate up to a ceiling, and draws from it. -/
namespace Meter

/-- The level after some time without draws. -/
def fill (ceiling rate level elapsed : Nat) : Nat := min ceiling (level + elapsed * rate)

section

variable {ceiling rate level : Nat}

theorem fill_le (ceiling rate level elapsed : Nat) : fill ceiling rate level elapsed ≤ ceiling :=
  min_le_left _ _

/-- A level may be read off at any time in between. -/
theorem fill_fill (ceiling rate level first second : Nat) :
    fill ceiling rate (fill ceiling rate level first) second =
      fill ceiling rate level (first + second) := by
  have hSplit : level + (first + second) * rate = level + first * rate + second * rate := by ring
  rw [fill, fill, fill, hSplit, ← min_add_add_right, ← min_assoc,
    min_eq_left (Nat.le_add_right ceiling (second * rate))]

/-- The waiting time for a cost is the missing part over the rate, rounded up. -/
theorem le_fill_iff {cost elapsed : Nat} (hCost : cost ≤ ceiling) (hRate : 0 < rate) :
    cost ≤ fill ceiling rate level elapsed ↔ (cost - level) ⌈/⌉ rate ≤ elapsed := by
  rw [ceilDiv_le_iff_le_mul hRate, Nat.sub_le_iff_le_add', mul_comm rate, fill, le_min_iff]
  exact and_iff_right hCost

/-- What can still be drawn between two times when the level was last read at a
third one. Draws before the first time leave at most a full meter. -/
def budget (ceiling rate : Nat) (start stop : Int) (level : Nat) (since : Int) : Nat :=
  if stop < since then 0
  else if since < start then ceiling + (stop - start).toNat * rate
  else min ceiling level + (stop - since).toNat * rate

theorem budget_le (start stop : Int) (level : Nat) (since : Int) :
    budget ceiling rate start stop level since ≤ ceiling + (stop - start).toNat * rate := by
  unfold budget
  split
  · exact Nat.zero_le _
  split
  · exact le_rfl
  · rename_i hStart
    have hShorter : (stop - since).toNat ≤ (stop - start).toNat := by omega
    exact Nat.add_le_add (min_le_left _ _) (Nat.mul_le_mul_right rate hShorter)

/-- A draw in the window is paid from the budget, and one outside adds nothing. -/
theorem budget_draw {start stop since now : Int} {drawn : Nat} (hClock : since ≤ now)
    (hDrawn : drawn ≤ fill ceiling rate level (now - since).toNat) :
    (if start ≤ now ∧ now ≤ stop then drawn else 0) +
        budget ceiling rate start stop (fill ceiling rate level (now - since).toNat - drawn) now ≤
      budget ceiling rate start stop level since := by
  have hFull := fill_le ceiling rate level (now - since).toNat
  by_cases hLate : stop < now
  · have hOut : ¬ (start ≤ now ∧ now ≤ stop) := fun h => by omega
    rw [if_neg hOut, budget, if_pos hLate]
    exact Nat.zero_le _
  have hOpen : ¬ stop < since := by omega
  by_cases hEarly : now < start
  · have hOut : ¬ (start ≤ now ∧ now ≤ stop) := fun h => by omega
    have hSince : since < start := by omega
    rw [if_neg hOut, budget, budget, if_neg hLate, if_pos hEarly, if_neg hOpen, if_pos hSince,
      Nat.zero_add]
  have hIn : start ≤ now ∧ now ≤ stop := ⟨by omega, by omega⟩
  have hPaid : drawn + min ceiling (fill ceiling rate level (now - since).toNat - drawn) =
      fill ceiling rate level (now - since).toNat := by
    rw [min_eq_right ((Nat.sub_le _ _).trans hFull)]
    omega
  rw [if_pos hIn, budget, if_neg hLate, if_neg hEarly, ← Nat.add_assoc, hPaid, budget, if_neg hOpen]
  split
  · -- The meter may have filled up before the window.
    have hShorter : (stop - now).toNat ≤ (stop - start).toNat := by omega
    exact Nat.add_le_add hFull (Nat.mul_le_mul_right rate hShorter)
  · have hTime : (stop - since).toNat = (now - since).toNat + (stop - now).toNat := by omega
    have hRise : fill ceiling rate level (now - since).toNat ≤
        min ceiling level + (now - since).toNat * rate := by
      unfold fill
      omega
    rw [hTime, Nat.add_mul, ← Nat.add_assoc]
    exact Nat.add_le_add_right hRise _

end

end Meter
