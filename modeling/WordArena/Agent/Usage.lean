import Mathlib.Data.List.Induction
import Mathlib.Data.List.Nodup
import WordArena.Agent.Process

/-! The accounts of a budget controller. What is reported is counted, unless it stands in
one report after a dimension that went above its limit. -/
namespace WordArena.Agent

section Counting

def maxCount : Nat := 2 ^ 64 - 1

variable {c : BudgetController} {dimension : BudgetDimension} {amount : Nat} {source : String}

/-- What one report of a dimension counts to. -/
def BudgetController.counted (c : BudgetController) (dimension : BudgetDimension) (amount : Nat) :
    BudgetDimension → Nat :=
  fun other => if other = dimension then saturatingAdd (c.consumption dimension) amount
    else c.consumption other

/-- The report takes the dimension above its limit. -/
def BudgetController.Overruns (c : BudgetController) (dimension : BudgetDimension)
    (amount : Nat) : Prop :=
  c.limits dimension < saturatingAdd (c.consumption dimension) amount

instance (c : BudgetController) (dimension : BudgetDimension) (amount : Nat) :
    Decidable (c.Overruns dimension amount) := by
  unfold BudgetController.Overruns
  infer_instance

/-- The numbering of the events, and an event for each dimension above its limit. The wall
time is not reported but read, so its count comes without an event. -/
structure BudgetController.Noted (c : BudgetController) : Prop where
  numbered : c.limitEvents.map (·.sequence) = List.range c.limitEvents.length
  above : ∀ dimension, dimension ≠ .wallTime → c.limits dimension < c.consumption dimension →
    ∃ event ∈ c.limitEvents, event.dimension = dimension ∧ event.limit = c.limits dimension ∧
      event.limit < event.observed

theorem Noted.recordLimit (h : c.Noted) {observed : Nat} :
    (c.recordLimit dimension observed source).Noted := by
  constructor
  · show (c.limitEvents ++ [_]).map BudgetLimitEvent.sequence =
      List.range (c.limitEvents ++ [_]).length
    rw [List.map_append, h.numbered, List.length_append, List.length_singleton, List.range_succ]
    rfl
  · intro other hOther hAbove
    obtain ⟨event, hEvent, hRest⟩ := h.above other hOther hAbove
    exact ⟨event, List.mem_append_left _ hEvent, hRest⟩

/-- What a report leaves behind. -/
structure Added (c : BudgetController) (dimension : BudgetDimension) (amount : Nat)
    (r : Bool × BudgetController) : Prop where
  limits : r.2.limits = c.limits
  consumption : r.2.consumption = c.counted dimension amount
  refused : r.1 = false ↔ c.Overruns dimension amount
  noted : c.Noted → r.2.Noted

theorem addAndCheck_added (c : BudgetController) (dimension : BudgetDimension) (amount : Nat)
    (source : String) : Added c dimension amount (c.addAndCheck dimension amount source) := by
  have hOthers : ∀ other, other ≠ dimension →
      c.counted dimension amount other = c.consumption other := fun other hOther => if_neg hOther
  have hOwn : c.counted dimension amount dimension =
      saturatingAdd (c.consumption dimension) amount := if_pos rfl
  rw [BudgetController.addAndCheck]
  split_ifs with hOver
  · refine ⟨rfl, rfl, iff_of_true rfl hOver, fun hNoted => ⟨?_, fun other hOther hAbove => ?_⟩⟩
    · exact (Noted.recordLimit hNoted).numbered
    · by_cases hSame : other = dimension
      · exact ⟨_, List.mem_append_right _ List.mem_cons_self, hSame.symm, by rw [hSame]; rfl, hOver⟩
      · obtain ⟨event, hEvent, hRest⟩ := hNoted.above other hOther (hOthers other hSame ▸ hAbove)
        exact ⟨event, List.mem_append_left _ hEvent, hRest⟩
  · refine ⟨rfl, rfl, iff_of_false Bool.noConfusion hOver, fun hNoted => ⟨hNoted.numbered, ?_⟩⟩
    intro other hOther hAbove
    by_cases hSame : other = dimension
    · subst hSame
      exact absurd (hOwn ▸ hAbove) hOver
    · exact hNoted.above other hOther (hOthers other hSame ▸ hAbove)

end Counting

section Reports

variable {c d : BudgetController} {source : String}
  {reports : List (BudgetDimension × Option Nat)}

/-- The part of a report that is not read any more: what follows the first dimension that
goes above its limit. -/
def BudgetController.unread (c : BudgetController) :
    List (BudgetDimension × Option Nat) → List (BudgetDimension × Option Nat)
  | [] => []
  | (_, none) :: rest => c.unread rest
  | (dimension, some amount) :: rest =>
      if c.Overruns dimension amount then rest else c.unread rest

theorem unread_congr (hLimits : d.limits = c.limits)
    (h : ∀ report ∈ reports, d.consumption report.1 = c.consumption report.1) :
    d.unread reports = c.unread reports := by
  induction reports with
  | nil => rfl
  | cons report rest ih =>
      obtain ⟨dimension, amount⟩ := report
      have hRest := ih fun other hOther => h other (List.mem_cons_of_mem _ hOther)
      cases amount with
      | none => exact hRest
      | some amount =>
          have hHere : d.consumption dimension = c.consumption dimension := h _ List.mem_cons_self
          simp only [BudgetController.unread, BudgetController.Overruns, hLimits, hHere, hRest]

theorem unread_suffix (c : BudgetController) (reports : List (BudgetDimension × Option Nat)) :
    c.unread reports <:+ reports := by
  induction reports with
  | nil => exact List.suffix_refl []
  | cons report rest ih =>
      obtain ⟨dimension, amount⟩ := report
      cases amount with
      | none => exact ih.trans (List.suffix_cons _ rest)
      | some amount =>
          rw [BudgetController.unread]
          split_ifs
          · exact List.suffix_cons _ rest
          · exact ih.trans (List.suffix_cons _ rest)

/-- What a loop over a report leaves behind. -/
structure AddedEach (c : BudgetController) (reports : List (BudgetDimension × Option Nat))
    (r : Bool × BudgetController) : Prop where
  limits : r.2.limits = c.limits
  noted : c.Noted → r.2.Noted
  others : ∀ dimension, dimension ∉ reports.map Prod.fst →
    r.2.consumption dimension = c.consumption dimension
  missing : ∀ dimension, (dimension, none) ∈ reports →
    r.2.consumption dimension = c.consumption dimension
  unread : ∀ report ∈ c.unread reports, r.2.consumption report.1 = c.consumption report.1
  counted : ∀ dimension amount, (dimension, some amount) ∈ reports →
    (dimension, some amount) ∉ c.unread reports →
    r.2.consumption dimension = saturatingAdd (c.consumption dimension) amount
  refused : r.1 = false ↔ ∃ dimension amount, (dimension, some amount) ∈ reports ∧
    c.limits dimension < r.2.consumption dimension

variable {dimension : BudgetDimension} {amount : Nat} {rest : List (BudgetDimension × Option Nat)}
  {r : Bool × BudgetController}

theorem ne_of_fresh (hFresh : dimension ∉ rest.map Prod.fst) {report : BudgetDimension × Option Nat}
    (hReport : report ∈ rest) : report.1 ≠ dimension := fun hSame =>
  hFresh (List.mem_map.mpr ⟨report, hReport, hSame⟩)

/-- A field that was not reported. -/
theorem AddedEach.skip (hFresh : dimension ∉ rest.map Prod.fst) (h : AddedEach c rest r) :
    AddedEach c ((dimension, none) :: rest) r := by
  refine ⟨h.limits, h.noted, fun other hAbsent => ?_, fun other hNone => ?_, h.unread,
    fun other amount hSome hRead => ?_, by simpa using h.refused⟩
  · exact h.others other fun hMem => hAbsent (List.mem_cons_of_mem _ hMem)
  · rcases List.mem_cons.mp hNone with hHead | hLater
    · cases hHead
      exact h.others dimension hFresh
    · exact h.missing other hLater
  · exact h.counted other amount (by simpa using hSome) hRead

theorem Added.own (h : Added c dimension amount r) :
    r.2.consumption dimension = saturatingAdd (c.consumption dimension) amount := by
  rw [h.consumption]
  exact if_pos rfl

theorem Added.other (h : Added c dimension amount r) {other : BudgetDimension}
    (hOther : other ≠ dimension) : r.2.consumption other = c.consumption other := by
  rw [h.consumption]
  exact if_neg hOther

/-- A field that goes above its limit ends the loop. -/
theorem Added.stop (hFresh : dimension ∉ rest.map Prod.fst)
    (h : Added c dimension amount (false, d)) :
    AddedEach c ((dimension, some amount) :: rest) (false, d) := by
  have hOver : c.Overruns dimension amount := h.refused.mp rfl
  have hUnread : c.unread ((dimension, some amount) :: rest) = rest := if_pos hOver
  refine ⟨h.limits, h.noted, fun other hAbsent => ?_, fun other hNone => ?_,
    fun report hReport => ?_, fun other amount hSome hRead => ?_, ?_⟩
  · exact h.other fun hSame => hAbsent (hSame ▸ List.mem_cons_self)
  · rcases List.mem_cons.mp hNone with hHead | hLater
    · cases hHead
    · exact h.other (ne_of_fresh hFresh hLater)
  · exact h.other (ne_of_fresh hFresh (hUnread ▸ hReport))
  · rcases List.mem_cons.mp hSome with hHead | hLater
    · cases hHead
      exact h.own
    · exact absurd (hUnread.symm ▸ hLater) hRead
  · refine iff_of_true rfl ⟨dimension, amount, List.mem_cons_self, ?_⟩
    rw [h.own]
    exact hOver

/-- After a field within its limit the loop goes on. What was counted before does not matter
for the other dimensions. -/
theorem Added.proceed (hFresh : dimension ∉ rest.map Prod.fst)
    (h : Added c dimension amount (true, d)) (hRest : AddedEach d rest r) :
    AddedEach c ((dimension, some amount) :: rest) r := by
  have hWithin : ¬ c.Overruns dimension amount := fun hOver =>
    Bool.noConfusion (h.refused.mpr hOver)
  have hSame : d.unread rest = c.unread rest := unread_congr h.limits
    fun report hReport => h.other (ne_of_fresh hFresh hReport)
  have hUnread : c.unread ((dimension, some amount) :: rest) = c.unread rest := if_neg hWithin
  refine ⟨hRest.limits.trans h.limits, fun hNoted => hRest.noted (h.noted hNoted),
    fun other hAbsent => ?_, fun other hNone => ?_, fun report hReport => ?_,
    fun other count hSome hRead => ?_, hRest.refused.trans ⟨?_, ?_⟩⟩
  · rw [List.map_cons, List.mem_cons, not_or] at hAbsent
    exact (hRest.others other hAbsent.2).trans (h.other hAbsent.1)
  · rcases List.mem_cons.mp hNone with hHead | hLater
    · cases hHead
    · exact (hRest.missing other hLater).trans (h.other (ne_of_fresh hFresh hLater))
  · rw [hUnread, ← hSame] at hReport
    have hMem := (unread_suffix d rest).subset hReport
    exact (hRest.unread report hReport).trans (h.other (ne_of_fresh hFresh hMem))
  · rcases List.mem_cons.mp hSome with hHead | hLater
    · cases hHead
      exact (hRest.others dimension hFresh).trans h.own
    · rw [hUnread, ← hSame] at hRead
      rw [hRest.counted other count hLater hRead]
      exact congrArg (saturatingAdd · count) (h.other (ne_of_fresh hFresh hLater))
  · intro ⟨other, count, hSome, hAbove⟩
    exact ⟨other, count, List.mem_cons_of_mem _ hSome, h.limits ▸ hAbove⟩
  · intro ⟨other, count, hSome, hAbove⟩
    rcases List.mem_cons.mp hSome with hHead | hLater
    · cases hHead
      rw [hRest.others dimension hFresh, h.own] at hAbove
      exact absurd hAbove hWithin
    · exact ⟨other, count, hLater, h.limits.symm ▸ hAbove⟩

/-- The induction is on the report; a dimension stands in it once. -/
theorem addEach_added (c : BudgetController) (source : String)
    (hDistinct : (reports.map Prod.fst).Nodup) : AddedEach c reports (c.addEach source reports) := by
  induction reports generalizing c with
  | nil =>
      exact ⟨rfl, id, fun _ _ => rfl, nofun, nofun, nofun, by simp [BudgetController.addEach]⟩
  | cons report rest ih =>
      rw [List.map_cons, List.nodup_cons] at hDistinct
      obtain ⟨hFresh, hDistinct⟩ := hDistinct
      obtain ⟨dimension, amount⟩ := report
      cases amount with
      | none => exact (ih c hDistinct).skip hFresh
      | some amount =>
          have hAdded := addAndCheck_added c dimension amount source
          rw [BudgetController.addEach]
          cases hResult : c.addAndCheck dimension amount source with
          | mk within d =>
              rw [hResult] at hAdded
              cases within with
              | false => exact hAdded.stop hFresh
              | true => exact hAdded.proceed hFresh (ih d hDistinct)

end Reports

section Calls

/-- The calls of a controller. The last two report nothing. -/
inductive BudgetCall where
  | beginAttempt
  | recordToolCalls (count : Nat)
  | recordOutputBytes (count : Nat)
  | recordNetworkBytes (count : Nat)
  | recordReportedUsage (inputTokens outputTokens costMicrousd : Option Nat)
  | recordWallTimeout (elapsedMs : Nat)
  | snapshot (elapsedMs : Nat)

/-- Whether a call is not refused, and the controller after it. -/
def BudgetCall.perform (c : BudgetController) : BudgetCall → Bool × BudgetController
  | .beginAttempt => c.beginAttempt
  | .recordToolCalls count => c.recordToolCalls count
  | .recordOutputBytes count => c.recordOutputBytes count
  | .recordNetworkBytes count => c.recordNetworkBytes count
  | .recordReportedUsage input output cost => c.recordReportedUsage input output cost
  | .recordWallTimeout elapsedMs => (true, c.recordWallTimeout elapsedMs)
  | .snapshot elapsedMs => (true, (c.snapshot elapsedMs).2)

/-- What a call reports, in the order in which it is read. -/
def BudgetCall.reports : BudgetCall → List (BudgetDimension × Option Nat)
  | .beginAttempt => [(.attempts, some 1)]
  | .recordToolCalls count => [(.toolCalls, some count)]
  | .recordOutputBytes count => [(.outputBytes, some count)]
  | .recordNetworkBytes count => [(.networkBytes, some count)]
  | .recordReportedUsage input output cost =>
      [(.inputTokens, input), (.outputTokens, output), (.cost, cost)]
  | .recordWallTimeout _ => []
  | .snapshot _ => []

/-- The amount that a call reports for a dimension. -/
def BudgetCall.amount (call : BudgetCall) (dimension : BudgetDimension) : Nat :=
  (call.reports.filterMap fun report => if report.1 = dimension then report.2 else none).sum

def BudgetController.run (c : BudgetController) (calls : List BudgetCall) : BudgetController :=
  calls.foldl (fun c call => (call.perform c).2) c

/-- Nothing that counts stands in a report after the first dimension that goes above its
limit. -/
def BudgetCall.Lossless (c : BudgetController) (call : BudgetCall) : Prop :=
  ∀ dimension amount, (dimension, some amount) ∈ c.unread call.reports →
    amount = 0 ∨ c.consumption dimension = maxCount

variable {c : BudgetController} {call : BudgetCall}

theorem reports_distinct (call : BudgetCall) : (call.reports.map Prod.fst).Nodup := by
  cases call <;> simp [BudgetCall.reports]

theorem reports_metered (call : BudgetCall) : .wallTime ∉ call.reports.map Prod.fst := by
  cases call <;> simp [BudgetCall.reports]

/-- A single report is a loop of one turn. -/
theorem addEach_single (c : BudgetController) (source : String) (dimension : BudgetDimension)
    (amount : Nat) :
    c.addEach source [(dimension, some amount)] = c.addAndCheck dimension amount source := by
  rw [BudgetController.addEach]
  split
  · rename_i hResult
    exact hResult.symm
  · rename_i hResult
    exact hResult.symm

/-- What one call leaves behind. -/
structure Performed (c : BudgetController) (call : BudgetCall) (r : Bool × BudgetController) :
    Prop where
  limits : r.2.limits = c.limits
  noted : c.Noted → r.2.Noted
  timed : r.2.consumption .wallTime ≤ maxCount
  lost : ∀ report ∈ c.unread call.reports, r.2.consumption report.1 = c.consumption report.1
  counted : ∀ dimension, dimension ≠ .wallTime →
    dimension ∉ (c.unread call.reports).map Prod.fst →
    r.2.consumption dimension = saturatingAdd (c.consumption dimension) (call.amount dimension)
  refused : r.1 = false ↔ ∃ dimension amount, (dimension, some amount) ∈ call.reports ∧
    c.limits dimension < r.2.consumption dimension

/-- A dimension that stands in a report once is summed to its own amount. -/
theorem sum_reported {reports : List (BudgetDimension × Option Nat)}
    (hDistinct : (reports.map Prod.fst).Nodup) {dimension : BudgetDimension} {value : Option Nat}
    (h : (dimension, value) ∈ reports) :
    (reports.filterMap fun report => if report.1 = dimension then report.2 else none).sum =
      value.getD 0 := by
  induction reports with
  | nil => cases h
  | cons report rest ih =>
      rw [List.map_cons, List.nodup_cons] at hDistinct
      rcases List.mem_cons.mp h with hHead | hLater
      · have hNone : (rest.filterMap fun report =>
            if report.1 = dimension then report.2 else none) = [] := by
          apply List.filterMap_eq_nil_iff.mpr
          intro other hOther
          apply if_neg
          subst hHead
          exact ne_of_fresh hDistinct.1 hOther
        subst hHead
        cases value <;> simp [hNone]
      · have hOther : report.1 ≠ dimension := fun hSame =>
          hDistinct.1 (List.mem_map.mpr ⟨_, hLater, hSame.symm⟩)
        rw [List.filterMap_cons_none (by rw [if_neg hOther])]
        exact ih hDistinct.2 hLater

theorem sum_unreported {reports : List (BudgetDimension × Option Nat)}
    {dimension : BudgetDimension} (h : dimension ∉ reports.map Prod.fst) :
    (reports.filterMap fun report => if report.1 = dimension then report.2 else none).sum = 0 := by
  have hNone : (reports.filterMap fun report =>
      if report.1 = dimension then report.2 else none) = [] :=
    List.filterMap_eq_nil_iff.mpr fun report hReport => if_neg (ne_of_fresh h hReport)
  rw [hNone, List.sum_nil]

theorem saturatingAdd_zero {count : Nat} (h : count ≤ maxCount) : saturatingAdd count 0 = count :=
  Nat.min_eq_left h

/-- A counter stays where it is exactly when nothing is added or it is at its end. -/
theorem eq_saturatingAdd_iff {count amount : Nat} (h : count ≤ maxCount) :
    count = saturatingAdd count amount ↔ amount = 0 ∨ count = maxCount := by
  have hEnd : saturatingAdd count amount = min (count + amount) maxCount := rfl
  rw [hEnd, Nat.min_def]
  split_ifs
  · omega
  · omega

theorem AddedEach.performed {r : Bool × BudgetController} (h : AddedEach c call.reports r)
    (hBounded : ∀ dimension, c.consumption dimension ≤ maxCount) : Performed c call r := by
  have hTimed : r.2.consumption .wallTime ≤ maxCount := by
    rw [h.others .wallTime (reports_metered call)]
    exact hBounded .wallTime
  refine ⟨h.limits, h.noted, hTimed, h.unread, fun dimension _ hRead => ?_, h.refused⟩
  by_cases hReported : dimension ∈ call.reports.map Prod.fst
  · obtain ⟨⟨other, value⟩, hMem, rfl⟩ := List.mem_map.mp hReported
    rw [BudgetCall.amount, sum_reported (reports_distinct call) hMem]
    cases value with
    | none => rw [h.missing _ hMem, Option.getD_none, saturatingAdd_zero (hBounded _)]
    | some amount =>
        exact h.counted _ amount hMem fun hLost => hRead (List.mem_map_of_mem (f := Prod.fst) hLost)
  · rw [h.others dimension hReported, BudgetCall.amount, sum_unreported hReported,
      saturatingAdd_zero (hBounded dimension)]

theorem Performed.bounded {r : Bool × BudgetController} (h : Performed c call r)
    (hBounded : ∀ dimension, c.consumption dimension ≤ maxCount) (dimension : BudgetDimension) :
    r.2.consumption dimension ≤ maxCount := by
  by_cases hTime : dimension = .wallTime
  · exact hTime ▸ h.timed
  · by_cases hLost : dimension ∈ (c.unread call.reports).map Prod.fst
    · obtain ⟨report, hReport, rfl⟩ := List.mem_map.mp hLost
      rw [h.lost report hReport]
      exact hBounded _
    · rw [h.counted dimension hTime hLost]
      exact Nat.min_le_right _ _

theorem performed (c : BudgetController) (call : BudgetCall)
    (hBounded : ∀ dimension, c.consumption dimension ≤ maxCount) :
    Performed c call (call.perform c) := by
  have hEach : ∀ source, AddedEach c call.reports (c.addEach source call.reports) := fun source =>
    addEach_added c source (reports_distinct call)
  have hSingle : ∀ dimension amount source, call.reports = [(dimension, some amount)] →
      Performed c call (c.addAndCheck dimension amount source) := by
    intro dimension amount source hReports
    apply AddedEach.performed _ hBounded
    rw [← addEach_single, ← hReports]
    exact hEach source
  cases call with
  | beginAttempt => exact hSingle .attempts 1 _ rfl
  | recordToolCalls count => exact hSingle .toolCalls count _ rfl
  | recordOutputBytes count => exact hSingle .outputBytes count _ rfl
  | recordNetworkBytes count => exact hSingle .networkBytes count _ rfl
  | recordReportedUsage input output cost => exact (hEach _).performed hBounded
  | recordWallTimeout elapsedMs =>
      rw [BudgetCall.perform, BudgetController.recordWallTimeout]
      split_ifs
      · exact ⟨rfl, id, hBounded .wallTime, nofun, fun dimension _ _ => (saturatingAdd_zero (hBounded dimension)).symm,
          by simp [BudgetCall.reports]⟩
      · exact ⟨rfl, fun hNoted => Noted.recordLimit hNoted, hBounded .wallTime, nofun,
          fun dimension _ _ => (saturatingAdd_zero (hBounded dimension)).symm,
          by simp [BudgetCall.reports]⟩
  | snapshot elapsedMs =>
      have hKept : ∀ dimension, dimension ≠ .wallTime →
          (c.snapshot elapsedMs).2.consumption dimension = c.consumption dimension :=
        fun dimension hMetered => if_neg hMetered
      refine ⟨rfl, fun hNoted => ⟨hNoted.numbered, fun dimension hMetered hAbove => ?_⟩,
        Nat.min_le_right _ _, nofun, fun dimension hMetered _ => ?_, by simp [BudgetCall.perform, BudgetCall.reports]⟩
      · exact hNoted.above dimension hMetered (hKept dimension hMetered ▸ hAbove)
      · exact (hKept dimension hMetered).trans (saturatingAdd_zero (hBounded dimension)).symm

end Calls

section Runs

variable {limits : BudgetDimension → Nat} {clock : Nat → Int} {calls : List BudgetCall}

/-- The controller of a run after some calls. -/
def metered (limits : BudgetDimension → Nat) (clock : Nat → Int) (calls : List BudgetCall) :
    BudgetController :=
  (BudgetController.new limits clock).run calls

theorem metered_append (calls : List BudgetCall) (call : BudgetCall) :
    metered limits clock (calls ++ [call]) = (call.perform (metered limits clock calls)).2 := by
  rw [metered, BudgetController.run, List.foldl_append]
  rfl

/-- The counters are `u64`, the limits stay, and the events are in order. -/
theorem metered_sound (limits : BudgetDimension → Nat) (clock : Nat → Int)
    (calls : List BudgetCall) :
    (∀ dimension, (metered limits clock calls).consumption dimension ≤ maxCount) ∧
      (metered limits clock calls).limits = limits ∧ (metered limits clock calls).Noted := by
  induction calls using List.reverseRecOn with
  | nil => exact ⟨fun _ => Nat.zero_le _, rfl, rfl, fun _ _ hAbove => absurd hAbove (Nat.not_lt_zero _)⟩
  | append_singleton calls call ih =>
      obtain ⟨hBounded, hLimits, hNoted⟩ := ih
      have hCall := performed _ call hBounded
      rw [metered_append]
      exact ⟨hCall.bounded hBounded, hCall.limits.trans hLimits, hCall.noted hNoted⟩

/-- Everything that some calls reported, as a `u64` that does not wrap. -/
def reportedTotal (calls : List BudgetCall) (dimension : BudgetDimension) : Nat :=
  min (calls.map (·.amount dimension)).sum maxCount

theorem reportedTotal_append (calls : List BudgetCall) (call : BudgetCall)
    (dimension : BudgetDimension) :
    reportedTotal (calls ++ [call]) dimension =
      saturatingAdd (reportedTotal calls dimension) (call.amount dimension) := by
  have hSum : ((calls ++ [call]).map (·.amount dimension)).sum =
      (calls.map (·.amount dimension)).sum + call.amount dimension := by simp
  show min _ maxCount = min (min _ maxCount + _) maxCount
  rw [hSum]
  omega

/-- The accounts of a run as a snapshot shows them. -/
structure Accounts (limits : BudgetDimension → Nat) (clock : Nat → Int)
    (calls : List BudgetCall) : Prop where
  consumption : ∀ elapsedMs dimension, dimension ≠ .wallTime →
    ((metered limits clock calls).snapshot elapsedMs).1.consumption dimension =
      reportedTotal calls dimension
  refused : ∀ front call, calls = front ++ [call] →
    ((call.perform (metered limits clock front)).1 = false ↔
      ∃ dimension amount, (dimension, some amount) ∈ call.reports ∧
        limits dimension < (metered limits clock calls).consumption dimension)
  above : ∀ elapsedMs dimension, dimension ≠ .wallTime →
    limits dimension < ((metered limits clock calls).snapshot elapsedMs).1.consumption dimension →
    ∃ event ∈ ((metered limits clock calls).snapshot elapsedMs).1.limitEvents,
      event.dimension = dimension ∧ limits dimension < event.observed
  numbered : ∀ elapsedMs,
    ((metered limits clock calls).snapshot elapsedMs).1.limitEvents.map (·.sequence) =
      List.range ((metered limits clock calls).snapshot elapsedMs).1.limitEvents.length

theorem snapshot_consumption (c : BudgetController) (elapsedMs : Nat) {dimension : BudgetDimension}
    (h : dimension ≠ .wallTime) :
    (c.snapshot elapsedMs).1.consumption dimension = c.consumption dimension :=
  if_neg h

/-- Refusals and events are in order in every run; the counters are what is left to show. -/
theorem accounts_iff : Accounts limits clock calls ↔ ∀ dimension, dimension ≠ .wallTime →
    (metered limits clock calls).consumption dimension = reportedTotal calls dimension := by
  constructor
  · intro h dimension hMetered
    rw [← h.consumption 0 dimension hMetered, snapshot_consumption _ 0 hMetered]
  · intro h
    obtain ⟨-, hLimits, hNoted⟩ := metered_sound limits clock calls
    refine ⟨fun elapsedMs dimension hMetered => ?_, fun front call hCalls => ?_,
      fun elapsedMs dimension hMetered hAbove => ?_, fun _ => hNoted.numbered⟩
    · rw [snapshot_consumption _ elapsedMs hMetered]
      exact h dimension hMetered
    · obtain ⟨hBounded, hBefore, -⟩ := metered_sound limits clock front
      have hCall := (performed _ call hBounded).refused
      rw [hBefore, ← metered_append, ← hCalls] at hCall
      exact hCall
    · rw [snapshot_consumption _ elapsedMs hMetered, ← congrFun hLimits dimension] at hAbove
      obtain ⟨event, hEvent, hSame, hLimit, hObserved⟩ := hNoted.above dimension hMetered hAbove
      exact ⟨event, hEvent, hSame, by rwa [hLimit, hLimits] at hObserved⟩

/-- One more call keeps the accounts exactly when nothing that counts is left unread. -/
theorem accounts_append (h : Accounts limits clock calls) (call : BudgetCall) :
    Accounts limits clock (calls ++ [call]) ↔ call.Lossless (metered limits clock calls) := by
  obtain ⟨hBounded, -, -⟩ := metered_sound limits clock calls
  have hCall := performed _ call hBounded
  have hBefore := accounts_iff.mp h
  have hReported : ∀ dimension amount,
      (dimension, some amount) ∈ (metered limits clock calls).unread call.reports →
      dimension ≠ .wallTime ∧ call.amount dimension = amount := by
    intro dimension amount hLost
    have hMem := (unread_suffix _ call.reports).subset hLost
    refine ⟨?_, sum_reported (reports_distinct call) hMem⟩
    rintro rfl
    exact reports_metered call (List.mem_map_of_mem (f := Prod.fst) hMem)
  have hLost : ∀ dimension amount,
      (dimension, some amount) ∈ (metered limits clock calls).unread call.reports →
      ((metered limits clock (calls ++ [call])).consumption dimension =
          reportedTotal (calls ++ [call]) dimension ↔
        amount = 0 ∨ (metered limits clock calls).consumption dimension = maxCount) := by
    intro dimension amount hMem
    obtain ⟨hMetered, hAmount⟩ := hReported dimension amount hMem
    rw [metered_append, hCall.lost _ hMem, reportedTotal_append, ← hBefore dimension hMetered,
      hAmount]
    exact eq_saturatingAdd_iff (hBounded dimension)
  rw [accounts_iff]
  constructor
  · intro hAfter dimension amount hMem
    exact (hLost dimension amount hMem).mp (hAfter dimension (hReported dimension amount hMem).1)
  · intro hLossless dimension hMetered
    by_cases hRead : dimension ∈ ((metered limits clock calls).unread call.reports).map Prod.fst
    · obtain ⟨⟨other, value⟩, hMem, rfl⟩ := List.mem_map.mp hRead
      cases value with
      | some amount => exact (hLost other amount hMem).mpr (hLossless other amount hMem)
      | none =>
          have hAmount : call.amount other = 0 :=
            sum_reported (reports_distinct call) ((unread_suffix _ call.reports).subset hMem)
          rw [metered_append, hCall.lost _ hMem, reportedTotal_append, ← hBefore other hMetered,
            hAmount, saturatingAdd_zero (hBounded other)]
    · rw [metered_append, hCall.counted dimension hMetered hRead, reportedTotal_append,
        hBefore dimension hMetered]

/-- The accounts hold after every part of a run exactly when no call of it reports an amount
that counts after a dimension that goes above its limit. -/
theorem usage_accounted_iff (limits : BudgetDimension → Nat) (clock : Nat → Int)
    (calls : List BudgetCall) :
    (∀ front, front <+: calls → Accounts limits clock front) ↔
      ∀ front call, front ++ [call] <+: calls → call.Lossless (metered limits clock front) := by
  constructor
  · intro h front call hPrefix
    have hFront := h front ((List.prefix_append front [call]).trans hPrefix)
    exact (accounts_append hFront call).mp (h _ hPrefix)
  · intro h front hPrefix
    induction front using List.reverseRecOn with
    | nil => exact accounts_iff.mpr fun _ _ => rfl
    | append_singleton front call ih =>
        have hFront := ih ((List.prefix_append front [call]).trans hPrefix)
        exact (accounts_append hFront call).mpr (h front call hPrefix)

/-- Output tokens that are reported with too many input tokens are not counted. -/
theorem output_tokens_lost :
    ((metered (fun _ => 10) (fun _ => 0) [.recordReportedUsage (some 11) (some 5) none]).snapshot
      0).1.consumption .outputTokens = 0 ∧
    reportedTotal [.recordReportedUsage (some 11) (some 5) none] .outputTokens = 5 ∧
    ¬ Accounts (fun _ => 10) (fun _ => 0) [.recordReportedUsage (some 11) (some 5) none] := by
  have hCount : ((metered (fun _ => 10) (fun _ => 0)
      [.recordReportedUsage (some 11) (some 5) none]).snapshot 0).1.consumption .outputTokens = 0 :=
    rfl
  have hTotal : reportedTotal [.recordReportedUsage (some 11) (some 5) none] .outputTokens = 5 :=
    rfl
  refine ⟨hCount, hTotal, fun hAccounts => ?_⟩
  have hSame := hAccounts.consumption 0 .outputTokens (by decide)
  rw [hCount, hTotal] at hSame
  cases hSame

end Runs

end WordArena.Agent
