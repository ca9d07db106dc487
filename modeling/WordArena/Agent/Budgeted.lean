import WordArena.Agent.Termination

/-! The driver that enforces a budget around another one. The adapter of the inner driver
meters its processes for the same controller. -/
namespace WordArena.Agent

open Async

/-- The calls of an inner driver. -/
abbrev AgentDriver (Own : Type) := Bool → Call → Op Own (Option VisibleTurnOutput)

/-- A call of the wrapper: when a turn is left waiting as the wall time ends, and for the
termination that follows, there is a second script. -/
structure BudgetedInvocation where
  call : Call
  cancelled : Bool
  answers : List Moment
  elapsedMs : Nat
  after : List Moment

namespace BudgetedAgentDriver

variable {Own : Type}

/-- The end of a run whose budget is used up. -/
def exhaust (inner : AgentDriver Own) (after : List Moment) (w : World Own) :
    Option (World Own × Except DriverError (Option VisibleTurnOutput)) :=
  (inner false (.terminate .budgetExceeded) steady w after).completed.map fun ended =>
    (ended.1, .error .budgetExceeded)

/-- The tool calls of a turn are charged when it is over. -/
def settleTurn (inner : AgentDriver Own) (after : List Moment) (w : World Own) :
    Except DriverError (Option VisibleTurnOutput) →
      Option (World Own × Except DriverError (Option VisibleTurnOutput))
  | .error (.process .limitExceeded) => some (w, .error .budgetExceeded)
  | .error e => some (w, .error e)
  | .ok output =>
      let charged := w.budget.recordToolCalls (output.elim 0 (·.toolCalls.length))
      if charged.1 = true then some (w.spent charged.2, .ok output)
      else exhaust inner after (w.spent charged.2)

/-- A turn within the wall time that remains. -/
def timeTurn (inner : AgentDriver Own) (request : TurnRequest) (i : BudgetedInvocation)
    (w : World Own) : Option (World Own × Except DriverError (Option VisibleTurnOutput)) :=
  match inner i.cancelled (.requestTurn request) steady w i.answers with
  | .waiting t => exhaust inner i.after (t.spent (t.budget.recordWallTimeout i.elapsedMs))
  | .interrupted _ _ => none
  | .finished t result _ => settleTurn inner i.after t result

def requestTurn (inner : AgentDriver Own) (request : TurnRequest) (i : BudgetedInvocation)
    (w : World Own) : Option (World Own × Except DriverError (Option VisibleTurnOutput)) :=
  if w.budget.beginAttempt.1 = true then timeTurn inner request i (w.spent w.budget.beginAttempt.2)
  else exhaust inner i.after (w.spent w.budget.beginAttempt.2)

def call (inner : AgentDriver Own) (w : World Own) (i : BudgetedInvocation) :
    Option (World Own × Except DriverError (Option VisibleTurnOutput)) :=
  match i.call with
  | .requestTurn request => requestTurn inner request i w
  | other => (inner i.cancelled other steady w i.answers).completed

end BudgetedAgentDriver

/-- Every process that is told to end does so. -/
def Ending (answers : List Moment) : Prop :=
  ∀ moment ∈ answers, ∃ status, moment.terminated = .ok status

/-- What the wrapper relies on: what holds between the calls of the inner driver, and
inside a turn. -/
structure Contract {Own : Type} (inner : AgentDriver Own) (inv inside : World Own → Prop) : Prop where
  spent : ∀ {w} budget, inv w → inv (w.spent budget)
  insideSpent : ∀ {w} budget, inside w → inside (w.spent budget)
  perform : ∀ {w} cancelled call answers, inv w → Ensures (inner cancelled call) steady w answers
    (fun _ => True) (fun _ _ => True) fun t _ _ => inv t
  turn : ∀ {w} cancelled request answers, inv w →
    Ensures (inner cancelled (.requestTurn request)) steady w answers
      (fun t => inside t ∧ Alive t) (fun _ _ => True) fun t _ result =>
        inv t ∧ (∀ a, result = .ok a → Alive t) ∧
          ∀ e, result = .error e → Reportable (Unlimited w.budget answers) e
  terminate : ∀ {w} reason answers, inv w ∨ inside w → Alive w → Ending answers →
    Ensures (inner false (.terminate reason)) steady w answers
      (fun _ => True) (fun _ _ => True) fun t _ _ => inv t ∧ t.core.state = .terminated reason
  ended : ∀ {w} cancelled call answers reason, inv w → w.core.state = .terminated reason →
    Ensures (inner cancelled call) steady w answers (fun _ => False) (fun _ _ => True) fun t _ _ =>
      inv t ∧ t.acts = w.acts ∧ (∃ later, t.core.state = .terminated later) ∧
        (call ≠ .resume → t.core.state = w.core.state)

namespace BudgetedAgentDriver

variable {Own : Type} {inner : AgentDriver Own} {inv inside : World Own → Prop} {w t : World Own}
  {i : BudgetedInvocation} {result : Except DriverError (Option VisibleTurnOutput)}

/-- A turn that the budget below the driver does not refuse, of a run that has not ended for
another reason. -/
structure Within (w : World Own) (i : BudgetedInvocation) : Prop where
  ending : Ending i.answers ∧ Ending i.after
  turn : ∀ request, i.call = .requestTurn request → Unlimited w.budget i.answers ∧
    ∀ reason, w.core.state = .terminated reason → reason = .budgetExceeded

theorem exhaust_eq {after : List Moment} (h : exhaust inner after w = some (t, result)) :
    ∃ outcome, (inner false (.terminate .budgetExceeded) steady w after).completed =
      some (t, outcome) := by
  obtain ⟨⟨u, outcome⟩, hRun, hEnd⟩ := Option.map_eq_some_iff.mp h
  cases hEnd
  exact ⟨outcome, hRun⟩

/-- The wrapper ends a run that had not ended. -/
theorem exhausted (hContract : Contract inner inv inside) {after : List Moment}
    (hw : inv w ∨ inside w) (hAlive : Alive w) (hEnding : Ending after)
    (h : exhaust inner after w = some (t, result)) :
    inv t ∧ t.core.state = .terminated .budgetExceeded := by
  obtain ⟨outcome, hRun⟩ := exhaust_eq h
  obtain ⟨_, hEnd⟩ := (hContract.terminate .budgetExceeded after hw hAlive hEnding).completed hRun
  exact hEnd

/-- Ending a run a second time keeps its outcome. -/
theorem exhausted_again (hContract : Contract inner inv inside) {after : List Moment}
    {reason : TerminationReason} (hw : inv w) (hState : w.core.state = .terminated reason)
    (h : exhaust inner after w = some (t, result)) :
    inv t ∧ t.acts = w.acts ∧ t.core.state = .terminated reason := by
  obtain ⟨outcome, hRun⟩ := exhaust_eq h
  obtain ⟨_, hInv, hActs, -, hSame⟩ := (hContract.ended false (.terminate .budgetExceeded) after reason
    hw hState).completed hRun
  exact ⟨hInv, hActs, (hSame nofun).trans hState⟩

/-- Attempts are counted apart from output. -/
theorem unlimited_attempt {budget : BudgetController} {answers : List Moment}
    (h : Unlimited budget answers) : Unlimited budget.beginAttempt.2 answers := by
  refine ⟨h.deadline, h.spawned, h.reattached, h.written, h.inputClosed, h.event, ?_⟩
  rw [BudgetController.beginAttempt, BudgetController.addAndCheck]
  split_ifs <;> exact h.output

/-- How a turn is settled. -/
theorem settleTurn_cases {after : List Moment}
    {outcome : Except DriverError (Option VisibleTurnOutput)}
    (h : settleTurn inner after w outcome = some (t, result)) :
    (∃ e, outcome = .error e ∧ t = w ∧ (result = .error e ∨ e = .process .limitExceeded)) ∨
      (∃ output budget, outcome = .ok output ∧ result = .ok output ∧ t = w.spent budget) ∨
      ∃ output budget, outcome = .ok output ∧
        exhaust inner after (w.spent budget) = some (t, result) := by
  cases outcome with
  | error e =>
      left
      by_cases hLimit : e = .process .limitExceeded
      · subst hLimit
        cases h
        exact ⟨_, rfl, rfl, .inr rfl⟩
      · have hSettled : settleTurn inner after w (.error e) = some (w, .error e) := by
          cases e with
          | process pe =>
              cases pe with
              | limitExceeded => exact absurd rfl hLimit
              | _ => rfl
          | _ => rfl
        cases hSettled.symm.trans h
        exact ⟨e, rfl, rfl, .inl rfl⟩
  | ok output =>
      right
      rw [settleTurn] at h
      split_ifs at h
      · cases h
        exact .inl ⟨output, _, rfl, rfl, rfl⟩
      · exact .inr ⟨output, _, rfl, h⟩

/-- A turn that reports the budget has ended the run for it. -/
theorem turn_terminal (hContract : Contract inner inv inside) (hw : inv w) (hWithin : Within w i)
    {request : TurnRequest} (hTurn : i.call = .requestTurn request)
    (h : requestTurn inner request i w = some (t, result)) :
    inv t ∧ (result = .error .budgetExceeded → t.core.state = .terminated .budgetExceeded) := by
  obtain ⟨hUnlimited, hReason⟩ := hWithin.turn request hTurn
  have hStart := hContract.spent w.budget.beginAttempt.2 hw
  have hExhausted : ∀ u, inv u ∨ inside u → Alive u → exhaust inner i.after u = some (t, result) →
      inv t ∧ (result = .error .budgetExceeded → t.core.state = .terminated .budgetExceeded) := by
    intro u hu hAlive hEnd
    obtain ⟨hInv, hState⟩ := exhausted hContract hu hAlive hWithin.ending.2 hEnd
    exact ⟨hInv, fun _ => hState⟩
  rw [requestTurn] at h
  split_ifs at h with hAttempt
  · have hEnsures := hContract.turn i.cancelled request i.answers hStart
    rw [timeTurn] at h
    rw [Ensures] at hEnsures
    cases hOutcome : inner i.cancelled (.requestTurn request) steady
        (w.spent w.budget.beginAttempt.2) i.answers with
    | interrupted u rest =>
        rw [hOutcome] at h
        cases h
    | waiting u =>
        rw [hOutcome] at h hEnsures
        dsimp only at h
        refine hExhausted _ ?_ ?_ h
        · exact .inr (hContract.insideSpent _ hEnsures.1)
        · exact hEnsures.2
    | finished u outcome rest =>
        rw [hOutcome] at h hEnsures
        obtain ⟨hInv, hAlive, hError⟩ := hEnsures
        rcases settleTurn_cases h with ⟨e, rfl, rfl, hResult⟩ | ⟨output, budget, -, rfl, rfl⟩ |
          ⟨output, budget, hOk, hEnd⟩
        · have hReport := hError e rfl
          refine ⟨hInv, fun hSame => ?_⟩
          rcases hResult with rfl | hLimit
          · exact absurd (Except.error.inj hSame) hReport.own
          · exact absurd hLimit (hReport.limit (unlimited_attempt hUnlimited))
        · exact ⟨hContract.spent budget hInv, (by simp)⟩
        · exact hExhausted _ (.inl (hContract.spent budget hInv)) (hAlive output hOk) hEnd
  · by_cases hAlive : Alive w
    · exact hExhausted _ (.inl hStart) hAlive h
    · rw [Alive, not_forall] at hAlive
      obtain ⟨reason, hState⟩ := hAlive
      rw [not_not] at hState
      obtain ⟨hInv, -, hSame⟩ := exhausted_again hContract hStart hState h
      rw [hReason reason hState] at hSame
      exact ⟨hInv, fun _ => hSame⟩

/-- The wrapper keeps what the inner driver keeps. -/
theorem call_inv (hContract : Contract inner inv inside) (hw : inv w) (hWithin : Within w i)
    (h : call inner w i = some (t, result)) : inv t := by
  have hPerform : ∀ other, (inner i.cancelled other steady w i.answers).completed = some (t, result) →
      inv t := by
    intro other hRun
    obtain ⟨_, hInv⟩ := (hContract.perform i.cancelled other i.answers hw).completed hRun
    exact hInv
  rw [call] at h
  cases hCall : i.call with
  | requestTurn request =>
      rw [hCall] at h
      exact (turn_terminal hContract hw hWithin hCall h).1
  | start =>
      rw [hCall] at h
      exact hPerform _ h
  | resume =>
      rw [hCall] at h
      exact hPerform _ h
  | terminate reason =>
      rw [hCall] at h
      exact hPerform _ h

/-- No call of an ended run does anything with processes. -/
theorem ended_call (hContract : Contract inner inv inside) (hw : inv w)
    (hState : ∃ reason, w.core.state = .terminated reason)
    (h : call inner w i = some (t, result)) :
    inv t ∧ t.acts = w.acts ∧ ∃ reason, t.core.state = .terminated reason := by
  obtain ⟨reason, hState⟩ := hState
  have hPerform : ∀ other, (inner i.cancelled other steady w i.answers).completed = some (t, result) →
      inv t ∧ t.acts = w.acts ∧ ∃ later, t.core.state = .terminated later := by
    intro other hRun
    obtain ⟨_, hInv, hActs, hLater, -⟩ :=
      (hContract.ended i.cancelled other i.answers reason hw hState).completed hRun
    exact ⟨hInv, hActs, hLater⟩
  have hExhausted : ∀ u, inv u → (∃ later, u.core.state = .terminated later) → u.acts = w.acts →
      exhaust inner i.after u = some (t, result) →
      inv t ∧ t.acts = w.acts ∧ ∃ later, t.core.state = .terminated later := by
    intro u hu ⟨later, hLater⟩ hActs hEnd
    obtain ⟨hInv, hSame, hKept⟩ := exhausted_again hContract hu hLater hEnd
    exact ⟨hInv, hSame.trans hActs, later, hKept⟩
  rw [call] at h
  cases hCall : i.call with
  | start =>
      rw [hCall] at h
      exact hPerform _ h
  | resume =>
      rw [hCall] at h
      exact hPerform _ h
  | terminate reason =>
      rw [hCall] at h
      exact hPerform _ h
  | requestTurn request =>
      rw [hCall] at h
      have hStart := hContract.spent w.budget.beginAttempt.2 hw
      change requestTurn inner request i w = _ at h
      rw [requestTurn] at h
      split_ifs at h with hAttempt
      · have hEnsures := hContract.ended i.cancelled (.requestTurn request) i.answers reason hStart hState
        rw [timeTurn] at h
        rw [Ensures] at hEnsures
        cases hOutcome : inner i.cancelled (.requestTurn request) steady
            (w.spent w.budget.beginAttempt.2) i.answers with
        | interrupted u rest =>
            rw [hOutcome] at h
            cases h
        | waiting u =>
            rw [hOutcome] at hEnsures
            exact hEnsures.elim
        | finished u outcome rest =>
            rw [hOutcome] at h hEnsures
            obtain ⟨hInv, hActs, hLater, -⟩ := hEnsures
            rcases settleTurn_cases h with ⟨e, rfl, rfl, -⟩ | ⟨output, budget, -, rfl, rfl⟩ |
              ⟨output, budget, -, hEnd⟩
            · exact ⟨hInv, hActs, hLater⟩
            · exact ⟨hContract.spent budget hInv, hActs, hLater⟩
            · exact hExhausted _ (hContract.spent budget hInv) hLater hActs hEnd
      · exact hExhausted _ hStart ⟨reason, hState⟩ rfl h

end BudgetedAgentDriver

section Contracts

open Native

variable {identity : AgentManifestIdentity} {spec : ProcessSpec} {kind : NativeHarnessKind}

/-- What a turn of the generic driver comes to. -/
theorem generic_turn {wire : Wire} {w : GenericCommandDriver} {cancelled : Bool}
    {request : TurnRequest} {answers : List Moment} (h : Sound identity spec w) (hIdle : Idle w) :
    Ensures (GenericCommandDriver.perform .budgeted wire cancelled (.requestTurn request)) steady w
      answers (fun t => Sound identity spec t ∧ Alive t) (fun _ _ => True) fun t _ result =>
        (Sound identity spec t ∧ Idle t) ∧ (∀ a, result = .ok a → Alive t) ∧
          ∀ e, result = .error e → Reportable (Unlimited w.budget answers) e := by
  rw [GenericCommandDriver.perform, ensures_bind]
  have hRun : Ensures (requestTurn .budgeted wire request cancelled) steady w answers
      (Busy identity spec) (fun _ _ => True) (Done identity spec (Unlimited w.budget answers)) :=
    ensures_requestTurn h hIdle id
  refine hRun.weaken (fun t hBusy => ⟨hBusy.sound, hBusy.alive⟩) (fun _ _ _ => trivial)
    fun t rest result hResult => ?_
  cases result with
  | ok output =>
      refine ensures_pure.mpr ⟨⟨hResult.1, hResult.2.1⟩, fun _ _ reason => ?_, (by simp)⟩
      rw [hResult.2.2]
      simp
  | error e =>
      refine ⟨⟨hResult.sound, hResult.idle⟩, (by simp), fun e' hError => ?_⟩
      cases hError
      exact hResult.reportable

theorem generic_contract (wire : Wire) :
    Contract (GenericCommandDriver.perform .budgeted wire)
      (fun w => Sound identity spec w ∧ Idle w) (Sound identity spec) where
  spent budget hw := ⟨hw.1.spent budget, hw.2.spent budget⟩
  insideSpent budget hw := hw.spent budget
  perform _ _ _ hw := (Agent.ensures_perform hw.1 hw.2).weaken (fun _ _ => trivial)
    (fun _ _ _ => trivial) fun _ _ _ hEnd => hEnd
  turn _ _ _ hw := generic_turn hw.1 hw.2
  terminate {w} reason answers hw hAlive hEnding := by
    have hSound : Sound identity spec w := hw.elim (·.1) id
    have hRun : Ensures (terminate reason) steady w answers (Busy identity spec) (fun _ _ => True)
        fun t _ _ => (Sound identity spec t ∧ Idle t) ∧ t.core.state = .terminated reason :=
      ensures_terminate_alive hSound hAlive hEnding
    rw [GenericCommandDriver.perform, ensures_bind]
    refine hRun.weaken (fun _ _ => trivial) (fun _ _ _ => trivial) fun t rest result hEnd => ?_
    cases result <;> exact hEnd
  ended {w} cancelled call answers reason hw hState := by
    by_cases hLate : Invocation.LateResume ⟨call, cancelled, answers⟩
    · have hNone : w.core.process = none := by
        refine hw.2.process_none ?_
        rw [hState]
        simp
      obtain ⟨t, hCall, hEnded, hActs⟩ : ∃ t, GenericCommandDriver.call .budgeted wire w
          ⟨call, cancelled, answers⟩ = some (t, .error .cancelled) ∧ _ ∧ _ := generic_late hNone hLate
      refine ensures_of_completed hCall fun _ => ⟨generic_call hCall hw.1 hw.2, hActs, ⟨_, hEnded⟩,
        fun hOther => absurd hLate.1 hOther⟩
    · obtain ⟨t, result, hCall, hSame⟩ : ∃ t result, GenericCommandDriver.call .budgeted wire w
          ⟨call, cancelled, answers⟩ = some (t, result) ∧ _ := generic_ended hState hw.2 hLate
      refine ensures_of_completed hCall fun _ => ⟨generic_call hCall hw.1 hw.2, hSame.acts,
        ⟨reason, hSame.state.trans hState⟩, fun _ => hSame.state⟩

/-- What a turn of the native driver comes to. -/
theorem native_turn {tools : Tools} {w : NativeHarnessDriver} {cancelled : Bool}
    {request : TurnRequest} {answers : List Moment} (h : Native.Sound identity kind w)
    (hIdle : Native.Idle w) :
    Ensures (NativeHarnessDriver.perform .budgeted tools cancelled (.requestTurn request)) steady w
      answers (fun t => Native.Busy identity kind t ∧ Alive t) (fun _ _ => True) fun t _ result =>
        (Native.Sound identity kind t ∧ Native.Idle t) ∧ (∀ a, result = .ok a → Alive t) ∧
          ∀ e, result = .error e → Reportable (Unlimited w.budget answers) e := by
  rw [NativeHarnessDriver.perform, ensures_bind]
  have hRun : Ensures (Native.requestTurn .budgeted tools request cancelled) steady w answers
      (Native.Busy identity kind) (fun _ _ => True)
      (Native.Done identity kind (Unlimited w.budget answers)) :=
    Native.ensures_requestTurn h hIdle id
  refine hRun.weaken (fun t hBusy => ⟨hBusy, hBusy.alive⟩) (fun _ _ _ => trivial)
    fun t rest result hResult => ?_
  cases result with
  | ok output =>
      refine ensures_pure.mpr ⟨⟨hResult.1, hResult.2.1⟩, fun _ _ reason => ?_, (by simp)⟩
      rw [hResult.2.2]
      simp
  | error e =>
      refine ⟨⟨hResult.sound, hResult.idle⟩, (by simp), fun e' hError => ?_⟩
      cases hError
      exact hResult.reportable

theorem native_contract (tools : Tools) :
    Contract (NativeHarnessDriver.perform .budgeted tools)
      (fun w => Native.Sound identity kind w ∧ Native.Idle w) (Native.Busy identity kind) where
  spent budget hw := ⟨hw.1.spent budget, hw.2.stable, hw.2.process⟩
  insideSpent budget hw := ⟨hw.sound.spent budget, hw.alive, hw.healthy⟩
  perform _ _ _ hw := (Native.ensures_perform hw.1 hw.2).weaken (fun _ _ => trivial)
    (fun _ _ _ => trivial) fun _ _ _ hEnd => hEnd
  turn _ _ _ hw := native_turn hw.1 hw.2
  terminate {w} reason answers hw hAlive hEnding := by
    have hBusy : Native.Busy identity kind w :=
      hw.elim (fun hIdle => hIdle.1.busy hIdle.2.process hAlive) id
    have hRun : Ensures (Native.terminate reason) steady w answers (Native.Busy identity kind)
        (fun _ _ => True) fun t _ _ =>
          (Native.Sound identity kind t ∧ Native.Idle t) ∧ t.core.state = .terminated reason :=
      Native.ensures_terminate_alive hBusy hEnding
    rw [NativeHarnessDriver.perform, ensures_bind]
    refine hRun.weaken (fun _ _ => trivial) (fun _ _ _ => trivial) fun t rest result hEnd => ?_
    cases result <;> exact hEnd
  ended {w} cancelled call answers reason hw hState := by
    obtain ⟨t, result, hCall, hSame⟩ : ∃ t result, NativeHarnessDriver.call .budgeted tools w
        ⟨call, cancelled, answers⟩ = some (t, result) ∧ _ := native_ended hState
    refine ensures_of_completed hCall fun _ => ⟨native_call hCall hw.1 hw.2, hSame.acts,
      ⟨reason, hSame.state.trans hState⟩, fun _ => hSame.state⟩

end Contracts

section Exhaustion

open Native BudgetedAgentDriver

/-- No condition on a call of the wrapper. -/
def anyBudgetedCall {Own : Type} (_ : World Own) (_ : BudgetedInvocation) : Prop := True

/-- A turn that reports the budget has ended the run for it, and no later call of the
wrapper obtains a process. -/
def ExhaustionTerminal {Own : Type} (inner : AgentDriver Own) (w : World Own)
    (i : BudgetedInvocation) : Prop :=
  ∀ request t, i.call = .requestTurn request →
    BudgetedAgentDriver.call inner w i = some (t, .error .budgetExceeded) →
    t.core.state = .terminated .budgetExceeded ∧
      ∀ u, Reaches (BudgetedAgentDriver.call inner) anyBudgetedCall t u →
        ∀ process, Obtained u.acts process → Obtained t.acts process

theorem exhaustion_terminal {Own : Type} {inner : AgentDriver Own} {inv inside : World Own → Prop}
    (hContract : Contract inner inv inside) {w₀ w : World Own} {i : BudgetedInvocation}
    (hw : inv w₀) (hRun : Reaches (BudgetedAgentDriver.call inner) Within w₀ w)
    (hWithin : Within w i) : ExhaustionTerminal inner w i := by
  have hInv : inv w := hRun.invariant
    (fun s j t result hOk hCall hs => call_inv hContract hs hOk hCall) hw
  intro request t hTurn hCall
  have hRequest : BudgetedAgentDriver.requestTurn inner request i w = some (t, .error .budgetExceeded) := by
    rw [BudgetedAgentDriver.call, hTurn] at hCall
    exact hCall
  obtain ⟨ht, hEnded⟩ := turn_terminal hContract hInv hWithin hTurn hRequest
  refine ⟨hEnded rfl, fun u hLater process hProcess => ?_⟩
  have hStep : ∀ s j v result, anyBudgetedCall s j →
      BudgetedAgentDriver.call inner s j = some (v, result) →
      (inv s ∧ (∃ reason, s.core.state = .terminated reason) ∧ s.acts = t.acts) →
      inv v ∧ (∃ reason, v.core.state = .terminated reason) ∧ v.acts = t.acts := by
    intro s j v result _ hNext ⟨hs, hState, hActs⟩
    obtain ⟨hv, hSame, hStill⟩ := ended_call hContract hs hState hNext
    exact ⟨hv, hStill, hSame.trans hActs⟩
  obtain ⟨-, -, hActs⟩ := hLater.invariant hStep ⟨ht, ⟨_, hEnded rfl⟩, rfl⟩
  rwa [hActs] at hProcess

/-- Around either driver, in a run whose turns the budget below the driver does not refuse
and that does not go on after another end, a turn that reports the budget ends the run. -/
theorem budget_exhaustion_terminal (wire : Wire) (tools : Tools) (manifest : ValidatedAgentManifest) :
    (∀ w₀ w i, GenericCommandDriver.Created manifest w₀ →
      Reaches (BudgetedAgentDriver.call (GenericCommandDriver.perform .budgeted wire)) Within w₀ w →
      Within w i → ExhaustionTerminal (GenericCommandDriver.perform .budgeted wire) w i) ∧
    (∀ w₀ w i, NativeHarnessDriver.Created manifest w₀ →
      Reaches (BudgetedAgentDriver.call (NativeHarnessDriver.perform .budgeted tools)) Within w₀ w →
      Within w i → ExhaustionTerminal (NativeHarnessDriver.perform .budgeted tools) w i) := by
  constructor
  · intro w₀ w i hCreated hRun hWithin
    obtain ⟨spec, -, hSound, hIdle⟩ := Agent.created_sound hCreated
    exact exhaustion_terminal (generic_contract wire) ⟨hSound, hIdle⟩ hRun hWithin
  · intro w₀ w i hCreated hRun hWithin
    obtain ⟨kind, version, -, hSound, hIdle⟩ := Native.created_sound hCreated
    exact exhaustion_terminal (native_contract tools) ⟨hSound, hIdle⟩ hRun hWithin


def demoCall (call : Call) (answers after : List Moment) : BudgetedInvocation :=
  ⟨call, false, answers, 0, after⟩

def demoTurn : Call := .requestTurn ⟨"turn-1", "play"⟩

def demoStarted : GenericCommandDriver :=
  ⟨⟨fun reading => reading, 3, .ready, demoManifest.identity, some ⟨0⟩, "run-1",
    ⟨1, "run-1", demoManifest.identity, 0, [⟨0, 0, .pending⟩, ⟨1, 1, .starting⟩, ⟨2, 2, .ready⟩], [], []⟩⟩,
    ⟨none, ⟨"agent", [], none⟩, []⟩, [.spawned ⟨0⟩ ⟨"agent", [], none⟩], demoBudget⟩

theorem demo_started :
    BudgetedAgentDriver.call (GenericCommandDriver.perform .budgeted demoWire) demoDriver
      (demoCall .start [demoMoment] []) = some (demoStarted, .ok none) :=
  rfl

/-- A turn that is left waiting when the wall time ends is terminal. -/
theorem demo_exhaustion : ∃ t,
    BudgetedAgentDriver.call (GenericCommandDriver.perform .budgeted demoWire) demoStarted
      (demoCall demoTurn [] [demoMoment]) = some (t, .error .budgetExceeded) ∧
    t.core.state = .terminated .budgetExceeded := by
  have hNone : Ending [] := fun moment hMoment => absurd hMoment List.not_mem_nil
  have hEnding : Ending [demoMoment] := fun moment hMoment =>
    ⟨demoExit, by rw [List.mem_singleton.mp hMoment]; rfl⟩
  have hStart : Within demoDriver (demoCall .start [demoMoment] []) :=
    ⟨⟨hEnding, hNone⟩, fun _ hCall => by cases hCall⟩
  have hTurn : Within demoStarted (demoCall demoTurn [] [demoMoment]) := by
    refine ⟨⟨hNone, hEnding⟩, fun request _ => ⟨unlimited_nil (Nat.zero_le 100), ?_⟩⟩
    intro reason hState
    cases hState
  have hReach : Reaches (BudgetedAgentDriver.call (GenericCommandDriver.perform .budgeted demoWire))
      Within demoDriver demoStarted := (Reaches.refl demoDriver).tail hStart demo_started
  obtain ⟨t, hCall⟩ : ∃ t, BudgetedAgentDriver.call (GenericCommandDriver.perform .budgeted demoWire)
      demoStarted (demoCall demoTurn [] [demoMoment]) = some (t, .error .budgetExceeded) := ⟨_, rfl⟩
  exact ⟨t, hCall, ((budget_exhaustion_terminal demoWire demoTools demoManifest).1 demoDriver demoStarted
    _ demo_created hReach hTurn ⟨"turn-1", "play"⟩ t rfl hCall).1⟩

def tightBudget : BudgetController := .new (fun _ => 1) fun reading => reading

/-- A moment at which a process shows more than that budget. -/
def loudMoment : Moment := { demoMoment with event := .ok (.stdout [10, 10]) }

/-- A process that shows too much crashes its driver below the wrapper, which reports the
budget, and the run is resumed with a new process. -/
theorem overrun_not_terminal : ∃ w t u result,
    GenericCommandDriver.new "run-1" demoManifest none (fun reading => reading) tightBudget = .ok w ∧
    BudgetedAgentDriver.call (GenericCommandDriver.perform .budgeted demoWire) w
      (demoCall .start [demoMoment] []) = some (demoStarted.spent tightBudget, result) ∧
    BudgetedAgentDriver.call (GenericCommandDriver.perform .budgeted demoWire)
      (demoStarted.spent tightBudget)
      (demoCall demoTurn [demoMoment, loudMoment, demoMoment, demoMoment] []) =
        some (t, .error .budgetExceeded) ∧
    t.core.state = .crashed syntheticFailure ∧ t.acts.length = 4 ∧
    BudgetedAgentDriver.call (GenericCommandDriver.perform .budgeted demoWire) t
      (demoCall .resume [demoMoment] []) = some (u, .ok none) ∧
    u.core.state = .ready ∧ u.acts[4]? = some (.spawned ⟨4⟩ ⟨"agent", [], none⟩) :=
  ⟨_, _, _, _, rfl, rfl, rfl, rfl, rfl, rfl, rfl, rfl⟩


end Exhaustion

end WordArena.Agent
