import WordArena.Agent.Record

/-! What the adapter answers: the script of a call that the budget never refuses, and one
rule for each operation on processes. -/
namespace WordArena.Agent

open Async

section Limits

/-- The bytes that a process shows at a moment. -/
def Moment.output (moment : Moment) : Nat :=
  match moment.event with
  | .ok (.stdout bytes) => bytes.length
  | .ok (.stderr bytes) => bytes.length
  | _ => 0

/-- No answer of the script is refused for the budget, neither by the adapter below nor by
the wall time nor by the meter of the output. -/
structure Unlimited (budget : BudgetController) (answers : List Moment) : Prop where
  deadline : ∀ moment ∈ answers, moment.deadline = false
  spawned : ∀ moment ∈ answers, moment.spawned ≠ .error .limitExceeded
  reattached : ∀ moment ∈ answers, moment.reattached ≠ .error .limitExceeded
  written : ∀ moment ∈ answers, moment.written ≠ .error .limitExceeded
  inputClosed : ∀ moment ∈ answers, moment.inputClosed ≠ .error .limitExceeded
  event : ∀ moment ∈ answers, moment.event ≠ .error .limitExceeded
  output : budget.consumption .outputBytes + (answers.map Moment.output).sum ≤
    budget.limits .outputBytes

variable {budget : BudgetController} {moment : Moment} {rest : List Moment}

theorem unlimited_nil (h : budget.consumption .outputBytes ≤ budget.limits .outputBytes) :
    Unlimited budget [] := by
  refine ⟨?_, ?_, ?_, ?_, ?_, ?_, h⟩ <;> exact fun moment hMoment => absurd hMoment List.not_mem_nil

theorem Unlimited.tail (h : Unlimited budget (moment :: rest)) : Unlimited budget rest where
  deadline m hm := h.deadline m (List.mem_cons_of_mem _ hm)
  spawned m hm := h.spawned m (List.mem_cons_of_mem _ hm)
  reattached m hm := h.reattached m (List.mem_cons_of_mem _ hm)
  written m hm := h.written m (List.mem_cons_of_mem _ hm)
  inputClosed m hm := h.inputClosed m (List.mem_cons_of_mem _ hm)
  event m hm := h.event m (List.mem_cons_of_mem _ hm)
  output := by
    have hOutput := h.output
    rw [List.map_cons, List.sum_cons] at hOutput
    omega

/-- Output within the limit is counted and passed on. -/
theorem Unlimited.meter (h : Unlimited budget (moment :: rest)) :
    (budget.recordOutputBytes moment.output).1 = true ∧
      Unlimited (budget.recordOutputBytes moment.output).2 rest := by
  have hOutput := h.output
  rw [List.map_cons, List.sum_cons] at hOutput
  have hCounted : saturatingAdd (budget.consumption .outputBytes) moment.output ≤
      budget.consumption .outputBytes + moment.output := Nat.min_le_left ..
  have hBelow : ¬ budget.limits .outputBytes <
      saturatingAdd (budget.consumption .outputBytes) moment.output := by omega
  have hRecord : budget.recordOutputBytes moment.output = (true, { budget with
      consumption := fun other => if other = .outputBytes then
        saturatingAdd (budget.consumption .outputBytes) moment.output
        else budget.consumption other }) := by
    rw [BudgetController.recordOutputBytes, BudgetController.addAndCheck]
    exact if_neg hBelow
  rw [hRecord]
  have hTail := h.tail
  refine ⟨rfl, hTail.deadline, hTail.spawned, hTail.reattached, hTail.written, hTail.inputClosed,
    hTail.event, ?_⟩
  change saturatingAdd (budget.consumption .outputBytes) moment.output +
    (rest.map Moment.output).sum ≤ budget.limits .outputBytes
  omega

end Limits

/-- An operation that is not raced. -/
def steady : Moment → Bool := fun _ => false

@[simp] theorem steady_apply (moment : Moment) : steady moment = false := rfl

/-- A run that has not come to its end. -/
def Alive {Own : Type} (w : World Own) : Prop := ∀ reason, w.core.state ≠ .terminated reason

/-- The errors that a driver reports itself. A refusal for the budget is not among them while
the script keeps within it. -/
structure Reportable (metered : Prop) (e : DriverError) : Prop where
  own : e ≠ .budgetExceeded
  limit : metered → e ≠ .process .limitExceeded

/-- An answer of the adapter that was no refusal for the budget is reported. -/
theorem Reportable.process {metered : Prop} {e : ProcessError} {α : Type}
    (h : metered → (.error e : Except ProcessError α) ≠ .error .limitExceeded) :
    Reportable metered (.process e) := by
  refine ⟨nofun, fun hMetered hError => h hMetered ?_⟩
  rw [DriverError.process.inj hError]

section Adapter

variable {Own : Type} {w : World Own} {process : ProcessInstance} {stop : Moment → Bool}
  {answers : List Moment} {inside : World Own → Prop} {cut : World Own → List Moment → Prop}

def World.did (w : World Own) (act : ProcessAct) : World Own := { w with acts := w.acts ++ [act] }

def World.spent (w : World Own) (budget : BudgetController) : World Own :=
  { w with budget := budget }

@[simp] theorem ensures_transition {state : DriverLifecycleState}
    {post : World Own → List Moment → Except DriverError Unit → Prop} :
    Ensures (transition state) stop w answers inside cut post ↔
      post (w.withCore (w.core.transition state)) answers (.ok ()) :=
  Iff.rfl

@[simp] theorem ensures_diagnostic {stream : DiagnosticStream} {code text : String}
    {post : World Own → List Moment → Except DriverError Unit → Prop} :
    Ensures (diagnostic stream code text) stop w answers inside cut post ↔
      post (w.withCore (w.core.diagnostic stream code text)) answers (.ok ()) :=
  Iff.rfl

@[simp] theorem ensures_readClock
    {post : World Own → List Moment → Except DriverError Int → Prop} :
    Ensures readClock stop w answers inside cut post ↔
      post (w.withCore { w.core with readings := w.core.readings + 1 }) answers
        (.ok (w.core.clock w.core.readings)) :=
  Iff.rfl

/-- What a request for a process comes to. -/
inductive Answered (act : ProcessInstance → ProcessAct) (w : World Own) :
    World Own → Except ProcessError ProcessInstance → Prop where
  | given : Answered act w (w.did (act ⟨w.acts.length⟩)) (.ok ⟨w.acts.length⟩)
  | refused (e : ProcessError) : Answered act w (w.did .refused) (.error e)
  | late (budget : BudgetController) : Answered act w (w.spent budget) (.error .limitExceeded)

/-- What reading a process comes to. -/
inductive Reported (process : ProcessInstance) (w : World Own) :
    World Own → Except ProcessError ProcessEvent → Prop where
  | stdout (budget : BudgetController) (bytes : List UInt8) :
      Reported process w (w.spent budget) (.ok (.stdout bytes))
  | stderr (budget : BudgetController) (bytes : List UInt8) :
      Reported process w (w.spent budget) (.ok (.stderr bytes))
  | exited (status : ExitStatus) : Reported process w (w.did (.exited process)) (.ok (.exited status))
  | failed (e : ProcessError) : Reported process w (w.did (.failed process)) (.error e)
  | overrun (budget : BudgetController) :
      Reported process w ((w.spent budget).did (.terminated process)) (.error .limitExceeded)

theorem ensures_settle {act : ProcessInstance → ProcessAct} {answer : Except ProcessError Unit}
    {post : World Own → List Moment → Except DriverError (Except ProcessError ProcessInstance) → Prop}
    (h : ∀ t r, Answered act w t r → (r = .error .limitExceeded → answer = .error .limitExceeded) →
      t.budget = w.budget → post t answers (.ok r)) :
    Ensures (settle answer act) stop w answers inside cut post := by
  cases answer with
  | ok u => exact h _ _ .given (by simp) rfl
  | error e => exact h _ _ (.refused e) (by simp) rfl

/-- A request waits once, and nothing has happened by then. -/
theorem ensures_spawn {backend : Backend} {spec : ProcessSpec}
    {post : World Own → List Moment → Except DriverError (Except ProcessError ProcessInstance) → Prop}
    (hInside : inside w) (hCut : ∀ rest, cut w rest)
    (h : ∀ t rest r, Answered (.spawned · spec) w t r →
      (Unlimited w.budget answers → r ≠ .error .limitExceeded ∧ Unlimited t.budget rest) →
      post t rest (.ok r)) :
    Ensures (spawn backend spec) stop w answers inside cut post := by
  rw [spawn, ensures_bind, ensures_await]
  refine ⟨fun _ => hInside, fun moment rest hAnswers => ⟨fun _ => hCut rest, fun _ => ?_⟩⟩
  subst hAnswers
  dsimp only
  split_ifs with hLate
  · refine h _ rest _ (.late (w.budget.recordWallTimeout moment.elapsedMs)) fun hUnlimited => ?_
    rw [hUnlimited.deadline moment List.mem_cons_self] at hLate
    simp at hLate
  · refine ensures_settle fun t r hAnswered hLimit hBudget => h t rest r hAnswered ?_
    intro hUnlimited
    refine ⟨fun hError => ?_, ?_⟩
    · exact hUnlimited.spawned moment List.mem_cons_self (hLimit hError)
    · rw [hBudget]
      exact hUnlimited.tail

theorem ensures_reattach {handle : ProcessHandle}
    {post : World Own → List Moment → Except DriverError (Except ProcessError ProcessInstance) → Prop}
    (hInside : inside w) (hCut : ∀ rest, cut w rest)
    (h : ∀ t rest r, Answered (.reattached · handle) w t r →
      (Unlimited w.budget answers → r ≠ .error .limitExceeded ∧ Unlimited t.budget rest) →
      post t rest (.ok r)) :
    Ensures (reattach handle) stop w answers inside cut post := by
  rw [reattach, ensures_bind, ensures_await]
  refine ⟨fun _ => hInside, fun moment rest hAnswers => ⟨fun _ => hCut rest, fun _ => ?_⟩⟩
  subst hAnswers
  refine ensures_settle fun t r hAnswered hLimit hBudget => h t rest r hAnswered ?_
  intro hUnlimited
  refine ⟨fun hError => ?_, ?_⟩
  · exact hUnlimited.reattached moment List.mem_cons_self (hLimit hError)
  · rw [hBudget]
    exact hUnlimited.tail

theorem ensures_terminateProcess
    {post : World Own → List Moment → Except DriverError (Except ProcessError ExitStatus) → Prop}
    (hInside : inside (w.did (.terminated process)))
    (hCut : ∀ moment rest, stop moment = true → cut (w.did (.terminated process)) rest)
    (h : ∀ moment rest, answers = moment :: rest →
      post (w.did (.terminated process)) rest (.ok moment.terminated)) :
    Ensures (terminateProcess process) stop w answers inside cut post := by
  simp only [terminateProcess, record, ensures_bind, ensures_modify, ensures_await, ensures_pure]
  exact ⟨fun _ => hInside, fun moment rest hAnswers => ⟨hCut moment rest, fun _ =>
    h moment rest hAnswers⟩⟩

theorem ensures_write {bytes : List UInt8}
    {post : World Own → List Moment → Except DriverError (Except ProcessError Unit) → Prop}
    (hInside : inside w) (hCut : ∀ rest, cut w rest)
    (h : ∀ moment rest, answers = moment :: rest →
      post (w.did (.wrote process bytes)) rest (.ok moment.written)) :
    Ensures (write process bytes) stop w answers inside cut post := by
  simp only [write, record, ensures_bind, ensures_modify, ensures_await, ensures_pure]
  exact ⟨fun _ => hInside, fun moment rest hAnswers => ⟨fun _ => hCut rest, fun _ =>
    h moment rest hAnswers⟩⟩

theorem ensures_closeInput
    {post : World Own → List Moment → Except DriverError (Except ProcessError Unit) → Prop}
    (hInside : inside w) (hCut : ∀ moment rest, stop moment = true → cut w rest)
    (hClosed : ∀ moment rest, answers = moment :: rest → post w rest (.ok (.ok ())))
    (hFailed : ∀ moment rest e, answers = moment :: rest → moment.inputClosed = .error e →
      post (w.did (.failed process)) rest (.ok (.error e))) :
    Ensures (closeInput process) stop w answers inside cut post := by
  rw [closeInput, ensures_bind, ensures_await]
  refine ⟨fun _ => hInside, fun moment rest hAnswers => ⟨hCut moment rest, fun _ => ?_⟩⟩
  dsimp only
  cases hInput : moment.inputClosed with
  | ok u => exact hClosed moment rest hAnswers
  | error e => exact hFailed moment rest e hAnswers hInput

theorem ensures_overrun
    {post : World Own → List Moment → Except DriverError (Except ProcessError ProcessEvent) → Prop}
    (hInside : inside (w.did (.terminated process)))
    (hCut : ∀ rest, cut (w.did (.terminated process)) rest)
    (h : ∀ rest, post (w.did (.terminated process)) rest (.ok (.error .limitExceeded))) :
    Ensures (overrun process) stop w answers inside cut post := by
  rw [overrun, ensures_bind]
  exact ensures_terminateProcess hInside (fun _ rest _ => hCut rest) fun _ rest _ => h rest

theorem ensures_meter {event : ProcessEvent} {bytes : List UInt8}
    {post : World Own → List Moment → Except DriverError (Except ProcessError ProcessEvent) → Prop}
    (hInside : ∀ budget, inside ((w.spent budget).did (.terminated process)))
    (hCut : ∀ budget rest, cut ((w.spent budget).did (.terminated process)) rest)
    (hShown : post (w.spent (w.budget.recordOutputBytes bytes.length).2) answers (.ok (.ok event)))
    (hOver : ∀ budget rest, (w.budget.recordOutputBytes bytes.length).1 = false →
      post ((w.spent budget).did (.terminated process)) rest (.ok (.error .limitExceeded))) :
    Ensures (meter process event bytes) stop w answers inside cut post := by
  simp only [meter, ensures_bind, ensures_get, ensures_modify]
  split_ifs with hRecord
  · exact hShown
  · rw [Bool.not_eq_true] at hRecord
    exact ensures_overrun (hInside _) (hCut _) fun rest => hOver _ rest hRecord

/-- Reading waits once, and once more while a process over its budget is terminated. -/
theorem ensures_nextEvent {backend : Backend}
    {post : World Own → List Moment → Except DriverError (Except ProcessError ProcessEvent) → Prop}
    (hInside : inside w) (hCut : ∀ rest, cut w rest)
    (hInsideOver : ∀ budget, inside ((w.spent budget).did (.terminated process)))
    (hCutOver : ∀ budget rest, cut ((w.spent budget).did (.terminated process)) rest)
    (h : ∀ t rest r, Reported process w t r →
      (Unlimited w.budget answers → r ≠ .error .limitExceeded ∧ Unlimited t.budget rest) →
      post t rest (.ok r)) :
    Ensures (nextEvent backend process) stop w answers inside cut post := by
  have hReport : ∀ moment rest, answers = moment :: rest →
      Ensures (report process moment.event) stop w rest inside cut post := by
    intro moment rest hAnswers
    subst hAnswers
    have hKept : Unlimited w.budget (moment :: rest) → Unlimited w.budget rest := Unlimited.tail
    cases hEvent : moment.event with
    | error e =>
        refine h _ rest _ (.failed e) fun hUnlimited => ⟨fun hError => ?_, hKept hUnlimited⟩
        exact hUnlimited.event moment List.mem_cons_self (by rw [hEvent]; exact hError)
    | ok event =>
        cases event with
        | exited status => exact h _ rest _ (.exited status) fun hUnlimited =>
            ⟨(by simp), hKept hUnlimited⟩
        | stdout bytes => exact h _ rest _ (.stdout w.budget bytes) fun hUnlimited =>
            ⟨(by simp), hKept hUnlimited⟩
        | stderr bytes => exact h _ rest _ (.stderr w.budget bytes) fun hUnlimited =>
            ⟨(by simp), hKept hUnlimited⟩
  rw [nextEvent, ensures_bind, ensures_await]
  refine ⟨fun _ => hInside, fun moment rest hAnswers => ⟨fun _ => hCut rest, fun _ => ?_⟩⟩
  dsimp only
  cases backend with
  | plain => exact hReport moment rest hAnswers
  | budgeted =>
      dsimp only
      split_ifs with hLate
      · simp only [recordWallTimeout, ensures_bind, ensures_modify]
        refine ensures_overrun (hInsideOver _) (hCutOver _) fun rest' => ?_
        refine h _ rest' _ (.overrun _) fun hUnlimited => ?_
        rw [hAnswers] at hUnlimited
        rw [hUnlimited.deadline moment List.mem_cons_self] at hLate
        cases hLate
      · have hMeter : ∀ event bytes, moment.output = bytes.length →
            (∀ budget, Reported process w (w.spent budget) (.ok event)) →
            Ensures (meter process event bytes) stop w rest inside cut post := by
          intro event bytes hOutput hReported
          refine ensures_meter hInsideOver hCutOver ?_ fun budget rest' hRecord => ?_
          · refine h _ rest _ (hReported _) fun hUnlimited => ⟨(by simp), ?_⟩
            rw [hAnswers] at hUnlimited
            rw [← hOutput]
            exact hUnlimited.meter.2
          · refine h _ rest' _ (.overrun budget) fun hUnlimited => ?_
            rw [hAnswers] at hUnlimited
            rw [← hOutput, hUnlimited.meter.1] at hRecord
            cases hRecord
        cases hEvent : moment.event with
        | error e =>
            have hRun := hReport moment rest hAnswers
            rwa [hEvent] at hRun
        | ok event =>
            cases event with
            | exited status =>
                have hRun := hReport moment rest hAnswers
                rwa [hEvent] at hRun
            | stdout bytes => exact hMeter _ bytes (by rw [Moment.output, hEvent]) (.stdout · bytes)
            | stderr bytes => exact hMeter _ bytes (by rw [Moment.output, hEvent]) (.stderr · bytes)

end Adapter

end WordArena.Agent
