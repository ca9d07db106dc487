import Mathlib.Data.List.Basic

/-! State machines whose requests may be refused. A refused request leaves the
state alone, so a history of arbitrary requests visits exactly the states that
accepted requests reach. -/

universe u v w x

/-- Initial states and a request handler. -/
structure System (State : Type u) (Request : Type v) (Response : Type w) (Error : Type x) where
  initial : State → Prop
  step : State → Request → Except Error (State × Response)

namespace System

variable {State : Type u} {Request : Type v} {Response : Type w} {Error : Type x}
  (sys : System State Request Response Error)

/-- One accepted request. -/
def Accepts (s t : State) : Prop := ∃ request response, sys.step s request = .ok (t, response)

/-- Finitely many accepted requests, the last one outermost. -/
inductive Run (start : State) : State → Prop where
  | refl : Run start start
  | snoc {s t : State} (prior : Run start s) (last : sys.Accepts s t) : Run start t

/-- A run from some initial state. -/
def Reachable (s : State) : Prop := ∃ start, sys.initial start ∧ sys.Run start s

/-- The state kept by a caller after one request, accepted or refused. -/
def settle (s : State) (request : Request) : State :=
  match sys.step s request with
  | .ok (t, _) => t
  | .error _ => s

/-- The state after a whole history of requests, accepted or refused. -/
def settleAll (s : State) (requests : List Request) : State := requests.foldl sys.settle s

variable {sys}

theorem Reachable.initial {s : State} (h : sys.initial s) : sys.Reachable s := ⟨s, h, .refl⟩

theorem Reachable.accepted {s t : State} (h : sys.Reachable s) (last : sys.Accepts s t) :
    sys.Reachable t := by
  obtain ⟨start, hStart, run⟩ := h
  exact ⟨start, hStart, run.snoc last⟩

/-- Induction over reachable states, with reachability of the state before the
last step at hand. -/
theorem Reachable.induction {inv : State → Prop} (initial : ∀ s, sys.initial s → inv s)
    (step : ∀ s t, sys.Reachable s → inv s → sys.Accepts s t → inv t) {s : State}
    (h : sys.Reachable s) : inv s := by
  obtain ⟨start, hStart, run⟩ := h
  induction run with
  | refl => exact initial start hStart
  | snoc prior last ih => exact step _ _ ⟨start, hStart, prior⟩ ih last

/-- A bounded measure that every accepted request increases rules out endless
runs. -/
theorem Reachable.not_endless {measure : State → Nat} {bound : Nat}
    (step : ∀ s t, sys.Reachable s → sys.Accepts s t → measure s < measure t)
    (bounded : ∀ s, sys.Reachable s → measure s ≤ bound) {s : State} (h : sys.Reachable s) :
    ¬ ∃ run : Nat → State, run 0 = s ∧ ∀ n, sys.Accepts (run n) (run (n + 1)) := by
  rintro ⟨run, rfl, hRun⟩
  have hReachable : ∀ n, sys.Reachable (run n) := by
    intro n
    induction n with
    | zero => exact h
    | succ n ih => exact ih.accepted (hRun n)
  have hGrows : ∀ n, n ≤ measure (run n) := by
    intro n
    induction n with
    | zero => exact Nat.zero_le _
    | succ n ih => exact Nat.lt_of_le_of_lt ih (step _ _ (hReachable n) (hRun n))
  have hLarge := hGrows (bound + 1)
  have hSmall := bounded _ (hReachable (bound + 1))
  omega

theorem Run.trans {a b c : State} (left : sys.Run a b) (right : sys.Run b c) : sys.Run a c := by
  induction right with
  | refl => exact left
  | snoc prior last ih => exact ih.snoc last

theorem settle_run (s : State) (request : Request) : sys.Run s (sys.settle s request) := by
  unfold settle
  split
  · rename_i t response h
    exact Run.refl.snoc ⟨request, response, h⟩
  · exact .refl

theorem settleAll_run (s : State) (requests : List Request) :
    sys.Run s (sys.settleAll s requests) := by
  induction requests generalizing s with
  | nil => exact .refl
  | cons request requests ih => exact (settle_run s request).trans (ih _)

/-- Histories with refusals visit only states of accepted runs. -/
theorem reachable_settleAll {s : State} (h : sys.initial s) (requests : List Request) :
    sys.Reachable (sys.settleAll s requests) :=
  ⟨s, h, settleAll_run s requests⟩

end System
