import Mathlib.Data.List.Basic

/-! Stores that answer requests one at a time. Every request is atomic: it
returns an answer and the next state, and a refused transaction keeps the
state it started from. -/

universe u v w x

structure Machine (State : Type u) (Request : Type v) (Response : Type w) where
  step : State → Request → Response × State

namespace Machine

variable {State : Type u} {Request : Type v} {Response : Type w}
  (m : Machine State Request Response)

/-- The state after a sequence of requests. -/
def after (s : State) (requests : List Request) : State :=
  requests.foldl (fun s request => (m.step s request).2) s

@[simp] theorem after_nil (s : State) : m.after s [] = s := rfl

@[simp] theorem after_cons (s : State) (request : Request) (requests : List Request) :
    m.after s (request :: requests) = m.after (m.step s request).2 requests := rfl

theorem after_append (s : State) (first second : List Request) :
    m.after s (first ++ second) = m.after (m.after s first) second :=
  List.foldl_append

/-- The answers to a sequence of requests, in order. -/
def answers : State → List Request → List Response
  | _, [] => []
  | s, request :: requests => (m.step s request).1 :: answers (m.step s request).2 requests

/-- A property kept by every request is kept by every sequence of them. -/
theorem after_invariant {inv : State → Prop}
    (step : ∀ s request, inv s → inv (m.step s request).2) {s : State} (h : inv s)
    (requests : List Request) : inv (m.after s requests) := by
  induction requests generalizing s with
  | nil => exact h
  | cons request requests ih => exact ih (step s request h)

/-- A preorder kept by every request from states with an invariant relates the
first state of a sequence to the last one. -/
theorem after_related {inv : State → Prop} {rel : State → State → Prop}
    (refl : ∀ s, rel s s) (trans : ∀ s t r, rel s t → rel t r → rel s r)
    (keeps : ∀ s request, inv s → inv (m.step s request).2)
    (step : ∀ s request, inv s → rel s (m.step s request).2) {s : State} (h : inv s)
    (requests : List Request) : rel s (m.after s requests) := by
  induction requests generalizing s with
  | nil => exact refl s
  | cons request requests ih =>
      exact trans _ _ _ (step s request h) (ih (keeps s request h))

/-- Every request of a sequence meets a condition in the state it is put to. -/
def Conform (ok : State → Request → Prop) : State → List Request → Prop
  | _, [] => True
  | s, request :: requests => ok s request ∧ Conform ok (m.step s request).2 requests

theorem conform_append {ok : State → Request → Prop} (s : State) (first second : List Request) :
    m.Conform ok s (first ++ second) ↔ m.Conform ok s first ∧ m.Conform ok (m.after s first) second := by
  induction first generalizing s with
  | nil => exact (and_iff_right trivial).symm
  | cons request first ih =>
      rw [List.cons_append, Conform, ih, Conform, and_assoc]
      rfl

/-- A property kept by the requests that meet a condition is kept by every
sequence of them. -/
theorem after_conform {inv : State → Prop} {ok : State → Request → Prop}
    (step : ∀ s request, ok s request → inv s → inv (m.step s request).2) {s : State} (h : inv s)
    {requests : List Request} (hOk : m.Conform ok s requests) : inv (m.after s requests) := by
  induction requests generalizing s with
  | nil => exact h
  | cons request requests ih => exact ih (step s request hOk.1 h) hOk.2

end Machine

/-- Keep the new state of a transaction that committed, and the old one
otherwise. -/
def transact {State : Type u} {Error : Type v} {Response : Type w} (s : State)
    (attempt : Except Error (Response × State)) : Except Error Response × State :=
  match attempt with
  | .ok (response, t) => (.ok response, t)
  | .error e => (.error e, s)

section

variable {State : Type u} {Error : Type v} {Response : Type w} {s t : State}
  {attempt : Except Error (Response × State)} {response : Response} {e : Error}

@[simp] theorem transact_ok : transact s (.ok (response, t) : Except Error _) = (.ok response, t) :=
  rfl

@[simp] theorem transact_error :
    transact s (.error e : Except Error (Response × State)) = (.error e, s) := rfl

/-- A transaction either commits what it computed or changes nothing. -/
theorem transact_cases (s : State) (attempt : Except Error (Response × State)) :
    (∃ response t, attempt = .ok (response, t) ∧ transact s attempt = (.ok response, t)) ∨
      ∃ e, attempt = .error e ∧ transact s attempt = (.error e, s) := by
  cases attempt with
  | ok pair => exact .inl ⟨pair.1, pair.2, rfl, rfl⟩
  | error e => exact .inr ⟨e, rfl, rfl⟩

theorem transact_fst_ok :
    (transact s attempt).1 = .ok response ↔ ∃ t, attempt = .ok (response, t) := by
  cases attempt with
  | ok pair => simp [transact, Prod.ext_iff]
  | error e => simp [transact]

end
