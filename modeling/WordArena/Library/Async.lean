import Mathlib.Logic.Basic
import Mathlib.Logic.Relation

/-! Operations that wait for answers from outside. An operation changes a state and, at
each of its await points, takes the next answer of a script. It is left waiting where the
script ends, which is also where a caller can drop it. Some answers interrupt an
operation that is raced against them. -/

variable {σ κ ε α β ι ρ : Type}

/-- How far an operation gets on a script. -/
inductive Outcome (σ κ ε α : Type) where
  | waiting (s : σ)
  | interrupted (s : σ) (rest : List κ)
  | finished (s : σ) (result : Except ε α) (rest : List κ)

/-- The state and the result of an operation that came to its end. -/
def Outcome.completed : Outcome σ κ ε α → Option (σ × Except ε α)
  | .finished s result _ => some (s, result)
  | _ => none

/-- An operation, given the answers that interrupt it. -/
def Async (σ κ ε α : Type) := (κ → Bool) → σ → List κ → Outcome σ κ ε α

namespace Async

protected def pure (a : α) : Async σ κ ε α := fun _ s answers => .finished s (.ok a) answers

protected def bind (m : Async σ κ ε α) (f : α → Async σ κ ε β) : Async σ κ ε β :=
  fun stop s answers =>
    match m stop s answers with
    | .waiting s => .waiting s
    | .interrupted s rest => .interrupted s rest
    | .finished s (.ok a) rest => f a stop s rest
    | .finished s (.error e) rest => .finished s (.error e) rest

instance : Monad (Async σ κ ε) where
  pure := Async.pure
  bind := Async.bind

def throw (e : ε) : Async σ κ ε α := fun _ s answers => .finished s (.error e) answers

def get : Async σ κ ε σ := fun _ s answers => .finished s (.ok s) answers

def modify (f : σ → σ) : Async σ κ ε Unit := fun _ s answers => .finished (f s) (.ok ()) answers

/-- The next answer. -/
def await : Async σ κ ε κ := fun stop s answers =>
  match answers with
  | [] => .waiting s
  | answer :: rest => if stop answer then .interrupted s rest else .finished s (.ok answer) rest

/-- An operation whose failure is a value. -/
def attempt (m : Async σ κ ε α) : Async σ κ ε (Except ε α) := fun stop s answers =>
  match m stop s answers with
  | .waiting s => .waiting s
  | .interrupted s rest => .interrupted s rest
  | .finished s result rest => .finished s (.ok result) rest

/-- An operation raced against some answers, which win. -/
def select (stop : κ → Bool) (m : Async σ κ ε α) : Async σ κ ε (Option α) := fun _ s answers =>
  match m stop s answers with
  | .waiting s => .waiting s
  | .interrupted s rest => .finished s (.ok none) rest
  | .finished s result rest => .finished s (result.map some) rest

/-- Some rounds of a loop. -/
def rounds (body : β → Async σ κ ε (β ⊕ α)) : Nat → β → Async σ κ ε α
  | 0, _ => fun _ s _ => .waiting s
  | n + 1, b => do
      match ← body b with
      | .inl next => rounds body n next
      | .inr a => pure a

/-- A loop whose rounds all wait for an answer. A script allows no more rounds than it
has answers, and one that is left waiting. -/
def loop (body : β → Async σ κ ε (β ⊕ α)) (b : β) : Async σ κ ε α := fun stop s answers =>
  rounds body (answers.length + 1) b stop s answers

/-- What holds where an operation waits, where it is interrupted, and where it ends. -/
def Ensures (m : Async σ κ ε α) (stop : κ → Bool) (s : σ) (answers : List κ)
    (inside : σ → Prop) (cut : σ → List κ → Prop) (post : σ → List κ → Except ε α → Prop) : Prop :=
  match m stop s answers with
  | .waiting t => inside t
  | .interrupted t rest => cut t rest
  | .finished t result rest => post t rest result

section Rules

variable {m : Async σ κ ε α} {stop : κ → Bool} {s : σ} {answers : List κ} {inside : σ → Prop}
  {cut : σ → List κ → Prop} {post post' : σ → List κ → Except ε α → Prop}

@[simp] theorem ensures_pure {a : α} :
    Ensures (pure a : Async σ κ ε α) stop s answers inside cut post ↔ post s answers (.ok a) :=
  Iff.rfl

@[simp] theorem ensures_get {post : σ → List κ → Except ε σ → Prop} :
    Ensures (get : Async σ κ ε σ) stop s answers inside cut post ↔ post s answers (.ok s) :=
  Iff.rfl

@[simp] theorem ensures_modify {f : σ → σ} {post : σ → List κ → Except ε Unit → Prop} :
    Ensures (modify f : Async σ κ ε Unit) stop s answers inside cut post ↔
      post (f s) answers (.ok ()) :=
  Iff.rfl

@[simp] theorem ensures_await {post : σ → List κ → Except ε κ → Prop} :
    Ensures (await : Async σ κ ε κ) stop s answers inside cut post ↔
      (answers = [] → inside s) ∧ ∀ answer rest, answers = answer :: rest →
        (stop answer = true → cut s rest) ∧ (stop answer = false → post s rest (.ok answer)) := by
  cases answers with
  | nil => simp [Ensures, await]
  | cons answer rest => cases hStop : stop answer <;> simp [Ensures, await, hStop]

/-- Where the script goes on, an answer is there. -/
theorem ensures_await_cons {answer : κ} {rest : List κ} {post : σ → List κ → Except ε κ → Prop} :
    Ensures (await : Async σ κ ε κ) stop s (answer :: rest) inside cut post ↔
      if stop answer then cut s rest else post s rest (.ok answer) := by
  cases hStop : stop answer <;> simp [Ensures, await, hStop]

/-- An operation followed by another one, which a failure skips. -/
@[simp] theorem ensures_bind {f : α → Async σ κ ε β} {post : σ → List κ → Except ε β → Prop} :
    Ensures (m >>= f) stop s answers inside cut post ↔
      Ensures m stop s answers inside cut fun t rest result =>
        match result with
        | .ok a => Ensures (f a) stop t rest inside cut post
        | .error e => post t rest (.error e) := by
  change (match Async.bind m f stop s answers with
    | .waiting t => inside t
    | .interrupted t rest => cut t rest
    | .finished t result rest => post t rest result) ↔ _
  simp only [Ensures]
  cases hRun : m stop s answers with
  | waiting t => simp only [Async.bind, hRun]
  | interrupted t rest => simp only [Async.bind, hRun]
  | finished t result rest => cases result <;> simp only [Async.bind, hRun]

@[simp] theorem ensures_attempt {post : σ → List κ → Except ε (Except ε α) → Prop} :
    Ensures m.attempt stop s answers inside cut post ↔
      Ensures m stop s answers inside cut fun t rest result => post t rest (.ok result) := by
  simp only [Ensures, attempt]
  cases m stop s answers <;> rfl

/-- A raced operation also ends where it is interrupted. -/
@[simp] theorem ensures_select {outer : κ → Bool}
    {post : σ → List κ → Except ε (Option α) → Prop} :
    Ensures (select stop m) outer s answers inside cut post ↔
      Ensures m stop s answers inside (fun t rest => post t rest (.ok none))
        fun t rest result => post t rest (result.map some) := by
  simp only [Ensures, select]
  cases m stop s answers <;> rfl

/-- The same with weaker conditions on all ends. -/
theorem Ensures.weaken {inside' : σ → Prop} {cut' : σ → List κ → Prop}
    (h : Ensures m stop s answers inside cut post) (hInside : ∀ t, inside t → inside' t)
    (hCut : ∀ t rest, cut t rest → cut' t rest)
    (hPost : ∀ t rest result, post t rest result → post' t rest result) :
    Ensures m stop s answers inside' cut' post' := by
  simp only [Ensures] at h ⊢
  cases hRun : m stop s answers with
  | waiting t =>
      rw [hRun] at h
      exact hInside t h
  | interrupted t rest =>
      rw [hRun] at h
      exact hCut t rest h
  | finished t result rest =>
      rw [hRun] at h
      exact hPost t rest result h

theorem Ensures.mono (h : Ensures m stop s answers inside cut post)
    (hPost : ∀ t rest result, post t rest result → post' t rest result) :
    Ensures m stop s answers inside cut post' :=
  h.weaken (fun _ hInside => hInside) (fun _ _ hCut => hCut) hPost

/-- What a finished operation leaves behind. -/
theorem Ensures.finished (h : Ensures m stop s answers inside cut post) {t : σ} {rest : List κ}
    {result : Except ε α} (hRun : m stop s answers = .finished t result rest) :
    post t rest result := by
  rwa [Ensures, hRun] at h

/-- A loop keeps what every round keeps. -/
theorem ensures_loop {body : β → Async σ κ ε (β ⊕ α)} {inv : β → σ → List κ → Prop}
    (hInside : ∀ b t rest, inv b t rest → inside t)
    (hBody : ∀ b t rest, inv b t rest → Ensures (body b) stop t rest inside cut
      fun u after result => (∀ next, result = .ok (.inl next) → inv next u after) ∧
        (∀ a, result = .ok (.inr a) → post u after (.ok a)) ∧
        ∀ e, result = .error e → post u after (.error e))
    {b : β} (h : inv b s answers) : Ensures (loop body b) stop s answers inside cut post := by
  have hRounds : ∀ (n : Nat) (b : β) (s : σ) (answers : List κ), inv b s answers →
      Ensures (rounds body n b) stop s answers inside cut post := by
    intro n
    induction n with
    | zero => exact fun b s answers h => hInside b s answers h
    | succ n ih =>
        intro b s answers h
        rw [rounds, ensures_bind]
        refine (hBody b s answers h).mono fun t rest result hResult => ?_
        obtain ⟨hNext, hDone, hError⟩ := hResult
        match result with
        | .error e => exact hError e rfl
        | .ok (.inl next) => exact ih next t rest (hNext next rfl)
        | .ok (.inr a) => exact ensures_pure.mpr (hDone a rfl)
  exact hRounds (answers.length + 1) b s answers h

theorem Ensures.completed (h : Ensures m stop s answers inside cut post) {t : σ}
    {result : Except ε α} (hRun : (m stop s answers).completed = some (t, result)) :
    ∃ rest, post t rest result := by
  cases hOutcome : m stop s answers with
  | waiting u =>
      rw [hOutcome] at hRun
      cases hRun
  | interrupted u rest =>
      rw [hOutcome] at hRun
      cases hRun
  | finished u outcome rest =>
      rw [hOutcome] at hRun
      cases hRun
      exact ⟨rest, h.finished hOutcome⟩

theorem ensures_of_completed {t : σ} {result : Except ε α}
    (hRun : (m stop s answers).completed = some (t, result)) (hPost : ∀ rest, post t rest result) :
    Ensures m stop s answers inside cut post := by
  rw [Ensures]
  cases hOutcome : m stop s answers with
  | waiting u =>
      rw [hOutcome] at hRun
      cases hRun
  | interrupted u rest =>
      rw [hOutcome] at hRun
      cases hRun
  | finished u outcome rest =>
      rw [hOutcome] at hRun
      cases hRun
      exact hPost rest

/-- An operation that neither waits nor is interrupted comes to its end. -/
theorem Ensures.completes (h : Ensures m stop s answers (fun _ => False) (fun _ _ => False) post) :
    ∃ t result rest, (m stop s answers).completed = some (t, result) ∧ post t rest result := by
  rw [Ensures] at h
  cases hOutcome : m stop s answers with
  | waiting u =>
      rw [hOutcome] at h
      exact h.elim
  | interrupted u rest =>
      rw [hOutcome] at h
      exact h.elim
  | finished u result rest =>
      rw [hOutcome] at h
      exact ⟨u, result, rest, rfl, h⟩

end Rules

end Async

section Calls

variable {step : σ → ι → Option (σ × ρ)} {ok : σ → ι → Prop} {s t u : σ}

/-- Calls one after another, each of them run to its end and under a condition. -/
def Reaches (step : σ → ι → Option (σ × ρ)) (ok : σ → ι → Prop) : σ → σ → Prop :=
  Relation.ReflTransGen fun s t => ∃ i result, ok s i ∧ step s i = some (t, result)

theorem Reaches.refl (s : σ) : Reaches step ok s s := Relation.ReflTransGen.refl

theorem Reaches.tail {i : ι} {result : ρ} (h : Reaches step ok s t) (hOk : ok t i)
    (hStep : step t i = some (u, result)) : Reaches step ok s u :=
  Relation.ReflTransGen.tail h ⟨i, result, hOk, hStep⟩

/-- What every call keeps holds after all of them. -/
theorem Reaches.invariant {inv : σ → Prop} (h : Reaches step ok s t)
    (hStep : ∀ s i t result, ok s i → step s i = some (t, result) → inv s → inv t) (hs : inv s) :
    inv t := by
  induction h with
  | refl => exact hs
  | tail _ hLast ih =>
      obtain ⟨i, result, hOk, hRun⟩ := hLast
      exact hStep _ i _ result hOk hRun ih

end Calls
