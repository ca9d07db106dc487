import Mathlib.Data.List.Forall2
import Mathlib.Data.List.Basic

/-! Inversion of computations that may fail with a typed error. A run of a
fallible block is taken apart bind by bind, so that no caller unfolds the
functions it sequences. Nothing here commits to a particular error type. -/
namespace Fallible

universe u v w

variable {ε : Type u} {α β : Type v}

/-- The value of an optional result, or the given error. -/
def okOr (value : Option α) (error : ε) : Except ε α :=
  match value with
  | some a => .ok a
  | none => .error error

/-- Stop with an error when a guard holds; continue without a value otherwise. -/
def reject (bad : Prop) [Decidable bad] (error : ε) : Except ε Unit :=
  if bad then .error error else .ok ()

/-- Rename the error of a failed computation. -/
def mapErr {ε' : Type w} (f : ε → ε') : Except ε α → Except ε' α
  | .ok a => .ok a
  | .error e => .error (f e)

@[simp] theorem okOr_eq_ok {value : Option α} {error : ε} {a : α} :
    okOr value error = .ok a ↔ value = some a := by
  cases value <;> simp [okOr]

@[simp] theorem okOr_eq_error {value : Option α} {error e : ε} :
    okOr value error = .error e ↔ value = none ∧ error = e := by
  cases value <;> simp [okOr]

@[simp] theorem reject_eq_ok {bad : Prop} [Decidable bad] {error : ε} {u : Unit} :
    reject bad error = .ok u ↔ ¬ bad := by
  by_cases h : bad <;> simp [reject, h]

@[simp] theorem reject_eq_error {bad : Prop} [Decidable bad] {error e : ε} :
    reject bad error = .error e ↔ bad ∧ error = e := by
  by_cases h : bad <;> simp [reject, h]

@[simp] theorem mapErr_eq_ok {ε' : Type w} {f : ε → ε'} {x : Except ε α} {a : α} :
    mapErr f x = .ok a ↔ x = .ok a := by
  cases x <;> simp [mapErr]

@[simp] theorem mapErr_eq_error {ε' : Type w} {f : ε → ε'} {x : Except ε α} {e : ε'} :
    mapErr f x = .error e ↔ ∃ inner, x = .error inner ∧ f inner = e := by
  cases x <;> simp [mapErr]

theorem ok_bind {a : α} {f : α → Except ε β} : (Except.ok a >>= f) = f a := rfl

theorem error_bind {e : ε} {f : α → Except ε β} :
    ((Except.error e : Except ε α) >>= f) = .error e := rfl

/-- A sequenced computation succeeds exactly when both parts do. -/
theorem bind_eq_ok {x : Except ε α} {f : α → Except ε β} {b : β} :
    x >>= f = .ok b ↔ ∃ a, x = .ok a ∧ f a = .ok b := by
  cases x <;> simp [bind, Except.bind]

/-- A sequenced computation fails in its first part, or in its second part
after the first returned. -/
theorem bind_eq_error {x : Except ε α} {f : α → Except ε β} {e : ε} :
    x >>= f = .error e ↔ x = .error e ∨ ∃ a, x = .ok a ∧ f a = .error e := by
  cases x <;> simp [bind, Except.bind]

@[simp] theorem pure_eq_ok {a b : α} : (pure a : Except ε α) = .ok b ↔ a = b := by
  simp [pure, Except.pure]

@[simp] theorem pure_ne_error {a : α} {e : ε} : (pure a : Except ε α) = .error e ↔ False := by
  simp [pure, Except.pure]

/-- Every result is a value or an error, never both. -/
theorem ok_or_error (x : Except ε α) : (∃ a, x = .ok a) ∨ ∃ e, x = .error e := by
  cases x with
  | ok a => exact .inl ⟨a, rfl⟩
  | error e => exact .inr ⟨e, rfl⟩

/-- A traversal succeeds exactly when every element does, in order. -/
theorem mapM_eq_ok {γ : Type v} {f : γ → Except ε β} {xs : List γ} {ys : List β} :
    xs.mapM f = .ok ys ↔ List.Forall₂ (fun x y => f x = .ok y) xs ys := by
  induction xs generalizing ys with
  | nil => simp [List.mapM_nil, pure, Except.pure, eq_comm]
  | cons x xs ih =>
      rw [List.mapM_cons, bind_eq_ok]
      constructor
      · rintro ⟨y, hy, h⟩
        obtain ⟨rest, hr, h⟩ := bind_eq_ok.mp h
        cases pure_eq_ok.mp h
        exact .cons hy (ih.mp hr)
      · rintro (_ | ⟨hy, hr⟩)
        exact ⟨_, hy, bind_eq_ok.mpr ⟨_, ih.mpr hr, rfl⟩⟩

/-- A failed traversal failed at one of its elements. -/
theorem mapM_eq_error {γ : Type v} {f : γ → Except ε β} {xs : List γ} {e : ε}
    (h : xs.mapM f = .error e) : ∃ x ∈ xs, f x = .error e := by
  induction xs with
  | nil => simp [List.mapM_nil] at h
  | cons x xs ih =>
      rw [List.mapM_cons, bind_eq_error] at h
      rcases h with h | ⟨y, -, h⟩
      · exact ⟨x, List.mem_cons_self, h⟩
      · rcases bind_eq_error.mp h with h | ⟨_, -, h⟩
        · obtain ⟨z, hz, hf⟩ := ih h
          exact ⟨z, List.mem_cons_of_mem _ hz, hf⟩
        · simp at h

/-- A traversal whose elements all succeed succeeds. -/
theorem mapM_succeeds {γ : Type v} {f : γ → Except ε β} {xs : List γ}
    (h : ∀ x ∈ xs, ∃ y, f x = .ok y) : ∃ ys, xs.mapM f = .ok ys := by
  rcases ok_or_error (xs.mapM f) with ⟨ys, hys⟩ | ⟨e, he⟩
  · exact ⟨ys, hys⟩
  · obtain ⟨x, hx, hFail⟩ := mapM_eq_error he
    obtain ⟨y, hy⟩ := h x hx
    rw [hy] at hFail
    cases hFail

/-- A loop of checks succeeds exactly when every check does. -/
theorem forM_eq_ok {ε : Type u} {γ : Type v} {f : γ → Except ε PUnit} {xs : List γ} {u : PUnit} :
    xs.forM f = .ok u ↔ ∀ x ∈ xs, f x = .ok u := by
  induction xs with
  | nil => simp [pure, Except.pure]
  | cons x xs ih =>
      change (f x >>= fun _ => xs.forM f) = .ok u ↔ _
      rw [bind_eq_ok, List.forall_mem_cons, ← ih]
      exact ⟨fun ⟨_, hHead, hTail⟩ => ⟨hHead, hTail⟩, fun ⟨hHead, hTail⟩ => ⟨u, hHead, hTail⟩⟩

/-- Carry an invariant through a fold whose steps may fail. -/
theorem foldlM_invariant {σ γ : Type v} {f : σ → γ → Except ε σ} (inv : σ → Prop)
    {xs : List γ} {s t : σ} (h : xs.foldlM f s = .ok t) (initial : inv s)
    (step : ∀ s x s', x ∈ xs → inv s → f s x = .ok s' → inv s') : inv t := by
  induction xs generalizing s with
  | nil => cases pure_eq_ok.mp h; exact initial
  | cons x xs ih =>
      rw [List.foldlM_cons, bind_eq_ok] at h
      obtain ⟨s', hs, h⟩ := h
      exact ih h (step s x s' List.mem_cons_self initial hs)
        (fun a y b hy => step a y b (List.mem_cons_of_mem _ hy))

/-- A loop whose turns succeed on a condition and then compute a known state. -/
theorem foldlM_eq_ok {σ γ : Type v} {f : σ → γ → Except ε σ} {ok : σ → γ → Prop} {add : σ → γ → σ}
    (h : ∀ s x t, f s x = .ok t ↔ ok s x ∧ t = add s x) {xs : List γ} {s t : σ} :
    xs.foldlM f s = .ok t ↔
      (∀ before x rest, xs = before ++ x :: rest → ok (before.foldl add s) x) ∧
        t = xs.foldl add s := by
  induction xs generalizing s with
  | nil =>
      rw [List.foldlM_nil, pure_eq_ok]
      refine ⟨fun hEnd => ⟨?_, hEnd.symm⟩, fun hEnd => hEnd.2.symm⟩
      intro before x rest hSplit
      simp at hSplit
  | cons first xs ih =>
      rw [List.foldlM_cons, bind_eq_ok]
      constructor
      · rintro ⟨next, hFirst, hRest⟩
        obtain ⟨hOk, rfl⟩ := (h s first next).mp hFirst
        obtain ⟨hLater, rfl⟩ := ih.mp hRest
        refine ⟨?_, rfl⟩
        intro before x rest hSplit
        cases before with
        | nil =>
            cases hSplit
            exact hOk
        | cons head before =>
            obtain ⟨rfl, hTail⟩ := List.cons.inj hSplit
            exact hLater before x rest hTail
      · rintro ⟨hAll, rfl⟩
        refine ⟨add s first, (h s first _).mpr ⟨hAll [] first xs rfl, rfl⟩, ih.mpr ⟨?_, rfl⟩⟩
        intro before x rest hSplit
        exact hAll (first :: before) x rest (by rw [hSplit]; rfl)

/-- A loop whose turns compute a known state when they succeed computes the folded state. -/
theorem foldlM_value {σ γ : Type v} {f : σ → γ → Except ε σ} {add : σ → γ → σ}
    (h : ∀ s x t, f s x = .ok t → t = add s x) {xs : List γ} {s t : σ}
    (hLoop : xs.foldlM f s = .ok t) : t = xs.foldl add s := by
  induction xs generalizing s with
  | nil => exact (pure_eq_ok.mp hLoop).symm
  | cons x xs ih =>
      rw [List.foldlM_cons, bind_eq_ok] at hLoop
      obtain ⟨next, hFirst, hRest⟩ := hLoop
      rw [List.foldl_cons, ← h s x next hFirst]
      exact ih hRest

/-! Failures that cannot happen. -/

/-- No failure of a computation is of a given kind. -/
def Avoids (bad : ε → Prop) (x : Except ε α) : Prop := ∀ e, x = .error e → ¬ bad e

section

variable {bad : ε → Prop}

theorem Avoids.of_ok {x : Except ε α} {a : α} (h : x = .ok a) : Avoids bad x := by
  intro e he
  rw [h] at he
  cases he

theorem avoids_pure (a : α) : Avoids bad (pure a : Except ε α) := Avoids.of_ok rfl

/-- Later parts only need to avoid a failure after the earlier ones returned. -/
theorem Avoids.bind {x : Except ε α} {f : α → Except ε β} (hx : Avoids bad x)
    (hf : ∀ a, x = .ok a → Avoids bad (f a)) : Avoids bad (x >>= f) := by
  intro e he
  rcases bind_eq_error.mp he with he | ⟨a, ha, he⟩
  · exact hx e he
  · exact hf a ha e he

theorem avoids_reject {p : Prop} [Decidable p] {error : ε} (h : ¬ bad error) :
    Avoids bad (reject p error) := by
  intro e he
  rw [reject_eq_error] at he
  exact he.2 ▸ h

theorem avoids_okOr {value : Option α} {error : ε} (h : ¬ bad error) :
    Avoids bad (okOr value error) := by
  intro e he
  rw [okOr_eq_error] at he
  exact he.2 ▸ h

theorem avoids_mapErr {ε' : Type w} {f : ε' → ε} {x : Except ε' α} (h : ∀ e, ¬ bad (f e)) :
    Avoids bad (mapErr f x) := by
  intro e he
  obtain ⟨inner, -, rfl⟩ := mapErr_eq_error.mp he
  exact h inner

theorem avoids_mapM {γ : Type v} {f : γ → Except ε β} {xs : List γ}
    (h : ∀ x ∈ xs, Avoids bad (f x)) : Avoids bad (xs.mapM f) := by
  intro e he
  obtain ⟨x, hx, hFail⟩ := mapM_eq_error he
  exact h x hx e hFail

theorem avoids_forM {γ : Type v} {f : γ → Except ε PUnit} {xs : List γ}
    (h : ∀ x ∈ xs, Avoids bad (f x)) : Avoids bad (xs.forM f) := by
  induction xs with
  | nil => exact avoids_pure _
  | cons x xs ih =>
      rw [List.forall_mem_cons] at h
      exact h.1.bind fun _ _ => ih h.2

/-- A loop avoids a failure when each turn does under the invariant so far. -/
theorem avoids_foldlM {σ γ : Type v} {f : σ → γ → Except ε σ} {xs : List γ} {s : σ}
    (h : ∀ s, ∀ x ∈ xs, Avoids bad (f s x)) : Avoids bad (xs.foldlM f s) := by
  induction xs generalizing s with
  | nil => exact avoids_pure s
  | cons x xs ih =>
      rw [List.foldlM_cons]
      exact (h s x List.mem_cons_self).bind fun s' _ =>
        ih fun t y hy => h t y (List.mem_cons_of_mem _ hy)

end

end Fallible
