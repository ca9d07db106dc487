import WordArena.Library.Program

/-! Programs that run alone, watched request by request. An audit looks at each
request together with all that was done before it. Whatever the outside answers is
restricted only by what the audit assumes. -/

universe u v w x y z

namespace Program

variable {Request : Type u} {Response : Request → Type v} {State : Type x} {Input : Type y}

/-- What is assumed of each request after a log, and what is claimed of it. -/
structure Audit (State : Type x) (Input : Type y) (Request : Type u) (Response : Request → Type v) where
  may : List (Event State Input Request Response) → Event State Input Request Response → Prop
  check : List (Event State Input Request Response) → Event State Input Request Response → Prop

/-- An audit that only watches the result. -/
def Audit.lenient : Audit State Input Request Response := ⟨fun _ _ => True, fun _ _ => True⟩

/-- What a sequence of programs does, one after the other. -/
theorem trace_bind (store : Interface State Input Request Response) {α β : Type w}
    (program : Program Request Response α) (f : α → Program Request Response β)
    (inputs : Nat → Input) (s : State) :
    (program >>= f).trace store inputs s = program.trace store inputs s ++
      (f (program.alone store inputs s).1).trace store
        (fun n => inputs (n + (program.trace store inputs s).length))
        (program.alone store inputs s).2 := by
  induction program generalizing inputs s with
  | done a => rfl
  | query request next ih => exact congrArg (_ :: ·) (ih _ (fun n => inputs (n + 1)) _)

/-- A program passes an audit from a log and a store on, and ends as described. -/
def Follows (store : Interface State Input Request Response)
    (audit : Audit State Input Request Response) {Result : Type w}
    (post : Result → List (Event State Input Request Response) → State → Prop) :
    Program Request Response Result → List (Event State Input Request Response) → State → Prop
  | .done result, log, s => post result log s
  | .query request next, log, s => ∀ input,
      audit.may log ⟨s, input, request, (store.perform input s request).1⟩ →
      audit.check log ⟨s, input, request, (store.perform input s request).1⟩ ∧
      Follows store audit post (next (store.perform input s request).1)
        (log ++ [⟨s, input, request, (store.perform input s request).1⟩])
        (store.perform input s request).2

variable {store : Interface State Input Request Response}
  {audit : Audit State Input Request Response} {log : List (Event State Input Request Response)}
  {s : State}

theorem Follows.mono {Result : Type w}
    {post post' : Result → List (Event State Input Request Response) → State → Prop}
    {program : Program Request Response Result} (h : program.Follows store audit post log s)
    (hPost : ∀ result log t, post result log t → post' result log t) :
    program.Follows store audit post' log s := by
  induction program generalizing log s with
  | done result => exact hPost _ _ _ h
  | query request next ih =>
      intro input hMay
      obtain ⟨hCheck, hNext⟩ := h input hMay
      exact ⟨hCheck, ih _ hNext⟩

/-- A sequence passes when its first part ends where its second part passes. -/
theorem Follows.bind {α β : Type w} {post : β → List (Event State Input Request Response) → State → Prop}
    {program : Program Request Response α} {f : α → Program Request Response β}
    (h : program.Follows store audit (fun a log t => (f a).Follows store audit post log t) log s) :
    (program >>= f).Follows store audit post log s := by
  induction program generalizing log s with
  | done a => exact h
  | query request next ih =>
      intro input hMay
      obtain ⟨hCheck, hNext⟩ := h input hMay
      exact ⟨hCheck, ih _ hNext⟩

/-- The run of a program that passes an audit: all its requests meet the claim, and it
ends as described. -/
theorem Follows.run {Result : Type w}
    {post : Result → List (Event State Input Request Response) → State → Prop}
    {program : Program Request Response Result} (h : program.Follows store audit post log s)
    (inputs : Nat → Input)
    (hMay : ∀ front event back, program.trace store inputs s = front ++ event :: back →
      audit.may (log ++ front) event) :
    (∀ front event back, program.trace store inputs s = front ++ event :: back →
      audit.check (log ++ front) event) ∧
    post (program.alone store inputs s).1 (log ++ program.trace store inputs s)
      (program.alone store inputs s).2 := by
  induction program generalizing log s inputs with
  | done result =>
      refine ⟨fun front event back hTrace => ?_, ?_⟩
      · cases front <;> cases hTrace
      · rw [trace, List.append_nil]
        exact h
  | query request next ih =>
      have hFirst := hMay [] _ _ rfl
      rw [List.append_nil] at hFirst
      obtain ⟨hCheck, hNext⟩ := h (inputs 0) hFirst
      obtain ⟨hLater, hPost⟩ := ih _ hNext (fun n => inputs (n + 1)) fun front event back hTrace => by
        rw [List.append_assoc]
        exact hMay (_ :: front) event back (congrArg (_ :: ·) hTrace)
      rw [List.append_assoc] at hPost
      refine ⟨fun front event back hTrace => ?_, hPost⟩
      cases front with
      | nil =>
          rw [List.append_nil]
          cases (List.cons.inj hTrace).1
          exact hCheck
      | cons first front =>
          obtain ⟨rfl, hRest⟩ := List.cons.inj hTrace
          have hRest := hLater front event back hRest
          rw [List.append_assoc] at hRest
          exact hRest

end Program
