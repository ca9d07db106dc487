import Mathlib.Data.List.Induction
import WordArena.Library.Machine

/-! Programs that reach a shared store by single requests, and pools of them
whose requests interleave in any order. A request is atomic. What its answer
takes from outside the store, such as a clock reading, is an explicit input,
so a schedule with its inputs determines a run. -/

universe u v w x y z

/-- A program that is done or waits for the answer to one request. -/
inductive Program (Request : Type u) (Response : Request → Type v) (Result : Type w) where
  | done (result : Result)
  | query (request : Request) (next : Response request → Program Request Response Result)

namespace Program

variable {Request : Type u} {Response : Request → Type v} {State : Type x} {Input : Type y}

section

variable {α β : Type w}

protected def bind : Program Request Response α → (α → Program Request Response β) →
    Program Request Response β
  | .done a, f => f a
  | .query request next, f => .query request fun response => (next response).bind f

instance : Monad (Program Request Response) where
  pure := .done
  bind := Program.bind

/-- One request whose answer is the result. -/
def ask {Response : Request → Type w} (request : Request) :
    Program Request Response (Response request) :=
  .query request .done

end

/-- The store a program is run against. -/
structure Interface (State : Type x) (Input : Type y) (Request : Type u)
    (Response : Request → Type v) where
  perform : Input → State → (request : Request) → Response request × State

/-- A program run to its end with nobody else at the store. The inputs of its
requests come from a fixed sequence. -/
def alone (store : Interface State Input Request Response) {Result : Type w} :
    Program Request Response Result → (Nat → Input) → State → Result × State
  | .done result, _, s => (result, s)
  | .query request next, inputs, s =>
      (next (store.perform (inputs 0) s request).1).alone store (fun n => inputs (n + 1))
        (store.perform (inputs 0) s request).2

/-- Wrapping the result changes nothing else. -/
theorem alone_map (store : Interface State Input Request Response) {α β : Type w}
    (program : Program Request Response α) (f : α → β) (inputs : Nat → Input) (s : State) :
    (program >>= fun a => .done (f a)).alone store inputs s =
      (f (program.alone store inputs s).1, (program.alone store inputs s).2) := by
  induction program generalizing inputs s with
  | done a => rfl
  | query request next ih => exact ih _ (fun n => inputs (n + 1)) _

/-- What is left of a program after at most so many requests of its own, with
nobody else at the store. -/
def turns (store : Interface State Input Request Response) {Result : Type w} :
    Nat → (Nat → Input) → Program Request Response Result → State →
      Program Request Response Result × State
  | 0, _, program, s => (program, s)
  | _ + 1, _, .done result, s => (.done result, s)
  | n + 1, inputs, .query request next, s =>
      turns store n (fun k => inputs (k + 1)) (next (store.perform (inputs 0) s request).1)
        (store.perform (inputs 0) s request).2

/-- A program that is left alone ends after finitely many requests. -/
theorem exists_turns (store : Interface State Input Request Response) {Result : Type w}
    (program : Program Request Response Result) (inputs : Nat → Input) (s : State) :
    ∃ n, program.turns store n inputs s =
      (.done (program.alone store inputs s).1, (program.alone store inputs s).2) := by
  induction program generalizing inputs s with
  | done result => exact ⟨0, rfl⟩
  | query request next ih =>
      obtain ⟨n, hn⟩ := ih _ (fun k => inputs (k + 1)) (store.perform (inputs 0) s request).2
      exact ⟨n + 1, hn⟩

/-- Turns add up. -/
theorem turns_add (store : Interface State Input Request Response) {Result : Type w}
    (program : Program Request Response Result) (m n : Nat) (inputs : Nat → Input) (s : State) :
    program.turns store (n + m) inputs s =
      (program.turns store n inputs s).1.turns store m (fun k => inputs (k + n))
        (program.turns store n inputs s).2 := by
  induction n generalizing program inputs s with
  | zero => rw [Nat.zero_add]; rfl
  | succ n ih =>
      rw [Nat.add_right_comm]
      cases program with
      | done a => cases m <;> rfl
      | query request next => exact ih _ (fun k => inputs (k + 1)) _

/-- A program that got somewhere alone ends as from there. -/
theorem alone_turns (store : Interface State Input Request Response) {Result : Type w}
    (program : Program Request Response Result) (n : Nat) (inputs : Nat → Input) (s : State) :
    program.alone store inputs s = (program.turns store n inputs s).1.alone store
      (fun k => inputs (k + n)) (program.turns store n inputs s).2 := by
  induction n generalizing program inputs s with
  | zero => rfl
  | succ n ih =>
      cases program with
      | done a => rfl
      | query request next => exact ih _ (fun k => inputs (k + 1)) _

/-- One executed request with its answer and the store it was put to. -/
structure Event (State : Type x) (Input : Type y) (Request : Type u)
    (Response : Request → Type v) where
  before : State
  input : Input
  request : Request
  response : Response request

/-- What a program left alone has done by its end. -/
def trace (store : Interface State Input Request Response) {Result : Type w} :
    Program Request Response Result → (Nat → Input) → State →
      List (Event State Input Request Response)
  | .done _, _, _ => []
  | .query request next, inputs, s =>
      ⟨s, inputs 0, request, (store.perform (inputs 0) s request).1⟩ ::
        (next (store.perform (inputs 0) s request).1).trace store (fun n => inputs (n + 1))
          (store.perform (inputs 0) s request).2

theorem trace_query {store : Interface State Input Request Response} {Result : Type w}
    {request : Request} {next : Response request → Program Request Response Result}
    {inputs : Nat → Input} {s t : State} {response : Response request}
    (h : store.perform (inputs 0) s request = (response, t)) :
    (query request next).trace store inputs s = ⟨s, inputs 0, request, response⟩ ::
      (next response).trace store (fun n => inputs (n + 1)) t := by
  rw [trace, h]

/-- What a program does after it got somewhere is part of what it does. -/
theorem mem_trace_of_turns (store : Interface State Input Request Response) {Result : Type w}
    {program : Program Request Response Result} {n : Nat} {inputs : Nat → Input} {s : State}
    {event : Event State Input Request Response}
    (h : event ∈ (program.turns store n inputs s).1.trace store (fun k => inputs (k + n))
      (program.turns store n inputs s).2) : event ∈ program.trace store inputs s := by
  induction n generalizing program inputs s with
  | zero => exact h
  | succ n ih =>
      cases program with
      | done a => exact absurd h List.not_mem_nil
      | query request next => exact List.mem_cons_of_mem _ (ih h)

/-- Wrapping the result does not change what is done. -/
theorem trace_map (store : Interface State Input Request Response) {α β : Type w}
    (program : Program Request Response α) (f : α → β) (inputs : Nat → Input) (s : State) :
    (program >>= fun a => .done (f a)).trace store inputs s = program.trace store inputs s := by
  induction program generalizing inputs s with
  | done a => rfl
  | query request next ih => exact congrArg (_ :: ·) (ih _ (fun n => inputs (n + 1)) _)

/-- An event whose answer is the one the store gives. -/
def Event.Performed (store : Interface State Input Request Response)
    (event : Event State Input Request Response) : Prop :=
  event.response = (store.perform event.input event.before event.request).1

theorem trace_performed (store : Interface State Input Request Response) {Result : Type w}
    {program : Program Request Response Result} {inputs : Nat → Input} {s : State}
    {event : Event State Input Request Response} (h : event ∈ program.trace store inputs s) :
    event.Performed store := by
  induction program generalizing inputs s with
  | done a => exact absurd h List.not_mem_nil
  | query request next ih =>
      rcases List.mem_cons.mp h with rfl | hLater
      · rfl
      · exact ih _ hLater

/-- What a program gets from outside comes from its inputs. -/
theorem trace_input (store : Interface State Input Request Response) {Result : Type w}
    {program : Program Request Response Result} {inputs : Nat → Input} {s : State}
    {event : Event State Input Request Response} (h : event ∈ program.trace store inputs s) :
    ∃ n, event.input = inputs n := by
  induction program generalizing inputs s with
  | done a => exact absurd h List.not_mem_nil
  | query request next ih =>
      rcases List.mem_cons.mp h with rfl | hLater
      · exact ⟨0, rfl⟩
      · obtain ⟨n, hn⟩ := ih _ hLater
        exact ⟨n + 1, hn⟩

/-- A program left alone leaves the store as its last request does. -/
theorem alone_trace (store : Interface State Input Request Response) {Result : Type w}
    {program : Program Request Response Result} {inputs : Nat → Input} {s : State}
    {front : List (Event State Input Request Response)} {event : Event State Input Request Response}
    (h : program.trace store inputs s = front ++ [event]) :
    (program.alone store inputs s).2 = (store.perform event.input event.before event.request).2 := by
  induction program generalizing inputs s front with
  | done a => exact absurd (congrArg List.length h) (by simp [trace])
  | query request next ih =>
      cases front with
      | nil =>
          obtain ⟨rfl, hRest⟩ := List.cons.inj h
          cases hNext : next (store.perform (inputs 0) s request).1 with
          | done a => simp only [alone, hNext]
          | query later after =>
              rw [hNext] at hRest
              cases hRest
      | cons first front => exact ih _ (List.cons.inj h).2

end Program

open Program

/-! What a program does when others use the store as well. -/

/-- A condition on single stores and a preorder on consecutive ones that every
party keeps, whatever it is doing. -/
structure Discipline (State : Type x) where
  inv : State → Prop
  grows : State → State → Prop
  refl : ∀ s, grows s s
  trans : ∀ {s t r}, grows s t → grows t r → grows s r

/-- What is claimed about one program: `own` relates each of its requests to the
store it leaves, `may` restricts the requests that are considered after what the
program has done, and `post` describes its result, its log and every later store. -/
structure Promise (State : Type x) (Input : Type y) (Request : Type u)
    (Response : Request → Type v) (Result : Type w) where
  own : Event State Input Request Response → State → Prop
  may : List (Event State Input Request Response) → Event State Input Request Response → Prop
  post : Result → List (Event State Input Request Response) → State → Prop

/-- A program keeps the discipline and its promise from a store on, while others
move the store under the discipline. -/
def Meets {Request : Type u} {Response : Request → Type v} {State : Type x} {Input : Type y}
    (store : Interface State Input Request Response) (d : Discipline State) {Result : Type w}
    (p : Promise State Input Request Response Result) : Program Request Response Result →
    List (Event State Input Request Response) → State → Prop
  | .done result, log, s => ∀ t, d.grows s t → d.inv t → p.post result log t
  | .query request next, log, s => ∀ t, d.grows s t → d.inv t → ∀ input,
      p.may log ⟨t, input, request, (store.perform input t request).1⟩ →
      d.inv (store.perform input t request).2 ∧ d.grows t (store.perform input t request).2 ∧
      p.own ⟨t, input, request, (store.perform input t request).1⟩
        (store.perform input t request).2 ∧
      Meets store d p (next (store.perform input t request).1)
        (log ++ [⟨t, input, request, (store.perform input t request).1⟩])
        (store.perform input t request).2

section

variable {Request : Type u} {Response : Request → Type v} {State : Type x} {Input : Type y}
  {store : Interface State Input Request Response} {d : Discipline State}

/-- What holds at a store holds at every later one. -/
theorem Meets.later {Result : Type w} {p : Promise State Input Request Response Result}
    {program : Program Request Response Result} {log : List (Event State Input Request Response)}
    {s t : State} (h : Meets store d p program log s) (hGrows : d.grows s t) :
    Meets store d p program log t := by
  cases program with
  | done result => exact fun r hr => h r (d.trans hGrows hr)
  | query request next => exact fun r hr => h r (d.trans hGrows hr)

/-- The same promise with another result. -/
def Promise.ending {α : Type w} {β : Type z} (p : Promise State Input Request Response α)
    (post : β → List (Event State Input Request Response) → State → Prop) :
    Promise State Input Request Response β where
  own := p.own
  may := p.may
  post := post

/-- A sequence keeps a promise when its first part ends where the second part
keeps it. -/
theorem Meets.bind {α β : Type w} {p : Promise State Input Request Response β}
    {program : Program Request Response α} {f : α → Program Request Response β}
    {log : List (Event State Input Request Response)} {s : State} (hInv : d.inv s)
    (h : Meets store d (p.ending fun a log t => Meets store d p (f a) log t) program log s) :
    Meets store d p (program >>= f) log s := by
  induction program generalizing log s with
  | done a => exact h s (d.refl s) hInv
  | query request next ih =>
      intro t hGrows ht input hMay
      obtain ⟨hInv', hStep, hOwn, hNext⟩ := h t hGrows ht input hMay
      exact ⟨hInv', hStep, hOwn, ih _ hInv' hNext⟩

/-- A promise that claims less follows, as far as the requests it considers after
a given log are among those the first one does. -/
theorem Meets.mono {Result : Type w} {p q : Promise State Input Request Response Result}
    {program : Program Request Response Result} {log : List (Event State Input Request Response)}
    {s : State} (h : Meets store d p program log s)
    (hOwn : ∀ event t, p.own event t → q.own event t)
    (hMay : ∀ more event, q.may (log ++ more) event → p.may (log ++ more) event)
    (hPost : ∀ result log t, d.inv t → p.post result log t → q.post result log t) :
    Meets store d q program log s := by
  induction program generalizing log s with
  | done a => exact fun t hGrows ht => hPost _ _ _ ht (h t hGrows ht)
  | query request next ih =>
      intro t hGrows ht input hAllowed
      have hFirst := hMay [] ⟨t, input, request, (store.perform input t request).1⟩
      rw [List.append_nil] at hFirst
      obtain ⟨hInv, hStep, hOwned, hNext⟩ := h t hGrows ht input (hFirst hAllowed)
      refine ⟨hInv, hStep, hOwn _ _ hOwned, ih _ hNext fun more event => ?_⟩
      rw [List.append_assoc]
      exact hMay _ event

/-- A weaker claim about the result follows. -/
theorem Meets.weaken {Result : Type w} {p : Promise State Input Request Response Result}
    {post : Result → List (Event State Input Request Response) → State → Prop}
    {program : Program Request Response Result} {log : List (Event State Input Request Response)}
    {s : State} (h : Meets store d p program log s)
    (hPost : ∀ result log t, d.inv t → p.post result log t → post result log t) :
    Meets store d (p.ending post) program log s :=
  h.mono (fun _ _ hOwn => hOwn) (fun _ _ hMay => hMay) hPost

/-- A program ends at a store that has grown since it began. -/
theorem Meets.grown {Result : Type w} {p : Promise State Input Request Response Result}
    {program : Program Request Response Result} {log : List (Event State Input Request Response)}
    {s : State} (h : Meets store d p program log s) :
    Meets store d (p.ending fun result log t => d.grows s t ∧ p.post result log t) program log s := by
  induction program generalizing log s with
  | done a => exact fun t hGrows ht => ⟨hGrows, h t hGrows ht⟩
  | query request next ih =>
      intro t hGrows ht input hMay
      obtain ⟨hInv, hStep, hOwn, hNext⟩ := h t hGrows ht input hMay
      exact ⟨hInv, hStep, hOwn, (ih _ hNext).weaken fun _ _ _ _ hEnd =>
        ⟨d.trans (d.trans hGrows hStep) hEnd.1, hEnd.2⟩⟩

/-- Two promises kept by one program are kept together. -/
def Promise.both {Result : Type w} (p q : Promise State Input Request Response Result) :
    Promise State Input Request Response Result where
  own event t := p.own event t ∧ q.own event t
  may log event := p.may log event ∧ q.may log event
  post result log t := p.post result log t ∧ q.post result log t

theorem Meets.both {Result : Type w} {p q : Promise State Input Request Response Result}
    {program : Program Request Response Result} {log : List (Event State Input Request Response)}
    {s : State} (hp : Meets store d p program log s) (hq : Meets store d q program log s) :
    Meets store d (p.both q) program log s := by
  induction program generalizing log s with
  | done a => exact fun t hGrows ht => ⟨hp t hGrows ht, hq t hGrows ht⟩
  | query request next ih =>
      intro t hGrows ht input hMay
      obtain ⟨hInv, hStep, hOwn, hNext⟩ := hp t hGrows ht input hMay.1
      obtain ⟨-, -, hOwn', hNext'⟩ := hq t hGrows ht input hMay.2
      exact ⟨hInv, hStep, ⟨hOwn, hOwn'⟩, ih _ hNext hNext'⟩

/-- An event that a promise has considered, answered by the store and leaving it
as promised. -/
structure Promise.Covers {Result : Type w} (p : Promise State Input Request Response Result)
    (store : Interface State Input Request Response) (event : Event State Input Request Response) :
    Prop where
  performed : event.Performed store
  own : p.own event (store.perform event.input event.before event.request).2
  may : ∃ log, p.may log event

/-- A promise covers all that a program has done by its end. -/
theorem Meets.recorded {Result : Type w} {p : Promise State Input Request Response Result}
    {program : Program Request Response Result} {log : List (Event State Input Request Response)}
    {s : State} (h : Meets store d p program log s) (hLog : ∀ event ∈ log, p.Covers store event) :
    Meets store d (p.ending fun result log t => p.post result log t ∧
      ∀ event ∈ log, p.Covers store event) program log s := by
  induction program generalizing log s with
  | done a => exact fun t hGrows ht => ⟨h t hGrows ht, hLog⟩
  | query request next ih =>
      intro t hGrows ht input hMay
      obtain ⟨hInv, hStep, hOwn, hNext⟩ := h t hGrows ht input hMay
      refine ⟨hInv, hStep, hOwn, ih _ hNext fun event hEvent => ?_⟩
      rcases List.mem_append.mp hEvent with hOld | hNew
      · exact hLog event hOld
      · rw [List.mem_singleton.mp hNew]
        exact ⟨rfl, hOwn, log, hMay⟩

/-- A request that only reads. -/
theorem Meets.read {Result : Type w} {p : Promise State Input Request Response Result}
    {request : Request} {next : Response request → Program Request Response Result}
    {log : List (Event State Input Request Response)} {s : State}
    (hOwn : ∀ input t, p.own ⟨t, input, request, (store.perform input t request).1⟩ t)
    (hRead : ∀ input t, (store.perform input t request).2 = t)
    (h : ∀ t, d.grows s t → d.inv t → ∀ input,
      p.may log ⟨t, input, request, (store.perform input t request).1⟩ →
      Meets store d p (next (store.perform input t request).1)
        (log ++ [⟨t, input, request, (store.perform input t request).1⟩]) t) :
    Meets store d p (.query request next) log s := by
  intro t hGrows ht input hMay
  have hSame := hRead input t
  have hNext := h t hGrows ht input hMay
  rw [hSame]
  exact ⟨ht, d.refl t, hOwn input t, hNext⟩

end

/-! Pools. -/

/-- A program in execution: the call it serves, what it did and what is left. -/
structure Thread (State : Type x) (Input : Type y) (Request : Type u) (Response : Request → Type v)
    (Call : Type z) (Result : Type w) where
  call : Call
  log : List (Event State Input Request Response)
  rest : Program Request Response Result

/-- A shared store and every program started on it, finished ones included. -/
structure Pool (State : Type x) (Input : Type y) (Request : Type u) (Response : Request → Type v)
    (Call : Type z) (Result : Type w) where
  store : State
  threads : List (Thread State Input Request Response Call Result)

namespace Pool

/-- One step of a schedule. -/
inductive Action (Input : Type y) (Call : Type z) where
  | start (call : Call)
  | advance (thread : Nat) (input : Input)

variable {Request : Type u} {Response : Request → Type v} {State : Type x} {Input : Type y}
  {Call : Type z} {Result : Type w} (store : Interface State Input Request Response)
  (program : Call → Program Request Response Result)

/-- Start a call, or let one thread put its next request. A thread that is done
or was never started leaves the pool alone. -/
def step (pool : Pool State Input Request Response Call Result) :
    Action Input Call → Pool State Input Request Response Call Result
  | .start call => { pool with threads := pool.threads ++ [⟨call, [], program call⟩] }
  | .advance i input =>
      match pool.threads[i]? with
      | some ⟨call, log, .query request next⟩ =>
          let answer := store.perform input pool.store request
          ⟨answer.2, pool.threads.set i
            ⟨call, log ++ [⟨pool.store, input, request, answer.1⟩], next answer.1⟩⟩
      | _ => pool

/-- Pools as a machine whose requests are steps of the schedule. -/
def machine : Machine (Pool State Input Request Response Call Result) (Action Input Call) Unit where
  step pool action := ((), pool.step store program action)

/-- What a family of promises, one for each thread, asks of a schedule step. -/
def Permits (allowed : Call → Prop)
    (promise : Nat → Call → Promise State Input Request Response Result)
    (pool : Pool State Input Request Response Call Result) : Action Input Call → Prop
  | .start call => allowed call
  | .advance i input => ∀ call log request next, pool.threads[i]? = some ⟨call, log, .query request next⟩ →
      (promise i call).may log
        ⟨pool.store, input, request, (store.perform input pool.store request).1⟩

/-- Every thread keeps its promise, and the store has grown since the start. -/
structure Sound (d : Discipline State)
    (promise : Nat → Call → Promise State Input Request Response Result) (origin : State)
    (pool : Pool State Input Request Response Call Result) : Prop where
  inv : d.inv pool.store
  grows : d.grows origin pool.store
  threads : ∀ i call log rest, pool.threads[i]? = some ⟨call, log, rest⟩ →
    Meets store d (promise i call) rest log pool.store

variable {store program} {d : Discipline State} {allowed : Call → Prop}
  {promise : Nat → Call → Promise State Input Request Response Result} {origin : State}
  {pool : Pool State Input Request Response Call Result}

/-- A thread's next request keeps the thread's promise. -/
theorem Sound.request {i : Nat} {input : Input} {call : Call}
    {log : List (Event State Input Request Response)} {request : Request}
    {next : Response request → Program Request Response Result}
    (h : Sound store d promise origin pool)
    (hPermits : Permits store allowed promise pool (.advance i input))
    (hThread : pool.threads[i]? = some ⟨call, log, .query request next⟩) :
    d.inv (store.perform input pool.store request).2 ∧
      d.grows pool.store (store.perform input pool.store request).2 ∧
      (promise i call).own ⟨pool.store, input, request, (store.perform input pool.store request).1⟩
        (store.perform input pool.store request).2 ∧
      Meets store d (promise i call) (next (store.perform input pool.store request).1)
        (log ++ [⟨pool.store, input, request, (store.perform input pool.store request).1⟩])
        (store.perform input pool.store request).2 :=
  h.threads i call log _ hThread pool.store (d.refl _) h.inv input
    (hPermits call log request next hThread)

/-- What one turn of a thread does to the store. -/
theorem Sound.own {i : Nat} {input : Input} {thread : Thread State Input Request Response Call Result}
    (program : Call → Program Request Response Result) (h : Sound store d promise origin pool)
    (hPermits : Permits store allowed promise pool (.advance i input))
    (hThread : pool.threads[i]? = some thread) :
    (pool.step store program (.advance i input)).store = pool.store ∨
      ∃ event, event.before = pool.store ∧
        (promise i thread.call).own event (pool.step store program (.advance i input)).store := by
  obtain ⟨call, log, rest⟩ := thread
  cases rest with
  | done result =>
      left
      simp only [Pool.step, hThread]
  | query request next =>
      right
      simp only [Pool.step, hThread]
      exact ⟨_, rfl, (h.request hPermits hThread).2.2.1⟩

theorem Sound.step
    (starts : ∀ i call s, allowed call → d.grows origin s → d.inv s →
      Meets store d (promise i call) (program call) [] s)
    (h : Sound store d promise origin pool) {action : Action Input Call}
    (hPermits : Permits store allowed promise pool action) :
    Sound store d promise origin (pool.step store program action) := by
  cases action with
  | start call =>
      refine ⟨h.inv, h.grows, fun i other log rest hThread => ?_⟩
      rcases Nat.lt_or_ge i pool.threads.length with hi | hi
      · exact h.threads i other log rest ((List.getElem?_append_left hi).symm.trans hThread)
      · have hLast := (List.getElem?_append_right hi).symm.trans hThread
        rw [List.getElem?_singleton] at hLast
        split at hLast
        · cases hLast
          exact starts i call _ hPermits h.grows h.inv
        · cases hLast
  | advance i input =>
      simp only [Pool.step]
      split
      · rename_i call log request next hThread
        obtain ⟨hInv, hGrows, -, hNext⟩ := h.request hPermits hThread
        refine ⟨hInv, d.trans h.grows hGrows, fun j other log' rest hOther => ?_⟩
        simp only [List.getElem?_set] at hOther
        split at hOther
        · rename_i hSame
          subst hSame
          split at hOther
          · cases hOther
            exact hNext
          · cases hOther
        · exact (h.threads j other log' rest hOther).later hGrows
      · exact h

/-- The result of a finished thread is as promised. -/
theorem Sound.finished (h : Sound store d promise origin pool) {i : Nat} {call : Call}
    {log : List (Event State Input Request Response)} {result : Result}
    (hThread : pool.threads[i]? = some ⟨call, log, .done result⟩) :
    (promise i call).post result log pool.store :=
  h.threads i call log _ hThread pool.store (d.refl _) h.inv

/-! Schedules that serve one thread only. -/

/-- A finished thread's turns change nothing. -/
theorem step_done (store : Interface State Input Request Response)
    (program : Call → Program Request Response Result) {i : Nat} {call : Call} {log : List (Event State Input Request Response)}
    {result : Result} (hThread : pool.threads[i]? = some ⟨call, log, .done result⟩) (input : Input) :
    pool.step store program (.advance i input) = pool := by
  simp only [Pool.step, hThread]

/-- So many turns of one thread. -/
def rounds (i : Nat) : Nat → (Nat → Input) → List (Action Input Call)
  | 0, _ => []
  | n + 1, inputs => .advance i (inputs 0) :: rounds i n fun k => inputs (k + 1)

/-- A thread that has the store to itself goes on as its program does alone. -/
theorem after_rounds {i : Nat} {call : Call} {log : List (Event State Input Request Response)}
    {rest : Program Request Response Result}
    (hThread : pool.threads[i]? = some ⟨call, log, rest⟩) (n : Nat) (inputs : Nat → Input) :
    ∃ log', (machine store program).after pool (rounds i n inputs) =
      ⟨(rest.turns store n inputs pool.store).2,
        pool.threads.set i ⟨call, log', (rest.turns store n inputs pool.store).1⟩⟩ := by
  induction n generalizing pool log rest inputs with
  | zero =>
      refine ⟨log, ?_⟩
      obtain ⟨hi, hSame⟩ := List.getElem?_eq_some_iff.mp hThread
      simp only [rounds, Machine.after_nil, turns, ← hSame, List.set_getElem_self]
  | succ n ih =>
      cases rest with
      | done result =>
          have hStep : pool.step store program (.advance i (inputs 0)) = pool :=
            step_done store program hThread _
          obtain ⟨log', hAfter⟩ := ih hThread fun k => inputs (k + 1)
          refine ⟨log', ?_⟩
          rw [rounds, Machine.after_cons]
          change (machine store program).after (pool.step store program (.advance i (inputs 0))) _ = _
          rw [hStep, hAfter]
          cases n <;> rfl
      | query request next =>
          have hStep : pool.step store program (.advance i (inputs 0)) =
              ⟨(store.perform (inputs 0) pool.store request).2, pool.threads.set i
                ⟨call, log ++ [⟨pool.store, inputs 0, request,
                  (store.perform (inputs 0) pool.store request).1⟩],
                  next (store.perform (inputs 0) pool.store request).1⟩⟩ := by
            simp only [Pool.step, hThread]
          obtain ⟨hi, -⟩ := List.getElem?_eq_some_iff.mp hThread
          obtain ⟨log', hAfter⟩ := @ih ⟨(store.perform (inputs 0) pool.store request).2,
            pool.threads.set i _⟩ _ _ (List.getElem?_set_self hi) fun k => inputs (k + 1)
          refine ⟨log', ?_⟩
          rw [rounds, Machine.after_cons]
          change (machine store program).after (pool.step store program (.advance i (inputs 0))) _ = _
          rw [hStep, hAfter, List.set_set]
          rfl

/-- A call can be started and served to its end before anyone else goes on. -/
theorem exists_served (store : Interface State Input Request Response)
    (program : Call → Program Request Response Result)
    (pool : Pool State Input Request Response Call Result) (call : Call) (inputs : Nat → Input) :
    ∃ actions log, (machine store program).after pool (.start call :: actions) =
      ⟨((program call).alone store inputs pool.store).2, pool.threads ++
        [⟨call, log, .done ((program call).alone store inputs pool.store).1⟩]⟩ := by
  obtain ⟨n, hTurns⟩ := (program call).exists_turns store inputs pool.store
  have hThread : (pool.step store program (.start call)).threads[pool.threads.length]? =
      some ⟨call, [], program call⟩ := by
    simp [Pool.step]
  obtain ⟨log, hAfter⟩ := @after_rounds _ _ _ _ _ _ store program _ _ _ _ _ hThread n inputs
  have hStore : (pool.step store program (.start call)).store = pool.store := rfl
  rw [hStore, hTurns] at hAfter
  refine ⟨rounds pool.threads.length n inputs, log, hAfter.trans ?_⟩
  change Pool.mk _ ((pool.threads ++ [_]).set pool.threads.length _) = _
  rw [List.set_append_right _ _ (Nat.le_refl _), Nat.sub_self]
  rfl

/-! Schedules without an end. -/

/-- The pool after the first steps of a schedule. -/
def along (store : Interface State Input Request Response)
    (program : Call → Program Request Response Result)
    (pool : Pool State Input Request Response Call Result) (schedule : Nat → Action Input Call) :
    Nat → Pool State Input Request Response Call Result
  | 0 => pool
  | n + 1 => (along store program pool schedule n).step store program (schedule n)

/-- A step that is not a thread's own leaves the thread alone. -/
theorem step_threads {i : Nat} {thread : Thread State Input Request Response Call Result}
    {action : Action Input Call} (hThread : pool.threads[i]? = some thread)
    (hOther : ∀ input, action ≠ .advance i input) :
    (pool.step store program action).threads[i]? = some thread := by
  cases action with
  | start call =>
      obtain ⟨hi, -⟩ := List.getElem?_eq_some_iff.mp hThread
      exact (List.getElem?_append_left hi).trans hThread
  | advance j input =>
      have hj : j ≠ i := fun hSame => hOther input (congrArg (Action.advance · input) hSame)
      simp only [Pool.step]
      split
      · exact (List.getElem?_set_ne hj).trans hThread
      · exact hThread

/-- A waiting thread's own step answers its request. -/
theorem step_own (store : Interface State Input Request Response)
    (program : Call → Program Request Response Result) {i : Nat} {call : Call} {log : List (Event State Input Request Response)}
    {request : Request} {next : Response request → Program Request Response Result}
    (hThread : pool.threads[i]? = some ⟨call, log, .query request next⟩) (input : Input) :
    (pool.step store program (.advance i input)).threads[i]? =
      some ⟨call, log ++ [⟨pool.store, input, request, (store.perform input pool.store request).1⟩],
        next (store.perform input pool.store request).1⟩ := by
  obtain ⟨hi, -⟩ := List.getElem?_eq_some_iff.mp hThread
  simp only [Pool.step, hThread]
  exact List.getElem?_set_self hi

/-- Threads are never lost, and each keeps its call. -/
theorem step_call {i : Nat} {call : Call}
    (h : ∃ log rest, pool.threads[i]? =
      some (⟨call, log, rest⟩ : Thread State Input Request Response Call Result))
    (action : Action Input Call) :
    ∃ log rest, (pool.step store program action).threads[i]? =
      some (⟨call, log, rest⟩ : Thread State Input Request Response Call Result) := by
  obtain ⟨log, rest, hThread⟩ := h
  by_cases hOwn : ∃ input, action = .advance i input
  · obtain ⟨input, rfl⟩ := hOwn
    cases rest with
    | done result => exact ⟨log, .done result, by rw [step_done store program hThread, hThread]⟩
    | query request next => exact ⟨_, _, step_own store program hThread input⟩
  · exact ⟨log, rest, step_threads hThread fun input hSame => hOwn ⟨input, hSame⟩⟩

/-- A thread that has the store to itself ends with the trace of its program, by
steps that meet a condition when each request of the trace does. -/
theorem exists_finished_conform {ok : Pool State Input Request Response Call Result →
      Action Input Call → Prop} {i : Nat} {call : Call}
    {log : List (Event State Input Request Response)} {rest : Program Request Response Result}
    (inputs : Nat → Input) (hThread : pool.threads[i]? = some ⟨call, log, rest⟩)
    (hOk : ∀ front event back other next,
      rest.trace store inputs pool.store = front ++ event :: back → event.before = other.store →
      other.threads[i]? = some ⟨call, log ++ front, .query event.request next⟩ →
      ok other (.advance i event.input)) :
    ∃ actions, (machine store program).Conform ok pool actions ∧
      (machine store program).after pool actions = ⟨(rest.alone store inputs pool.store).2,
        pool.threads.set i ⟨call, log ++ rest.trace store inputs pool.store,
          .done (rest.alone store inputs pool.store).1⟩⟩ := by
  induction rest generalizing pool log inputs with
  | done result =>
      refine ⟨[], trivial, ?_⟩
      obtain ⟨hi, hSame⟩ := List.getElem?_eq_some_iff.mp hThread
      simp only [Machine.after_nil, trace, alone, List.append_nil, ← hSame, List.set_getElem_self]
  | query request next ih =>
      have hStep : pool.step store program (.advance i (inputs 0)) =
          ⟨(store.perform (inputs 0) pool.store request).2, pool.threads.set i
            ⟨call, log ++ [⟨pool.store, inputs 0, request,
              (store.perform (inputs 0) pool.store request).1⟩],
              next (store.perform (inputs 0) pool.store request).1⟩⟩ := by
        simp only [step, hThread]
      have hFirst := hOk [] _ _ pool next rfl rfl (by rw [List.append_nil]; exact hThread)
      have hLater := step_own store program hThread (inputs 0)
      rw [hStep] at hLater
      obtain ⟨actions, hConform, hAfter⟩ := ih _ (fun n => inputs (n + 1)) hLater
        fun front event back other next' hTrace hStore hOther => by
          refine hOk (_ :: front) event back other next' (congrArg (_ :: ·) hTrace) hStore ?_
          rw [List.append_cons]
          exact hOther
      refine ⟨.advance i (inputs 0) :: actions, ⟨hFirst, ?_⟩, ?_⟩
      · change (machine store program).Conform ok
          (pool.step store program (.advance i (inputs 0))) actions
        rw [hStep]
        exact hConform
      · rw [Machine.after_cons]
        change (machine store program).after (pool.step store program (.advance i (inputs 0))) _ = _
        rw [hStep, hAfter, List.set_set, List.append_assoc]
        rfl

/-- The same from the start of a call. -/
theorem exists_served_conform {ok : Pool State Input Request Response Call Result →
      Action Input Call → Prop} (pool : Pool State Input Request Response Call Result) (call : Call)
    (inputs : Nat → Input) (hStart : ok pool (.start call))
    (hOk : ∀ front event back other next,
      (program call).trace store inputs pool.store = front ++ event :: back →
      event.before = other.store →
      other.threads[pool.threads.length]? = some ⟨call, front, .query event.request next⟩ →
      ok other (.advance pool.threads.length event.input)) :
    ∃ actions, (machine store program).Conform ok pool (.start call :: actions) ∧
      (machine store program).after pool (.start call :: actions) =
        ⟨((program call).alone store inputs pool.store).2, pool.threads ++
          [⟨call, (program call).trace store inputs pool.store,
            .done ((program call).alone store inputs pool.store).1⟩]⟩ := by
  have hThread : (pool.step store program (.start call)).threads[pool.threads.length]? =
      some ⟨call, [], program call⟩ := by
    simp [step]
  obtain ⟨actions, hConform, hAfter⟩ :=
    @exists_finished_conform _ _ _ _ _ _ store program _ ok _ _ _ _ inputs hThread hOk
  refine ⟨actions, ⟨hStart, hConform⟩, hAfter.trans ?_⟩
  change Pool.mk _ ((pool.threads ++ [_]).set pool.threads.length _) = _
  rw [List.set_append_right _ _ (Nat.le_refl _), Nat.sub_self]
  rfl

/-- Some thread has served a call and executed a request for it. -/
def Logs (pool : Pool State Input Request Response Call Result) (call : Call)
    (event : Event State Input Request Response) : Prop :=
  ∃ (j : Nat) (log : _) (rest : _), pool.threads[j]? =
    some (⟨call, log, rest⟩ : Thread State Input Request Response Call Result) ∧ event ∈ log

/-- A new thread has executed nothing. -/
theorem logs_start {call started : Call} {event : Event State Input Request Response} :
    (pool.step store program (.start started)).Logs call event ↔ pool.Logs call event := by
  constructor
  · rintro ⟨j, log, rest, hThread, hEvent⟩
    rcases Nat.lt_or_ge j pool.threads.length with hj | hj
    · exact ⟨j, log, rest, (List.getElem?_append_left hj).symm.trans hThread, hEvent⟩
    · have hLast := (List.getElem?_append_right hj).symm.trans hThread
      rw [List.getElem?_singleton] at hLast
      split at hLast
      · cases hLast
        exact absurd hEvent List.not_mem_nil
      · cases hLast
  · rintro ⟨j, log, rest, hThread, hEvent⟩
    exact ⟨j, log, rest, step_threads hThread (fun _ hNever => by cases hNever), hEvent⟩

/-- A waiting thread's step adds one request to what was executed. -/
theorem logs_advance {i : Nat} {call served : Call} {log : List (Event State Input Request Response)}
    {request : Request} {next : Response request → Program Request Response Result} {input : Input}
    {event : Event State Input Request Response}
    (hThread : pool.threads[i]? = some ⟨served, log, .query request next⟩) :
    (pool.step store program (.advance i input)).Logs call event ↔ pool.Logs call event ∨
      call = served ∧
        event = ⟨pool.store, input, request, (store.perform input pool.store request).1⟩ := by
  have hOwn := step_own store program hThread input
  constructor
  · rintro ⟨j, log', rest, hj, hEvent⟩
    by_cases hi : i = j
    · subst hi
      cases hOwn.symm.trans hj
      rcases List.mem_append.mp hEvent with hOld | hNew
      · exact .inl ⟨i, log, _, hThread, hOld⟩
      · exact .inr ⟨rfl, List.mem_singleton.mp hNew⟩
    · simp only [Pool.step, hThread] at hj
      rw [List.getElem?_set_ne hi] at hj
      exact .inl ⟨j, log', rest, hj, hEvent⟩
  · rintro (⟨j, log', rest, hj, hEvent⟩ | ⟨rfl, rfl⟩)
    · by_cases hi : i = j
      · subst hi
        cases hThread.symm.trans hj
        exact ⟨i, _, _, hOwn, List.mem_append_left _ hEvent⟩
      · refine ⟨j, log', rest, step_threads hj (fun other hSame => ?_), hEvent⟩
        cases hSame
        exact hi rfl
    · exact ⟨i, _, _, hOwn, List.mem_append_right _ (List.mem_singleton_self _)⟩

/-- What a thread has executed, it executed in a turn of its own. -/
theorem exists_turn {i : Nat} {call : Call} {earlier later : List (Event State Input Request Response)}
    {event : Event State Input Request Response} {rest : Program Request Response Result}
    {actions : List (Action Input Call)} (hNew : pool.threads[i]? = none)
    (h : ((machine store program).after pool actions).threads[i]? =
      some ⟨call, earlier ++ event :: later, rest⟩) :
    ∃ front back next, actions = front ++ .advance i event.input :: back ∧
      event.before = ((machine store program).after pool front).store ∧ event.Performed store ∧
      ((machine store program).after pool front).threads[i]? =
        some ⟨call, earlier, .query event.request next⟩ := by
  induction actions using List.reverseRecOn generalizing later rest with
  | nil => exact absurd (hNew.symm.trans h) (by simp)
  | append_singleton actions action ih =>
      rw [Machine.after_append] at h
      generalize hPool : (machine store program).after pool actions = reached at h ih
      change (reached.step store program action).threads[i]? = _ at h
      suffices hDone : (∃ later rest, reached.threads[i]? =
            some ⟨call, earlier ++ event :: later, rest⟩) ∨
          action = .advance i event.input ∧ event.before = reached.store ∧ event.Performed store ∧
            ∃ next, reached.threads[i]? = some ⟨call, earlier, .query event.request next⟩ by
        rcases hDone with ⟨later, rest, hThread⟩ | ⟨rfl, hStore, hAnswer, next, hThread⟩
        · obtain ⟨front, back, next, rfl, hTurn⟩ := ih hThread
          exact ⟨front, back ++ [action], next, by simp, hTurn⟩
        · exact ⟨actions, [], next, rfl, hPool ▸ hStore, hAnswer, hPool ▸ hThread⟩
      by_cases hOwn : ∃ input, action = .advance i input
      · obtain ⟨input, rfl⟩ := hOwn
        cases hThread : reached.threads[i]? with
        | none => exact absurd h (by simp [step, hThread])
        | some thread =>
            obtain ⟨served, log, waiting⟩ := thread
            cases waiting with
            | done result =>
                rw [step_done store program hThread, hThread, Option.some.injEq] at h
                exact .inl ⟨later, rest, congrArg some h⟩
            | query request next =>
                rw [step_own store program hThread] at h
                obtain ⟨rfl, hLog, -⟩ := Thread.mk.inj (Option.some.inj h)
                rcases List.eq_nil_or_concat later with rfl | ⟨front, last, rfl⟩
                · obtain ⟨rfl, hEvent⟩ := List.append_inj' hLog rfl
                  cases hEvent
                  exact .inr ⟨rfl, rfl, rfl, next, rfl⟩
                · rw [List.concat_eq_append, ← List.cons_append, ← List.append_assoc] at hLog
                  obtain ⟨rfl, -⟩ := List.append_inj' hLog rfl
                  exact .inl ⟨front, _, rfl⟩
      · have hOther : ∀ input, action ≠ .advance i input := fun input hSame => hOwn ⟨input, hSame⟩
        cases hThread : reached.threads[i]? with
        | some thread =>
            rw [step_threads hThread hOther, Option.some.injEq] at h
            exact .inl ⟨later, rest, congrArg some h⟩
        | none =>
            -- A thread that is not there yet starts with nothing executed.
            cases action with
            | start started =>
                have hLength := List.getElem?_eq_none_iff.mp hThread
                have hLast := (List.getElem?_append_right hLength).symm.trans h
                rw [List.getElem?_singleton] at hLast
                split at hLast
                · obtain ⟨-, hLog, -⟩ := Thread.mk.inj (Option.some.inj hLast)
                  exact absurd (congrArg List.length hLog) (by simp)
                · cases hLast
            | advance j input =>
                simp only [step] at h
                split at h
                · rename_i hj
                  rw [List.getElem?_set_ne (fun hSame => hOther input (by rw [hSame])), hThread] at h
                  cases h
                · exact absurd (hThread.symm.trans h) (by simp)

end Pool
