import Mathlib.Logic.Function.Basic
import WordArena.Library.Fallible

/-! Racing submissions of one and the same request. Every submission looks the request
up and, when it is absent, commits it in a transaction of its own. The lookup and the
transaction are separate steps, so the submissions can run in any order. -/

universe u v w x

/-- What the submissions do: a check that asks nothing of the store, a lookup, and a
transaction. -/
structure Submission (ι : Type u) (σ : Type v) (α : Type w) (ε : Type x) where
  prepare : ι → Except ε Unit
  lookup : σ → Except ε (Option α)
  commit : ι → σ → Except ε (α × σ)

namespace Submission

variable {ι : Type u} {σ : Type v} {α : Type w} {ε : Type x}

inductive Answer (α : Type w) where
  | applied (value : α)
  | repeated (value : α)

/-- How far a submission has come. -/
inductive Phase (α : Type w) (ε : Type x) where
  | waiting
  | absent
  | answered (result : Except ε (Answer α))

/-- The store, and every submission that uses it. -/
structure World (ι : Type u) (σ : Type v) (α : Type w) (ε : Type x) where
  store : σ
  phase : ι → Phase α ε

variable [DecidableEq ι]

def World.moved (w : World ι σ α ε) (i : ι) (next : Phase α ε) : World ι σ α ε :=
  { w with phase := Function.update w.phase i next }

/-- The next step of one submission. -/
def step (p : Submission ι σ α ε) (w : World ι σ α ε) (i : ι) : World ι σ α ε :=
  match w.phase i with
  | .waiting =>
      match p.prepare i, p.lookup w.store with
      | .ok _, .ok (some a) => w.moved i (.answered (.ok (.repeated a)))
      | .ok _, .ok none => w.moved i .absent
      | .ok _, .error e => w.moved i (.answered (.error e))
      | .error e, _ => w.moved i (.answered (.error e))
  | .absent =>
      match p.commit i w.store with
      | .ok (a, t) => { w.moved i (.answered (.ok (.applied a))) with store := t }
      | .error e => w.moved i (.answered (.error e))
  | .answered _ => w

/-- The submissions in the order of a schedule, none of them started before. -/
def run (p : Submission ι σ α ε) (s : σ) (schedule : List ι) : World ι σ α ε :=
  schedule.foldl p.step ⟨s, fun _ => .waiting⟩

/-- Every submission has its answer. -/
def World.Settled (w : World ι σ α ε) : Prop := ∀ i, ∃ result, w.phase i = .answered result

/-- One submission was applied, and every other one was told what it stored. -/
def World.Idempotent (w : World ι σ α ε) : Prop :=
  ∃ first a, w.phase first = .answered (.ok (.applied a)) ∧
    ∀ i, i ≠ first → w.phase i = .answered (.ok (.repeated a))

/-- What a store does with a request that was committed: it is found from then on, and
refused when it is committed again. -/
structure Lawful (p : Submission ι σ α ε) (s : σ) : Prop where
  found : ∀ i a t, p.prepare i = .ok () → p.commit i s = .ok (a, t) → p.lookup t = .ok (some a)
  refused : ∀ i a t, p.commit i s = .ok (a, t) → ∀ j, ∃ e, p.commit j t = .error e

variable {p : Submission ι σ α ε} {w : World ι σ α ε} {s : σ} {i j : ι}

section Steps

theorem World.moved_same (next : Phase α ε) : (w.moved i next).phase i = next :=
  Function.update_self ..

theorem World.moved_other {next : Phase α ε} (h : j ≠ i) : (w.moved i next).phase j = w.phase j :=
  Function.update_of_ne h ..

/-- A step leaves every other submission alone. -/
theorem phase_step_other (h : j ≠ i) : (p.step w i).phase j = w.phase j := by
  unfold step
  split
  · split <;> exact World.moved_other h
  · split
    · exact World.moved_other (w := w) h
    · exact World.moved_other h
  · rfl

theorem step_answered {result : Except ε (Answer α)} (h : w.phase i = .answered result) :
    p.step w i = w := by
  rw [step, h]

/-- An answer is final. -/
theorem phase_step_answered {result : Except ε (Answer α)} (h : w.phase j = .answered result) :
    (p.step w i).phase j = .answered result := by
  by_cases hSame : j = i
  · subst hSame
    rw [step_answered h, h]
  · rw [phase_step_other hSame, h]

theorem step_missing (h : w.phase i = .waiting) (hPrepare : p.prepare i = .ok ())
    (hLookup : p.lookup w.store = .ok none) : p.step w i = w.moved i .absent := by
  rw [step, h]
  simp only [hPrepare, hLookup]

theorem step_repeated {a : α} (h : w.phase i = .waiting) (hPrepare : p.prepare i = .ok ())
    (hLookup : p.lookup w.store = .ok (some a)) :
    p.step w i = w.moved i (.answered (.ok (.repeated a))) := by
  rw [step, h]
  simp only [hPrepare, hLookup]

theorem step_applied {a : α} {t : σ} (h : w.phase i = .absent)
    (hCommit : p.commit i w.store = .ok (a, t)) :
    p.step w i = { w.moved i (.answered (.ok (.applied a))) with store := t } := by
  rw [step, h]
  simp only [hCommit]

theorem step_refused {e : ε} (h : w.phase i = .absent) (hCommit : p.commit i w.store = .error e) :
    p.step w i = w.moved i (.answered (.error e)) := by
  rw [step, h]
  simp only [hCommit]

/-- A lookup does not change the store. -/
theorem store_step_waiting (h : w.phase i = .waiting) : (p.step w i).store = w.store := by
  rw [step, h]
  dsimp only
  split <;> rfl

/-- An unprepared submission is answered with its error. -/
theorem step_unprepared {e : ε} (h : w.phase i = .waiting) (hPrepare : p.prepare i = .error e) :
    p.step w i = w.moved i (.answered (.error e)) := by
  rw [step, h]
  simp only [hPrepare]

/-- Carry a property of worlds through a schedule. -/
theorem run_invariant (inv : World ι σ α ε → Prop) (hStep : ∀ w i, inv w → inv (p.step w i))
    (h : inv w) (schedule : List ι) : inv (schedule.foldl p.step w) := by
  induction schedule generalizing w with
  | nil => exact h
  | cons i schedule ih => exact ih (hStep w i h)

/-- How many steps a submission still needs. -/
def Phase.left : Phase α ε → Nat
  | .waiting => 2
  | .absent => 1
  | .answered _ => 0

theorem left_step_self (w : World ι σ α ε) (i : ι) :
    ((p.step w i).phase i).left ≤ (w.phase i).left - 1 := by
  cases hPhase : w.phase i with
  | waiting =>
      rw [step, hPhase]
      dsimp only
      split <;> simp only [World.moved_same, Phase.left] <;> omega
  | absent =>
      rw [step, hPhase]
      dsimp only
      split
      · exact Nat.le_of_eq (congrArg Phase.left (World.moved_same (w := w) _))
      · exact Nat.le_of_eq (congrArg Phase.left (World.moved_same _))
  | answered result =>
      rw [step_answered hPhase, hPhase]
      exact Nat.le_refl _

/-- Submissions that are given their two steps are answered. -/
theorem settled_of_count {schedule : List ι} (h : ∀ i, 2 ≤ schedule.count i) :
    (p.run s schedule).Settled := by
  have hLeft : ∀ (schedule : List ι) (w : World ι σ α ε) (i : ι),
      (w.phase i).left ≤ schedule.count i → ((schedule.foldl p.step w).phase i).left = 0 := by
    intro schedule
    induction schedule with
    | nil =>
        intro w i hCount
        simpa using hCount
    | cons j schedule ih =>
        intro w i hCount
        refine ih (p.step w j) i ?_
        by_cases hSame : i = j
        · subst hSame
          have hStep := left_step_self (p := p) w i
          rw [List.count_cons_self] at hCount
          omega
        · rw [phase_step_other hSame]
          rwa [List.count_cons_of_ne fun hEq => hSame hEq.symm] at hCount
  intro i
  have hDone := hLeft schedule ⟨s, fun _ => .waiting⟩ i (h i)
  rw [run]
  cases hPhase : (schedule.foldl p.step ⟨s, fun _ => .waiting⟩).phase i with
  | waiting =>
      rw [hPhase] at hDone
      cases hDone
  | absent =>
      rw [hPhase] at hDone
      cases hDone
  | answered result => exact ⟨result, rfl⟩

end Steps

section Failures

/-- Some submission was answered with an error. -/
def World.Faulty (w : World ι σ α ε) : Prop := ∃ i e, w.phase i = .answered (.error e)

theorem World.Faulty.step (h : w.Faulty) (i : ι) : (p.step w i).Faulty := by
  obtain ⟨k, e, hAnswer⟩ := h
  exact ⟨k, e, phase_step_answered hAnswer⟩

theorem World.Idempotent.not_faulty (h : w.Idempotent) : ¬ w.Faulty := by
  rintro ⟨i, e, hError⟩
  obtain ⟨first, a, hFirst, hOthers⟩ := h
  by_cases hSame : i = first
  · rw [hSame, hFirst] at hError
    cases hError
  · rw [hOthers i hSame] at hError
    cases hError

/-- Every submission of an idempotent run passes its own check. -/
theorem World.Idempotent.prepared {schedule : List ι}
    (h : (p.run s schedule).Idempotent) (hSettled : (p.run s schedule).Settled) (i : ι) :
    p.prepare i = .ok () := by
  cases hPrepare : p.prepare i with
  | ok u => rfl
  | error e =>
      exfalso
      have hPhase : (p.run s schedule).phase i = .waiting ∨
          (p.run s schedule).phase i = .answered (.error e) := by
        refine run_invariant (fun w => w.phase i = .waiting ∨
          w.phase i = .answered (.error e)) ?_ (.inl rfl) schedule
        intro w j hPhase
        by_cases hSame : i = j
        · subst hSame
          rcases hPhase with hWaiting | hAnswer
          · rw [step_unprepared hWaiting hPrepare]
            exact .inr (World.moved_same _)
          · exact .inr (phase_step_answered hAnswer)
        · rw [phase_step_other hSame]
          exact hPhase
      rcases hPhase with hWaiting | hAnswer
      · obtain ⟨result, hResult⟩ := hSettled i
        rw [hWaiting] at hResult
        cases hResult
      · exact h.not_faulty ⟨i, e, hAnswer⟩

/-- A request that is not absent at the start is never applied. -/
theorem not_idempotent_of_lookup {schedule : List ι} (hLookup : p.lookup s ≠ .ok none) :
    ¬ (p.run s schedule).Idempotent := by
  have hQuiet : (p.run s schedule).store = s ∧ ∀ i, (p.run s schedule).phase i = .waiting ∨
      ∃ result, (p.run s schedule).phase i = .answered result ∧ ∀ a, result ≠ .ok (.applied a) := by
    refine run_invariant (fun w => w.store = s ∧ ∀ i, w.phase i = .waiting ∨
      ∃ result, w.phase i = .answered result ∧ ∀ a, result ≠ .ok (.applied a)) ?_
      ⟨rfl, fun _ => .inl rfl⟩ schedule
    rintro w i ⟨hStore, hPhases⟩
    rcases hPhases i with hWaiting | ⟨result, hAnswer, -⟩
    · refine ⟨(store_step_waiting hWaiting).trans hStore, fun j => ?_⟩
      by_cases hSame : j = i
      · subst hSame
        right
        rw [step, hWaiting]
        dsimp only
        split
        · exact ⟨_, World.moved_same _, nofun⟩
        · rename_i hNone
          rw [hStore] at hNone
          exact absurd hNone hLookup
        · exact ⟨_, World.moved_same _, nofun⟩
        · exact ⟨_, World.moved_same _, nofun⟩
      · rw [phase_step_other hSame]
        exact hPhases j
    · rw [step_answered hAnswer]
      exact ⟨hStore, hPhases⟩
  rintro ⟨first, a, hFirst, -⟩
  rcases hQuiet.2 first with hWaiting | ⟨result, hAnswer, hNot⟩
  · rw [hWaiting] at hFirst
    cases hFirst
  · rw [hAnswer, Phase.answered.injEq] at hFirst
    exact hNot a hFirst

/-- A world in which a submission will be refused: two of them found nothing before the
first transaction, or one of them has not noticed it. -/
def World.Doomed (p : Submission ι σ α ε) (s : σ) (w : World ι σ α ε) : Prop :=
  (w.store = s ∧ ∃ i j, i ≠ j ∧ w.phase i = .absent ∧ w.phase j = .absent) ∨
    ((∃ i a, p.commit i s = .ok (a, w.store)) ∧ ∃ j, w.phase j = .absent) ∨ w.Faulty

omit [DecidableEq ι] in
theorem ne_of_phase {next : Phase α ε} (hi : w.phase i = next) (hj : w.phase j ≠ next) : i ≠ j := by
  rintro rfl
  exact hj hi

theorem World.Doomed.step (hLawful : p.Lawful s) (h : w.Doomed p s) (k : ι) :
    (p.step w k).Doomed p s := by
  rcases h with ⟨hStore, i, j, hNe, hi, hj⟩ | ⟨⟨i, a, hCommit⟩, j, hj⟩ | hFaulty
  · cases hk : w.phase k with
    | waiting =>
        have hWaiting : w.phase k ≠ .absent := by
          rw [hk]
          nofun
        refine .inl ⟨(store_step_waiting hk).trans hStore, i, j, hNe, ?_, ?_⟩
        · rw [phase_step_other (ne_of_phase hi hWaiting), hi]
        · rw [phase_step_other (ne_of_phase hj hWaiting), hj]
    | absent =>
        cases hCommit : p.commit k w.store with
        | ok pair =>
            -- whoever commits, another one is still absent
            rw [step_applied (t := pair.2) (a := pair.1) hk hCommit]
            refine .inr (.inl ⟨⟨k, pair.1, hStore ▸ hCommit⟩, ?_⟩)
            by_cases hSame : i = k
            · subst hSame
              exact ⟨j, (World.moved_other (w := w) hNe.symm).trans hj⟩
            · exact ⟨i, (World.moved_other (w := w) hSame).trans hi⟩
        | error e =>
            rw [step_refused hk hCommit]
            exact .inr (.inr ⟨k, e, World.moved_same _⟩)
    | answered result =>
        rw [step_answered hk]
        exact .inl ⟨hStore, i, j, hNe, hi, hj⟩
  · cases hk : w.phase k with
    | waiting =>
        have hWaiting : w.phase k ≠ .absent := by
          rw [hk]
          nofun
        refine .inr (.inl ⟨⟨i, a, (store_step_waiting hk).symm ▸ hCommit⟩, j, ?_⟩)
        rw [phase_step_other (ne_of_phase hj hWaiting), hj]
    | absent =>
        obtain ⟨e, hRefused⟩ := hLawful.refused i a w.store hCommit k
        rw [step_refused hk hRefused]
        exact .inr (.inr ⟨k, e, World.moved_same _⟩)
    | answered result =>
        rw [step_answered hk]
        exact .inr (.inl ⟨⟨i, a, hCommit⟩, j, hj⟩)
  · exact .inr (.inr (hFaulty.step k))

theorem World.Doomed.not_idempotent (h : w.Doomed p s) (hSettled : w.Settled) :
    ¬ w.Idempotent := by
  have hAbsent : ∀ {i}, w.phase i ≠ .absent := by
    intro i hPhase
    obtain ⟨result, hResult⟩ := hSettled i
    rw [hPhase] at hResult
    cases hResult
  rcases h with ⟨-, i, -, -, hi, -⟩ | ⟨-, j, hj⟩ | hFaulty
  · exact absurd hi hAbsent
  · exact absurd hj hAbsent
  · exact fun hGood => hGood.not_faulty hFaulty

end Failures

section Success

/-- A world after the first transaction, before which nobody else looked. -/
def World.Won (w : World ι σ α ε) (first : ι) (a : α) (t : σ) : Prop :=
  w.store = t ∧ w.phase first = .answered (.ok (.applied a)) ∧
    ∀ i, i ≠ first → w.phase i = .waiting ∨ w.phase i = .answered (.ok (.repeated a))

theorem World.Won.step {first : ι} {a : α} {t : σ} (h : w.Won first a t)
    (hPrepare : ∀ i, p.prepare i = .ok ()) (hLookup : p.lookup t = .ok (some a)) (k : ι) :
    (p.step w k).Won first a t := by
  obtain ⟨hStore, hFirst, hOthers⟩ := h
  by_cases hk : k = first
  · subst hk
    rw [step_answered hFirst]
    exact ⟨hStore, hFirst, hOthers⟩
  · rcases hOthers k hk with hWaiting | hAnswer
    · rw [step_repeated hWaiting (hPrepare k) (hStore ▸ hLookup)]
      refine ⟨hStore, (World.moved_other fun hSame => hk hSame.symm).trans hFirst, fun i hi => ?_⟩
      by_cases hSame : i = k
      · subst hSame
        exact .inr (World.moved_same _)
      · rw [World.moved_other hSame]
        exact hOthers i hi
    · rw [step_answered hAnswer]
      exact ⟨hStore, hFirst, hOthers⟩

omit [DecidableEq ι] in
theorem World.Won.idempotent {first : ι} {a : α} {t : σ} (h : w.Won first a t)
    (hSettled : w.Settled) : w.Idempotent := by
  refine ⟨first, a, h.2.1, fun i hi => ?_⟩
  rcases h.2.2 i hi with hWaiting | hAnswer
  · obtain ⟨result, hResult⟩ := hSettled i
    rw [hWaiting] at hResult
    cases hResult
  · exact hAnswer

end Success

/-- Racing submissions are idempotent exactly when all of them are sound, the request is
new and can be committed, and whoever looks first commits before anyone else looks. -/
theorem idempotent_iff [Nonempty ι] (hLawful : p.Lawful s) {schedule : List ι}
    (hSettled : (p.run s schedule).Settled) :
    (p.run s schedule).Idempotent ↔
      (∀ i, p.prepare i = .ok ()) ∧ p.lookup s = .ok none ∧
      ∃ first rest, schedule = first :: first :: rest ∧ ∃ a t, p.commit first s = .ok (a, t) := by
  constructor
  · intro h
    have hPrepare := h.prepared hSettled
    have hLookup : p.lookup s = .ok none := not_not.mp fun hNot => not_idempotent_of_lookup hNot h
    refine ⟨hPrepare, hLookup, ?_⟩
    cases schedule with
    | nil =>
        obtain ⟨result, hResult⟩ := hSettled (Classical.arbitrary ι)
        cases hResult
    | cons i schedule =>
        have hFirst : p.step ⟨s, fun _ => .waiting⟩ i =
            World.moved ⟨s, fun _ => .waiting⟩ i .absent := step_missing rfl (hPrepare i) hLookup
        have hAbsent : (p.step ⟨s, fun _ => .waiting⟩ i).phase i = .absent := by
          rw [hFirst]
          exact World.moved_same _
        have hStore : (p.step ⟨s, fun _ => .waiting⟩ i).store = s := store_step_waiting rfl
        cases schedule with
        | nil =>
            obtain ⟨result, hResult⟩ := hSettled i
            cases hAbsent.symm.trans hResult
        | cons j schedule =>
            by_cases hSame : j = i
            · subst hSame
              refine ⟨j, schedule, rfl, ?_⟩
              cases hCommit : p.commit j s with
              | ok pair => exact ⟨pair.1, pair.2, rfl⟩
              | error e =>
                  have hFaulty : (p.step (p.step ⟨s, fun _ => .waiting⟩ j) j).Faulty := by
                    rw [step_refused hAbsent (hStore ▸ hCommit)]
                    exact ⟨j, e, World.moved_same _⟩
                  have hEnd : (p.run s (j :: j :: schedule)).Faulty :=
                    run_invariant World.Faulty (fun w k hw => hw.step k) hFaulty schedule
                  exact absurd hEnd h.not_faulty
            · have hWaiting : (p.step ⟨s, fun _ => .waiting⟩ i).phase j = .waiting :=
                phase_step_other hSame
              have hDoomed : (p.step (p.step ⟨s, fun _ => .waiting⟩ i) j).Doomed p s := by
                refine .inl ⟨(store_step_waiting hWaiting).trans hStore, i, j,
                  fun hEq => hSame hEq.symm, ?_, ?_⟩
                · rw [phase_step_other fun hEq => hSame hEq.symm, hAbsent]
                · have hNothing : p.lookup (p.step ⟨s, fun _ => .waiting⟩ i).store = .ok none := by
                    rw [hStore]
                    exact hLookup
                  rw [step_missing hWaiting (hPrepare j) hNothing]
                  exact World.moved_same _
              have hEnd : (p.run s (i :: j :: schedule)).Doomed p s :=
                run_invariant (World.Doomed p s) (fun w k hw => hw.step hLawful k) hDoomed schedule
              exact absurd h (hEnd.not_idempotent hSettled)
  · rintro ⟨hPrepare, hLookup, first, rest, rfl, a, t, hCommit⟩
    have hFirst : p.step ⟨s, fun _ => .waiting⟩ first =
        World.moved ⟨s, fun _ => .waiting⟩ first .absent :=
      step_missing rfl (hPrepare first) hLookup
    have hAbsent : (p.step ⟨s, fun _ => .waiting⟩ first).phase first = .absent := by
      rw [hFirst]
      exact World.moved_same _
    have hStore : (p.step ⟨s, fun _ => .waiting⟩ first).store = s := store_step_waiting rfl
    have hWon : (p.step (p.step ⟨s, fun _ => .waiting⟩ first) first).Won first a t := by
      rw [step_applied hAbsent (hStore.symm ▸ hCommit)]
      refine ⟨rfl, World.moved_same _, fun i hi => .inl ?_⟩
      exact (World.moved_other (w := p.step ⟨s, fun _ => .waiting⟩ first) hi).trans
        (phase_step_other hi)
    have hFound := hLawful.found first a t (hPrepare first) hCommit
    have hEnd : (p.run s (first :: first :: rest)).Won first a t :=
      run_invariant (World.Won · first a t) (fun w k hw => hw.step hPrepare hFound k) hWon rest
    exact hEnd.idempotent hSettled

end Submission
