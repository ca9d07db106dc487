import Mathlib.Algebra.BigOperators.Group.List.Basic
import Mathlib.Algebra.GroupWithZero.Nat
import Mathlib.Data.List.Induction
import Std.Data.ExtTreeMap.Lemmas
import WordArena.Library.Fallible

/-! Totals over items that may arrive more than once. A collector keeps one item under
each key, ignores an exact repetition and refuses a changed one, so that what it holds
depends only on the set of its items; a tally adds counts up under their keys. -/
namespace Tally

open Fallible

section Collected

variable {ε κ ι : Type} [Ord κ] [Std.TransOrd κ] {key : ι → κ} {ok keep : ι → Prop}

/-- The map holds exactly the kept items, each under its own key. In particular, no two
of them share a key. -/
def Collected (key : ι → κ) (keep : ι → Prop) (xs : List ι) (m : Std.ExtTreeMap κ ι) : Prop :=
  ∀ k x, m[k]? = some x ↔ x ∈ xs ∧ keep x ∧ key x = k

/-- One turn of a collector: nothing happens to an item that is not kept or is there
already, and any other item needs a free key. -/
def Collects (key : ι → κ) (keep : ι → Prop) (m : Std.ExtTreeMap κ ι) (x : ι)
    (next : Std.ExtTreeMap κ ι) : Prop :=
  (¬ keep x ∧ next = m) ∨ (keep x ∧ m[key x]? = some x ∧ next = m) ∨
    (keep x ∧ m[key x]? = none ∧ next = m.insert (key x) x)

theorem Collected.congr {xs ys : List ι} {m : Std.ExtTreeMap κ ι} (h : ∀ x, x ∈ xs ↔ x ∈ ys) :
    Collected key keep xs m ↔ Collected key keep ys m := by
  simp only [Collected, h]

/-- An item that changes nothing leaves the collection as it is. -/
theorem Collected.absorb {xs : List ι} {x : ι} {m : Std.ExtTreeMap κ ι}
    (h : keep x → x ∈ xs) : Collected key keep (xs ++ [x]) m ↔ Collected key keep xs m := by
  apply forall₂_congr
  intro k y
  simp only [List.mem_append, List.mem_singleton]
  grind

variable [Std.LawfulEqOrd κ]

theorem Collected.unique {xs : List ι} {m n : Std.ExtTreeMap κ ι} (hm : Collected key keep xs m)
    (hn : Collected key keep xs n) : m = n := by
  apply Std.ExtTreeMap.ext_getElem?
  intro k
  apply Option.ext
  intro x
  rw [hm k x, hn k x]

theorem Collected.insert {xs : List ι} {x : ι} {m : Std.ExtTreeMap κ ι}
    (h : Collected key keep xs m) (hKeep : keep x) (hFree : m[key x]? = none) :
    Collected key keep (xs ++ [x]) (m.insert (key x) x) := by
  intro k y
  have hOthers := h k y
  rw [Std.ExtTreeMap.getElem?_insert, List.mem_append, List.mem_singleton]
  by_cases hKey : key x = k
  · subst hKey
    rw [if_pos Std.ReflCmp.compare_self, Option.some.injEq]
    rw [hFree] at hOthers
    grind
  · rw [if_neg (by simpa using hKey), hOthers]
    grind

/-- What a collector held before it took a new item in. -/
theorem Collected.erase {xs : List ι} {x : ι} {m : Std.ExtTreeMap κ ι}
    (h : Collected key keep (xs ++ [x]) m) (hNew : x ∉ xs) (hKeep : keep x) :
    Collected key keep xs (m.erase (key x)) := by
  have hHeld : m[key x]? = some x := (h (key x) x).mpr ⟨by simp, hKeep, rfl⟩
  intro k y
  have hOthers := h k y
  rw [Std.ExtTreeMap.getElem?_erase]
  rw [List.mem_append, List.mem_singleton] at hOthers
  by_cases hKey : key x = k
  · subst hKey
    rw [if_pos Std.ReflCmp.compare_self]
    rw [hHeld, Option.some.injEq] at hOthers
    grind
  · rw [if_neg (by simpa using hKey), hOthers]
    grind

/-- A collector succeeds exactly when every item passes and the kept ones have keys of
their own, and then it holds the kept items. The order of the items and repetitions of
them do not occur in this condition. -/
theorem foldlM_collects {σ : Type} (wrap : Std.ExtTreeMap κ ι → σ) {turn : σ → ι → Except ε σ}
    (hTurn : ∀ m x t, turn (wrap m) x = .ok t ↔
      ok x ∧ ∃ next, Collects key keep m x next ∧ t = wrap next)
    {xs : List ι} {t : σ} :
    xs.foldlM turn (wrap ∅) = .ok t ↔
      (∀ x ∈ xs, ok x) ∧ ∃ m, Collected key keep xs m ∧ t = wrap m := by
  induction xs using List.reverseRecOn generalizing t with
  | nil =>
      have hEmpty : Collected key keep [] (∅ : Std.ExtTreeMap κ ι) := by simp [Collected]
      simp only [List.foldlM_nil, pure_eq_ok, List.not_mem_nil, false_implies, implies_true,
        true_and]
      constructor
      · intro h
        exact ⟨∅, hEmpty, h.symm⟩
      · rintro ⟨m, hHeld, hEnd⟩
        rw [hEnd, hEmpty.unique hHeld]
  | append_singleton xs x ih =>
      simp only [List.foldlM_append, List.foldlM_cons, List.foldlM_nil, bind_eq_ok, pure_eq_ok,
        exists_eq_right, ih, List.forall_mem_append, List.forall_mem_singleton]
      constructor
      · rintro ⟨s, ⟨hOks, held, hHeld, hMiddle⟩, hStep⟩
        rw [hMiddle, hTurn] at hStep
        obtain ⟨hOk, next, hStep, rfl⟩ := hStep
        refine ⟨⟨hOks, hOk⟩, next, ?_, rfl⟩
        obtain ⟨hDropped, rfl⟩ | ⟨hKeep, hSame, rfl⟩ | ⟨hKeep, hFree, rfl⟩ := hStep
        · exact (Collected.absorb (absurd · hDropped)).mpr hHeld
        · exact (Collected.absorb fun _ => ((hHeld _ _).mp hSame).1).mpr hHeld
        · exact hHeld.insert hKeep hFree
      · rintro ⟨⟨hOks, hOk⟩, m, hAll, hEnd⟩
        by_cases hIdle : keep x → x ∈ xs
        · have hHeld := (Collected.absorb hIdle).mp hAll
          refine ⟨wrap m, ⟨hOks, m, hHeld, rfl⟩, (hTurn _ _ _).mpr ⟨hOk, m, ?_, hEnd⟩⟩
          by_cases hKeep : keep x
          · exact .inr (.inl ⟨hKeep, (hHeld _ _).mpr ⟨hIdle hKeep, hKeep, rfl⟩, rfl⟩)
          · exact .inl ⟨hKeep, rfl⟩
        · obtain ⟨hKeep, hNew⟩ : keep x ∧ x ∉ xs := by grind
          have hHeld := hAll.erase hNew hKeep
          have hFree : (m.erase (key x))[key x]? = none := Std.ExtTreeMap.getElem?_erase_self
          refine ⟨_, ⟨hOks, _, hHeld, rfl⟩, (hTurn _ _ _).mpr ⟨hOk, m, ?_, hEnd⟩⟩
          exact .inr (.inr ⟨hKeep, hFree, hAll.unique (hHeld.insert hKeep hFree)⟩)

/-- The items of a collection, in the order of their keys. -/
theorem Collected.mem_values {xs : List ι} {m : Std.ExtTreeMap κ ι}
    (h : Collected key keep xs m) {x : ι} : x ∈ m.toList.map Prod.snd ↔ x ∈ xs ∧ keep x := by
  simp only [List.mem_map, Prod.exists, Std.ExtTreeMap.mem_toList_iff_getElem?_eq_some]
  constructor
  · intro ⟨k, y, hHeld, hSame⟩
    obtain rfl : y = x := hSame
    have hMember := (h k y).mp hHeld
    exact ⟨hMember.1, hMember.2.1⟩
  · intro ⟨hMem, hKeep⟩
    exact ⟨key x, x, (h (key x) x).mpr ⟨hMem, hKeep, rfl⟩, rfl⟩

theorem Collected.map_key {xs : List ι} {m : Std.ExtTreeMap κ ι} (h : Collected key keep xs m) :
    (m.toList.map Prod.snd).map key = m.keys := by
  rw [← Std.ExtTreeMap.map_fst_toList_eq_keys, List.map_map]
  apply List.map_congr_left
  intro ⟨k, x⟩ hEntry
  exact ((h k x).mp (Std.ExtTreeMap.mem_toList_iff_getElem?_eq_some.mp hEntry)).2.2

end Collected

section Sums

/-- A field that every turn of a loop increases by a measure of the item ends as the sum
of the measures. -/
theorem foldl_sum {σ ι M : Type} [AddMonoid M] {add : σ → ι → σ} (field : σ → M) (measure : ι → M)
    (h : ∀ s x, field (add s x) = field s + measure x) (xs : List ι) (s : σ) :
    field (xs.foldl add s) = field s + (xs.map measure).sum := by
  induction xs generalizing s with
  | nil => simp
  | cons x xs ih => simp [ih, h, add_assoc]

/-- A field to which every turn of a loop appends a part of the item ends as the list of
the parts. -/
theorem foldl_parts {σ ι γ : Type} {add : σ → ι → σ} (field : σ → List γ) (part : ι → γ)
    (h : ∀ s x, field (add s x) = field s ++ [part x]) (xs : List ι) (s : σ) :
    field (xs.foldl add s) = field s ++ xs.map part := by
  induction xs generalizing s with
  | nil => simp
  | cons x xs ih => simp [ih, h]

variable {κ : Type} [Ord κ] [Std.TransOrd κ]

/-- One more count under a key. -/
def bump (m : Std.ExtTreeMap κ Nat) (entry : κ × Nat) : Std.ExtTreeMap κ Nat :=
  m.insert entry.1 (m.getD entry.1 0 + entry.2)

variable [Std.LawfulEqOrd κ]

theorem mem_bump (m : Std.ExtTreeMap κ Nat) (entry : κ × Nat) (k : κ) :
    k ∈ bump m entry ↔ entry.1 = k ∨ k ∈ m := by
  rw [bump, Std.ExtTreeMap.mem_insert, Std.LawfulEqOrd.compare_eq_iff_eq]

theorem mem_foldl_bump (entries : List (κ × Nat)) (m : Std.ExtTreeMap κ Nat) (k : κ) :
    k ∈ entries.foldl bump m ↔ k ∈ m ∨ k ∈ entries.map Prod.fst := by
  induction entries generalizing m with
  | nil => simp
  | cons entry entries ih =>
      rw [List.foldl_cons, ih, mem_bump, List.map_cons, List.mem_cons]
      grind

variable [DecidableEq κ]

/-- What a table says of a key, repeated entries added up. -/
def counted (entries : List (κ × Nat)) (k : κ) : Nat :=
  ((entries.filter (·.1 = k)).map Prod.snd).sum

theorem getD_bump (m : Std.ExtTreeMap κ Nat) (entry : κ × Nat) (k : κ) :
    (bump m entry).getD k 0 = m.getD k 0 + if entry.1 = k then entry.2 else 0 := by
  rw [bump, Std.ExtTreeMap.getD_insert]
  by_cases h : entry.1 = k <;> simp [h]

theorem getD_foldl_bump (entries : List (κ × Nat)) (m : Std.ExtTreeMap κ Nat) (k : κ) :
    (entries.foldl bump m).getD k 0 = m.getD k 0 + counted entries k := by
  induction entries generalizing m with
  | nil => simp [counted]
  | cons entry entries ih =>
      rw [List.foldl_cons, ih, getD_bump]
      by_cases h : entry.1 = k <;> simp [counted, h, Nat.add_assoc]

end Sums

end Tally
