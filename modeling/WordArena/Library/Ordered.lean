import Mathlib.Data.List.Basic
import Mathlib.Data.List.Nodup
import Std.Data.TreeMap.Lemmas
import Std.Data.TreeSet.Lemmas
import WordArena.Library.Fallible

/-! Loops over ordered maps and sets: a loop that refuses a key it has seen, a map
collected from distinct keys, and a loop that takes the keys of a map out again. -/
namespace Ordered

open Fallible

variable {κ : Type} [Ord κ] [Std.TransOrd κ] [Std.LawfulEqOrd κ]

/-- The first turn of a loop whose turns succeed on a condition and then compute a known
state. -/
theorem foldlM_cons_ends {ε σ γ : Type} {turn : σ → γ → Except ε σ} {ok : σ → γ → Prop}
    {next : σ → γ → σ} (hTurn : ∀ s x t, turn s x = .ok t ↔ ok s x ∧ t = next s x)
    {x : γ} {xs : List γ} {s : σ} :
    (∃ last, (x :: xs).foldlM turn s = .ok last) ↔
      ok s x ∧ ∃ last, xs.foldlM turn (next s x) = .ok last := by
  simp only [List.foldlM_cons, bind_eq_ok, hTurn]
  constructor
  · intro ⟨last, t, ⟨hPass, hNext⟩, hRest⟩
    exact ⟨hPass, last, hNext ▸ hRest⟩
  · intro ⟨hPass, last, hRest⟩
    exact ⟨last, next s x, ⟨hPass, rfl⟩, hRest⟩

section Seen

variable {ε : Type} {γ : Type} {turn : Std.TreeSet κ → γ → Except ε (Std.TreeSet κ)}
  {key : γ → κ} {ok : γ → Prop}

/-- A loop that checks each item, refuses a key that it has seen and remembers the rest
ends exactly when all items pass and their keys are new and distinct. -/
theorem foldlM_seen_eq_ok
    (hTurn : ∀ seen x next, turn seen x = .ok next ↔
      (ok x ∧ key x ∉ seen) ∧ next = seen.insert (key x))
    {xs : List γ} {seen : Std.TreeSet κ} :
    (∃ last, xs.foldlM turn seen = .ok last) ↔
      (∀ x ∈ xs, ok x) ∧ (∀ x ∈ xs, key x ∉ seen) ∧ (xs.map key).Nodup := by
  induction xs generalizing seen with
  | nil => simp [pure, Except.pure]
  | cons x xs ih =>
      rw [foldlM_cons_ends hTurn, ih]
      simp only [Std.TreeSet.mem_insert, Std.LawfulEqOrd.compare_eq_iff_eq, not_or,
        List.forall_mem_cons, List.map_cons, List.nodup_cons, List.mem_map, not_exists, not_and]
      constructor
      · rintro ⟨⟨hOk, hNew⟩, hOks, hNews, hNodup⟩
        exact ⟨⟨hOk, hOks⟩, ⟨hNew, fun y hy => (hNews y hy).2⟩,
          fun y hy hSame => (hNews y hy).1 hSame.symm, hNodup⟩
      · rintro ⟨⟨hOk, hOks⟩, ⟨hNew, hNews⟩, hFresh, hNodup⟩
        exact ⟨⟨hOk, hNew⟩, hOks, fun y hy => ⟨fun hSame => hFresh y hy hSame.symm, hNews y hy⟩,
          hNodup⟩

end Seen

section Collected

variable {ν : Type} {entries : List (κ × ν)} {key : κ} {value : ν}

/-- A map collected from distinct keys holds exactly its entries. -/
theorem ofList_eq_some (hKeys : (entries.map Prod.fst).Nodup) :
    (Std.TreeMap.ofList entries).get? key = some value ↔ (key, value) ∈ entries := by
  have hDistinct : entries.Pairwise fun a b => ¬ compare a.1 b.1 = .eq := by
    refine (List.pairwise_map.mp hKeys).imp fun hNe hSame => hNe ?_
    exact Std.LawfulEqCmp.eq_of_compare hSame
  have hMem : ∀ {found : ν}, (key, found) ∈ entries →
      (Std.TreeMap.ofList entries).get? key = some found := fun hEntry =>
    Std.TreeMap.getElem?_ofList_of_mem Std.ReflCmp.compare_self hDistinct hEntry
  refine ⟨fun h => ?_, hMem⟩
  by_cases hPresent : ∃ found, (key, found) ∈ entries
  · obtain ⟨found, hEntry⟩ := hPresent
    rw [hMem hEntry, Option.some.injEq] at h
    exact h ▸ hEntry
  · let _ := beqOfOrd (α := κ)
    have hNone : (Std.TreeMap.ofList entries).get? key = none := by
      apply Std.TreeMap.getElem?_ofList_of_contains_eq_false
      simpa using fun found hEntry => hPresent ⟨found, hEntry⟩
    rw [hNone] at h
    cases h

theorem ofList_eq_none (hKeys : (entries.map Prod.fst).Nodup) :
    (Std.TreeMap.ofList entries).get? key = none ↔ key ∉ entries.map Prod.fst := by
  rw [Option.eq_none_iff_forall_ne_some]
  constructor
  · intro hNone hMem
    obtain ⟨⟨found, value⟩, hEntry, rfl⟩ := List.mem_map.mp hMem
    exact hNone value ((ofList_eq_some hKeys).mpr hEntry)
  · intro hAbsent value hSome
    exact hAbsent (List.mem_map_of_mem (f := Prod.fst) ((ofList_eq_some hKeys).mp hSome))

end Collected

section Taken

variable {ε : Type} {γ ν : Type} {turn : Std.TreeMap κ ν → γ → Except ε (Std.TreeMap κ ν)}
  {key : γ → κ} {fallback : ν} {ok : γ → ν → Prop}

/-- A loop over distinct keys that checks what a map holds under each and takes it out
ends exactly when every check passes on the map as it was at first. -/
theorem foldlM_taken_eq_ok
    (hTurn : ∀ left x next, turn left x = .ok next ↔
      ok x (left.getD (key x) fallback) ∧ next = left.erase (key x))
    {xs : List γ} {left : Std.TreeMap κ ν} (hKeys : (xs.map key).Nodup) :
    (∃ last, xs.foldlM turn left = .ok last) ↔
      ∀ x ∈ xs, ok x (left.getD (key x) fallback) := by
  induction xs generalizing left with
  | nil => simp [pure, Except.pure]
  | cons x xs ih =>
      rw [List.map_cons, List.nodup_cons] at hKeys
      have hKept : ∀ y ∈ xs, (left.erase (key x)).getD (key y) fallback =
          left.getD (key y) fallback := by
        intro y hy
        have hOther : key x ≠ key y := fun hSame => hKeys.1 (hSame ▸ List.mem_map_of_mem hy)
        rw [Std.TreeMap.getD_erase, if_neg (by simpa using hOther)]
      rw [foldlM_cons_ends hTurn, ih hKeys.2, List.forall_mem_cons]
      exact and_congr_right fun _ => forall₂_congr fun y hy => by rw [hKept y hy]

end Taken

end Ordered
