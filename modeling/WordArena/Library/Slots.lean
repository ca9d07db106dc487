import Mathlib.Data.List.Forall2
import Mathlib.Data.List.Nodup
import Mathlib.Data.List.Perm.Basic
import Mathlib.Data.List.ReduceOption

/-! Items kept in a list of slots. Replacing one slot exchanges its items for
the new ones and moves nothing else; taking items by key leaves the rest. -/
namespace Slots

universe u v w

variable {α : Type u} {β : Type v} {κ : Type w}

/-- Replace one slot: the old items leave and the new ones enter. -/
theorem flatMap_set_perm (items : α → List β) {slots : List α} {i : Nat} (h : i < slots.length)
    (new : α) :
    (items slots[i] ++ (slots.set i new).flatMap items).Perm (items new ++ slots.flatMap items) := by
  induction slots generalizing i with
  | nil => simp at h
  | cons slot slots ih =>
      cases i with
      | zero =>
          simp only [List.getElem_cons_zero, List.set_cons_zero, List.flatMap_cons]
          exact List.perm_append_comm_assoc ..
      | succ i =>
          have hIndex : i < slots.length := Nat.lt_of_succ_lt_succ h
          have hTail := (ih hIndex).append_left (items slot)
          simp only [List.getElem_cons_succ, List.set_cons_succ, List.flatMap_cons]
          exact (List.perm_append_comm_assoc ..).trans
            (hTail.trans (List.perm_append_comm_assoc ..))

/-- Fill one empty slot of a list of optional items. -/
theorem reduceOption_set_perm {slots : List (Option β)} {i : Nat} (h : slots[i]? = some none)
    (new : β) : (slots.set i (some new)).reduceOption.Perm (new :: slots.reduceOption) := by
  induction slots generalizing i with
  | nil => simp at h
  | cons slot slots ih =>
      cases i with
      | zero =>
          obtain rfl : slot = none := by simpa using h
          simp
      | succ i =>
          have hTail := ih (i := i) (by simpa using h)
          cases slot with
          | none => simpa using hTail
          | some old =>
              simp only [List.set_cons_succ, List.reduceOption_cons_of_some]
              exact (hTail.cons old).trans (.swap ..)

/-- Items taken by distinct keys, with the items left, are all items. -/
theorem take_keys_perm [DecidableEq κ] {key : α → κ} {items taken : List α} {keys : List κ}
    (hItems : (items.map key).Nodup) (hKeys : keys.Nodup)
    (hTaken : List.Forall₂ (fun k item => item ∈ items ∧ key item = k) keys taken) :
    (taken ++ items.filter fun item => key item ∉ keys).Perm items := by
  have hMap : taken.map key = keys := by
    clear hKeys
    induction hTaken with
    | nil => rfl
    | cons hHead _ ih => rw [List.map_cons, hHead.2, ih]
  have hMem : ∀ item ∈ taken, item ∈ items := by
    clear hKeys hMap
    induction hTaken with
    | nil => simp
    | cons hHead _ ih => simpa [hHead.1] using ih
  have hSelected : taken.Perm (items.filter fun item => key item ∈ keys) := by
    refine (List.perm_ext_iff_of_nodup (List.Nodup.of_map key (hMap ▸ hKeys))
      ((List.Nodup.of_map key hItems).filter _)).mpr fun item => ?_
    simp only [List.mem_filter, decide_eq_true_eq, ← hMap]
    constructor
    · intro h
      exact ⟨hMem item h, List.mem_map_of_mem h⟩
    · rintro ⟨hItem, hKey⟩
      obtain ⟨other, hOther, hEq⟩ := List.mem_map.mp hKey
      rwa [← List.inj_on_of_nodup_map hItems (hMem other hOther) hItem hEq]
  refine (hSelected.append_right _).trans ?_
  have hSplit := List.filter_append_perm (fun item => decide (key item ∈ keys)) items
  simpa using hSplit

/-- A lookup that never misses pairs every key with its answer. -/
theorem forall₂_filterMap {r : κ → α → Prop} {find : κ → Option α} {keys : List κ}
    (h : ∀ k ∈ keys, ∃ item, find k = some item ∧ r k item) :
    List.Forall₂ r keys (keys.filterMap find) := by
  induction keys with
  | nil => exact .nil
  | cons k keys ih =>
      rw [List.forall_mem_cons] at h
      obtain ⟨⟨item, hFind, hItem⟩, hRest⟩ := h
      rw [List.filterMap_cons_some hFind]
      exact .cons hItem (ih hRest)

/-- A functional relation pairs a list with one list only. -/
theorem forall₂_unique {r : κ → α → Prop} (hr : ∀ k a b, r k a → r k b → a = b) {keys : List κ}
    {xs ys : List α} (hx : List.Forall₂ r keys xs) (hy : List.Forall₂ r keys ys) : xs = ys := by
  induction hx generalizing ys with
  | nil =>
      cases hy
      rfl
  | cons hHead _ ih =>
      cases hy with
      | cons hHead' hTail' => rw [hr _ _ _ hHead hHead', ih hTail']

/-- Partners for all keys make a pairing. -/
theorem exists_forall₂ {r : κ → α → Prop} {keys : List κ} (h : ∀ k ∈ keys, ∃ item, r k item) :
    ∃ items, List.Forall₂ r keys items := by
  induction keys with
  | nil => exact ⟨[], .nil⟩
  | cons k keys ih =>
      rw [List.forall_mem_cons] at h
      obtain ⟨⟨item, hItem⟩, hRest⟩ := h
      obtain ⟨items, hItems⟩ := ih hRest
      exact ⟨item :: items, .cons hItem hItems⟩

/-- Items that determine their keys give the keys back. -/
theorem map_of_forall₂ {r : κ → α → Prop} {key : α → κ} {keys : List κ} {items : List α}
    (h : List.Forall₂ r keys items) (hKey : ∀ k ∈ keys, ∀ item, r k item → key item = k) :
    items.map key = keys := by
  induction h with
  | nil => rfl
  | cons hHead _ ih =>
      rw [List.forall_mem_cons] at hKey
      rw [List.map_cons, hKey.1 _ hHead, ih hKey.2]

/-- Two pairings in a row pair the outer lists. -/
theorem forall₂_chain {γ : Type v} {r : κ → α → Prop} {q : α → γ → Prop} {keys : List κ}
    {items : List α} {results : List γ} (h : List.Forall₂ r keys items)
    (hNext : List.Forall₂ q items results) :
    List.Forall₂ (fun k result => ∃ item, r k item ∧ q item result) keys results := by
  induction h generalizing results with
  | nil =>
      cases hNext
      exact .nil
  | cons hHead _ ih =>
      cases hNext with
      | cons hHead' hTail' => exact .cons ⟨_, hHead, hHead'⟩ (ih hTail')

/-- Every key of a pairing has a partner among the items. -/
theorem exists_of_forall₂_left {r : κ → α → Prop} {keys : List κ} {items : List α} {k : κ}
    (h : List.Forall₂ r keys items) (hk : k ∈ keys) : ∃ item ∈ items, r k item := by
  induction h with
  | nil => cases hk
  | @cons key item keys items hHead _ ih =>
      rcases List.mem_cons.mp hk with rfl | hk
      · exact ⟨item, List.mem_cons_self, hHead⟩
      · obtain ⟨found, hFound, hr⟩ := ih hk
        exact ⟨found, List.mem_cons_of_mem _ hFound, hr⟩

/-- Every item of a pairing belongs to one of the keys. -/
theorem exists_of_forall₂_right {r : κ → α → Prop} {keys : List κ} {items : List α} {item : α}
    (h : List.Forall₂ r keys items) (hi : item ∈ items) : ∃ k ∈ keys, r k item :=
  exists_of_forall₂_left h.flip hi

/-- An item is found under its own key when keys are distinct. -/
theorem find?_key [DecidableEq κ] {key : α → κ} {items : List α} (hKeys : (items.map key).Nodup)
    {item : α} (h : item ∈ items) : (items.find? fun other => key other = key item) = some item := by
  cases hFind : items.find? fun other => key other = key item with
  | none =>
      have hNone := List.find?_eq_none.mp hFind item h
      simp at hNone
  | some found =>
      have hKey : key found = key item := by simpa using List.find?_some hFind
      have hFound := List.mem_of_find?_eq_some hFind
      rw [List.inj_on_of_nodup_map hKeys hFound h hKey]

/-- Items with distinct keys are all found in a list of the same length exactly
when that list is a rearrangement of them. -/
theorem find?_all_iff_perm [DecidableEq κ] {key : α → κ} {items others : List α}
    (hKeys : (items.map key).Nodup) :
    ((∀ item ∈ items, (others.find? fun other => key other = key item) = some item) ∧
      items.length = others.length) ↔ items.Perm others := by
  constructor
  · rintro ⟨hFound, hLength⟩
    have hSubset : items ⊆ others := fun item hItem => List.mem_of_find?_eq_some (hFound item hItem)
    exact (List.subperm_of_subset hKeys.of_map hSubset).perm_of_length_le (Nat.le_of_eq hLength.symm)
  · intro hPerm
    refine ⟨fun item hItem => ?_, hPerm.length_eq⟩
    exact find?_key ((hPerm.map key).nodup_iff.mp hKeys) (hPerm.mem_iff.mp hItem)

/-- Removing repetitions never lengthens a list. -/
theorem length_eraseDups_le [BEq α] (items : List α) : items.eraseDups.length ≤ items.length := by
  induction hn : items.length using Nat.strongRecOn generalizing items with
  | ind n ih =>
      cases items with
      | nil => simp
      | cons item items =>
          have hFilter := List.length_filter_le (fun other => !other == item) items
          rw [List.length_cons] at hn
          have hRest := ih _ (by omega) (items.filter fun other => !other == item) rfl
          rw [List.eraseDups_cons, List.length_cons]
          omega

theorem nodup_eraseDups [BEq α] [LawfulBEq α] (items : List α) : items.eraseDups.Nodup := by
  induction hn : items.length using Nat.strongRecOn generalizing items with
  | ind n ih =>
      cases items with
      | nil => exact List.nodup_nil
      | cons item items =>
          have hFilter := List.length_filter_le (fun other => !other == item) items
          rw [List.length_cons] at hn
          rw [List.eraseDups_cons, List.nodup_cons]
          refine ⟨fun hMem => ?_, ih _ (by omega) (items.filter fun other => !other == item) rfl⟩
          have hOther := List.mem_filter.mp (List.mem_eraseDups.mp hMem)
          simp at hOther

end Slots
