import Mathlib.Data.List.Nodup
import Mathlib.Data.List.Basic

/-! Relational tables as lists of rows in insertion order. Updates and inserts
check the constraints of the table, and a failed constraint yields nothing. -/
namespace Table

universe u v w

variable {ρ : Type u} {κ : Type v}

/-- Change the rows a condition selects and leave the others alone. -/
def update (hit : ρ → Bool) (change : ρ → ρ) (rows : List ρ) : List ρ :=
  rows.map fun row => if hit row then change row else row

/-- An update that fails as a whole when a changed row violates the check. -/
def updateWhere (check : ρ → Bool) (hit : ρ → Bool) (change : ρ → ρ) (rows : List ρ) :
    Option (List ρ) :=
  if rows.all (fun row => !hit row || check (change row)) then some (update hit change rows)
  else none

/-- An insert that fails when the check or a uniqueness constraint is violated.
`clash` decides whether two rows violate one. -/
def insert (check : ρ → Bool) (clash : ρ → ρ → Bool) (row : ρ) (rows : List ρ) :
    Option (List ρ) :=
  if check row && !rows.any (clash row) then some (rows ++ [row]) else none

section

variable {check hit : ρ → Bool} {clash : ρ → ρ → Bool} {change : ρ → ρ} {rows next : List ρ}
  {row : ρ}

theorem mem_update : row ∈ update hit change rows ↔
    ∃ old ∈ rows, row = if hit old then change old else old := by
  rw [update, List.mem_map]
  exact ⟨fun ⟨old, hOld, h⟩ => ⟨old, hOld, h.symm⟩, fun ⟨old, hOld, h⟩ => ⟨old, hOld, h.symm⟩⟩

/-- An update is not seen by a search for other rows. -/
theorem find?_update_other {p : ρ → Bool} (hOld : ∀ row, hit row = true → p row = false)
    (hNew : ∀ row, hit row = true → p (change row) = false) :
    (update hit change rows).find? p = rows.find? p := by
  induction rows with
  | nil => rfl
  | cons first rest ih =>
      rw [update, List.map_cons, List.find?_cons, List.find?_cons, ← update, ih]
      cases hHit : hit first with
      | false => rfl
      | true =>
          rw [if_pos rfl, hOld first hHit, hNew first hHit]

/-- A search for the updated rows finds the first of them. -/
theorem find?_update_hit (hKept : ∀ row, hit row = true → hit (change row) = true) :
    (update hit change rows).find? hit = (rows.find? hit).map change := by
  induction rows with
  | nil => rfl
  | cons first rest ih =>
      rw [update, List.map_cons, List.find?_cons, List.find?_cons, ← update, ih]
      cases hHit : hit first with
      | false =>
          rw [if_neg Bool.false_ne_true, hHit]
      | true =>
          rw [if_pos rfl, hKept first hHit]
          rfl

theorem updateWhere_eq_some : updateWhere check hit change rows = some next ↔
    (∀ row ∈ rows, hit row = true → check (change row) = true) ∧ next = update hit change rows := by
  by_cases h : rows.all (fun row => !hit row || check (change row)) = true
  · have hAll : ∀ row ∈ rows, hit row = true → check (change row) = true := by
      intro row hRow hHit
      have hCheck := List.all_eq_true.mp h row hRow
      rw [hHit] at hCheck
      simpa using hCheck
    rw [updateWhere, if_pos h, Option.some.injEq]
    exact ⟨fun hNext => ⟨hAll, hNext.symm⟩, fun hNext => hNext.2.symm⟩
  · rw [updateWhere, if_neg h]
    refine ⟨nofun, ?_⟩
    rintro ⟨hAll, -⟩
    refine absurd (List.all_eq_true.mpr ?_) h
    intro row hRow
    cases hHit : hit row with
    | false => rfl
    | true => exact hAll row hRow hHit

theorem insert_eq_some : insert check clash row rows = some next ↔
    check row = true ∧ (∀ other ∈ rows, clash row other = false) ∧ next = rows ++ [row] := by
  have hClear : (!rows.any (clash row)) = true ↔ ∀ other ∈ rows, clash row other = false := by
    simp
  rw [insert, ← hClear]
  split
  · rename_i h
    rw [Bool.and_eq_true] at h
    rw [Option.some.injEq]
    exact ⟨fun hNext => ⟨h.1, h.2, hNext.symm⟩, fun hNext => hNext.2.2.symm⟩
  · rename_i h
    rw [Bool.and_eq_true] at h
    exact ⟨nofun, fun hNext => absurd ⟨hNext.1, hNext.2.1⟩ h⟩

/-- Rows that are added one after the other are free of clashes exactly when each is
free of the old rows and of the ones added before it. -/
theorem forall_split_free {α : Type w} {row : α → ρ} {free : α → ρ → Prop} {xs : List α} :
    (∀ before x rest, xs = before ++ x :: rest → ∀ old ∈ rows ++ before.map row, free x old) ↔
    (∀ x ∈ xs, ∀ old ∈ rows, free x old) ∧ xs.Pairwise fun a b => free b (row a) := by
  induction xs generalizing rows with
  | nil => simp
  | cons first xs ih =>
      have hTail : (∀ before x rest, first :: xs = before ++ x :: rest →
          ∀ old ∈ rows ++ before.map row, free x old) ↔
          (∀ old ∈ rows, free first old) ∧ ∀ before x rest, xs = before ++ x :: rest →
            ∀ old ∈ (rows ++ [row first]) ++ before.map row, free x old := by
        constructor
        · intro h
          refine ⟨fun old hOld => h [] first xs rfl old (List.mem_append_left _ hOld), ?_⟩
          intro before x rest hSplit old hOld
          refine h (first :: before) x rest (by rw [hSplit]; rfl) old ?_
          rwa [List.append_assoc, List.singleton_append, ← List.map_cons] at hOld
        · rintro ⟨hFirst, hRest⟩ before x rest hSplit old hOld
          cases before with
          | nil =>
              obtain ⟨rfl, -⟩ := List.cons.inj hSplit
              rw [List.map_nil, List.append_nil] at hOld
              exact hFirst old hOld
          | cons head before =>
              obtain ⟨rfl, hLater⟩ := List.cons.inj hSplit
              refine hRest before x rest hLater old ?_
              rwa [List.append_assoc, List.singleton_append, ← List.map_cons]
      rw [hTail, ih, List.pairwise_cons, List.forall_mem_cons]
      simp only [List.forall_mem_append, List.forall_mem_singleton]
      exact ⟨fun ⟨hFirst, hRest, hPairs⟩ => ⟨⟨hFirst, fun x hx => (hRest x hx).1⟩,
          fun x hx => (hRest x hx).2, hPairs⟩,
        fun ⟨⟨hFirst, hRest⟩, hHead, hPairs⟩ => ⟨hFirst, fun x hx => ⟨hRest x hx, hHead x hx⟩,
          hPairs⟩⟩

/-- A column that an update does not write keeps its values in order. -/
theorem map_update {key : ρ → κ} (h : ∀ row, key (change row) = key row) :
    (update hit change rows).map key = rows.map key := by
  rw [update, List.map_map]
  refine List.map_congr_left fun row _ => ?_
  simp only [Function.comp_apply]
  split
  · exact h row
  · rfl

/-- An update that touches no row of a table changes nothing. -/
theorem update_of_forall_not (h : ∀ row ∈ rows, hit row = false) : update hit change rows = rows := by
  rw [update]
  conv_rhs => rw [← List.map_id rows]
  refine List.map_congr_left fun row hRow => ?_
  rw [h row hRow, if_neg Bool.false_ne_true]
  rfl

/-- Selecting by columns an update does not write commutes with the update. -/
theorem filter_update {p : ρ → Bool} (h : ∀ row, p (change row) = p row) :
    (update hit change rows).filter p = update hit change (rows.filter p) := by
  rw [update, List.filter_map, update]
  congr 1
  refine List.filter_congr fun row _ => ?_
  simp only [Function.comp_apply]
  split
  · exact h row
  · rfl

theorem find?_update {p : ρ → Bool} (h : ∀ row, p (change row) = p row) :
    (update hit change rows).find? p =
      (rows.find? p).map fun row => if hit row then change row else row := by
  rw [update, List.find?_map]
  congr 2
  funext row
  simp only [Function.comp_apply]
  split
  · exact h row
  · rfl

/-- A selection that looks only at where the elements come from. -/
theorem filter_flatMap_source {l : List ρ} {f : ρ → List κ} {p : κ → Bool} {q : ρ → Bool}
    (h : ∀ a ∈ l, ∀ s ∈ f a, p s = q a) :
    (l.flatMap f).filter p = (l.filter q).flatMap f := by
  induction l with
  | nil => rfl
  | cons a l ih =>
      rw [List.forall_mem_cons] at h
      rw [List.flatMap_cons, List.filter_append, ih h.2, List.filter_cons]
      cases hq : q a with
      | true =>
          have hAll : (f a).filter p = f a :=
            List.filter_eq_self.mpr fun s hs => (h.1 s hs).trans hq
          rw [hAll, if_pos rfl, List.flatMap_cons]
      | false =>
          have hNone : (f a).filter p = [] := by
            rw [List.filter_eq_nil_iff]
            intro s hs
            rw [h.1 s hs, hq]
            exact Bool.false_ne_true
          rw [hNone, if_neg Bool.false_ne_true, List.nil_append]

/-- Rows that a join pairs with at most one selected row each are counted once. -/
theorem countP_flatMap {σ : Type w} {f : ρ → List σ} {p : σ → Bool} {q : ρ → Bool}
    (h : ∀ row ∈ rows, (f row).countP p = if q row then 1 else 0) :
    (rows.flatMap f).countP p = rows.countP q := by
  induction rows with
  | nil => rfl
  | cons row rows ih =>
      rw [List.flatMap_cons, List.countP_append, List.countP_cons, h row List.mem_cons_self,
        ih fun other hOther => h other (List.mem_cons_of_mem _ hOther), Nat.add_comm]

/-- An update that never selects more rows does not raise a count. -/
theorem countP_update_le {p : ρ → Bool}
    (h : ∀ row, hit row = true → p (change row) = true → p row = true) :
    (update hit change rows).countP p ≤ rows.countP p := by
  rw [update, List.countP_map]
  refine List.countP_mono_left fun row _ hRow => ?_
  simp only [Function.comp_apply] at hRow
  split at hRow
  · rename_i hHit
    exact h row hHit hRow
  · exact hRow

/-- Distinct columns of selected rows stay distinct when an update keeps the
column and selects no further row. -/
theorem nodup_filter_update {key : ρ → κ} {p : ρ → Bool}
    (hKeys : ((rows.filter p).map key).Nodup) (hKey : ∀ row, key (change row) = key row)
    (h : ∀ row, hit row = true → p (change row) = true → p row = true) :
    (((update hit change rows).filter p).map key).Nodup := by
  let q : ρ → Bool := fun row => p (if hit row then change row else row)
  have hColumn : ((update hit change rows).filter p).map key = (rows.filter q).map key := by
    rw [update, List.filter_map, List.map_map]
    refine List.map_congr_left fun row _ => ?_
    simp only [Function.comp_apply]
    split
    · exact hKey row
    · rfl
  rw [hColumn]
  refine hKeys.sublist ((List.monotone_filter_right rows fun row hRow => ?_).map key)
  simp only [q] at hRow
  split at hRow
  · rename_i hHit
    exact h row hHit hRow
  · exact hRow

/-- A condition that selects one row selects some row. -/
theorem exists_of_countP_one {p : ρ → Bool} (h : ¬ rows.countP p ≠ 1) :
    ∃ row ∈ rows, p row = true :=
  List.countP_pos_iff.mp (by rw [not_not.mp h]; exact Nat.one_pos)

/-- Rows with distinct keys are determined by their key. -/
theorem eq_of_key {key : ρ → κ} (hKeys : (rows.map key).Nodup) {a b : ρ} (ha : a ∈ rows)
    (hb : b ∈ rows) (h : key a = key b) : a = b :=
  List.inj_on_of_nodup_map hKeys ha hb h

/-- A key selects its own row and no other. -/
theorem filter_key [DecidableEq κ] {key : ρ → κ} (hKeys : (rows.map key).Nodup) {a : ρ}
    (ha : a ∈ rows) : rows.filter (fun row => key row == key a) = [a] := by
  induction rows with
  | nil => cases ha
  | cons first rest ih =>
      rw [List.map_cons, List.nodup_cons] at hKeys
      rcases List.mem_cons.mp ha with rfl | hRest
      · have hNone : rest.filter (fun row => key row == key a) = [] := by
          refine List.filter_eq_nil_iff.mpr fun row hRow hSame => hKeys.1 ?_
          exact List.mem_map.mpr ⟨row, hRow, by simpa using hSame⟩
        rw [List.filter_cons, if_pos (by simp), hNone]
      · have hOther : (key first == key a) = false := by
          rw [beq_eq_false_iff_ne]
          intro hSame
          exact hKeys.1 (hSame ▸ List.mem_map_of_mem hRest)
        rw [List.filter_cons, if_neg (by rw [hOther]; exact Bool.false_ne_true), ih hKeys.2 hRest]

theorem find?_eq_some_iff_mem [DecidableEq κ] {key : ρ → κ} (hKeys : (rows.map key).Nodup)
    {k : κ} {a : ρ} : rows.find? (fun row => key row = k) = some a ↔ a ∈ rows ∧ key a = k := by
  constructor
  · intro h
    exact ⟨List.mem_of_find?_eq_some h, by simpa using List.find?_some h⟩
  · rintro ⟨hMem, rfl⟩
    cases hFind : rows.find? (fun row => key row = key a) with
    | none => simpa using List.find?_eq_none.mp hFind a hMem
    | some b =>
        have hKey : key b = key a := by simpa using List.find?_some hFind
        rw [eq_of_key hKeys (List.mem_of_find?_eq_some hFind) hMem hKey]

end

end Table
