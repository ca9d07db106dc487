import Mathlib.Data.List.Basic

/-! Descending Fisher-Yates shuffles driven by an arbitrary source of indices.
The source may keep state between draws; nothing is assumed about its values. -/
namespace Shuffle

universe u v

variable {α : Type u} {σ : Type v}

/-- Exchange two positions. Out-of-range positions leave the list alone. -/
def swap (values : List α) (i j : Nat) : List α :=
  match values[i]?, values[j]? with
  | some a, some b => (values.set i b).set j a
  | _, _ => values

/-- Exchange every position from `last` down to one with a drawn position.
The draw for position `i` is asked for a value below `i + 1`. -/
def descend (draw : σ → Nat → Nat × σ) : Nat → σ → List α → List α × σ
  | 0, source, values => (values, source)
  | last + 1, source, values =>
      let (selected, source) := draw source (last + 2)
      descend draw last source (swap values (last + 1) selected)

def shuffle (draw : σ → Nat → Nat × σ) (source : σ) (values : List α) : List α × σ :=
  descend draw (values.length - 1) source values

theorem swap_perm (values : List α) (i j : Nat) : (swap values i j).Perm values := by
  unfold swap
  split
  · rename_i a b hLeft hRight
    obtain ⟨hi, rfl⟩ := List.getElem?_eq_some_iff.mp hLeft
    obtain ⟨hj, rfl⟩ := List.getElem?_eq_some_iff.mp hRight
    exact List.set_set_perm hi hj
  · exact List.Perm.refl _

theorem descend_perm (draw : σ → Nat → Nat × σ) (last : Nat) (source : σ) (values : List α) :
    (descend draw last source values).1.Perm values := by
  induction last generalizing source values with
  | zero => exact List.Perm.refl _
  | succ last ih => exact (ih _ _).trans (swap_perm values _ _)

/-- Whatever indices are drawn, no element is lost, added or duplicated. -/
theorem shuffle_perm (draw : σ → Nat → Nat × σ) (source : σ) (values : List α) :
    (shuffle draw source values).1.Perm values :=
  descend_perm draw _ source values

/-- The descending loop over draws given by a relation. -/
inductive Descends (draws : σ → Nat → Nat × σ → Prop) :
    Nat → σ → List α → List α × σ → Prop where
  | zero {source : σ} {values : List α} : Descends draws 0 source values (values, source)
  | succ {last selected : Nat} {source source' : σ} {values : List α} {result : List α × σ}
      (drawn : draws source (last + 2) (selected, source'))
      (rest : Descends draws last source' (swap values (last + 1) selected) result) :
      Descends draws (last + 1) source values result

/-- A source that realises the relation while an invariant holds computes the
loop. -/
theorem descend_descends {draw : σ → Nat → Nat × σ} {draws : σ → Nat → Nat × σ → Prop}
    (inv : σ → Prop) (bound : Nat)
    (hDraw : ∀ source upper, inv source → 0 < upper → upper ≤ bound →
      draws source upper (draw source upper) ∧ inv (draw source upper).2)
    {last : Nat} {source : σ} (values : List α) (hSource : inv source) (hLast : last < bound) :
    Descends draws last source values (descend draw last source values) := by
  induction last generalizing source values with
  | zero => exact .zero
  | succ last ih =>
      obtain ⟨hDrawn, hNext⟩ := hDraw source (last + 2) hSource (by omega) (by omega)
      exact .succ hDrawn (ih _ hNext (by omega))

end Shuffle
