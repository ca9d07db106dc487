import Mathlib.Data.List.Perm.Basic

/-! Pairing off the elements of a list: perfect matchings under a relation, their
arrangement in the order of the list, and the earliest of them. -/
namespace Pairing

universe u

variable {α : Type u}

/-- Both elements of each pair. -/
def members (pairs : List (α × α)) : List α := pairs.flatMap fun pair => [pair.1, pair.2]

/-- All pairs are in the relation. -/
def Fits (ok : α → α → Prop) (pairs : List (α × α)) : Prop := ∀ pair ∈ pairs, ok pair.1 pair.2

/-- Some pairing puts every element into exactly one pair and fits. -/
def Pairable (ok : α → α → Prop) (items : List α) : Prop :=
  ∃ pairs, (members pairs).Perm items ∧ Fits ok pairs

/-- The first element is paired with a later one, and then what is left over. -/
inductive Arranged : List α → List (α × α) → Prop where
  | nil : Arranged [] []
  | cons {first partner : α} {before after : List α} {pairs : List (α × α)}
      (rest : Arranged (before ++ after) pairs) :
      Arranged (first :: (before ++ partner :: after)) ((first, partner) :: pairs)

/-- Each first element takes the earliest partner in the relation that leaves a
pairable rest. -/
inductive Earliest (ok : α → α → Prop) : List α → List (α × α) → Prop where
  | nil : Earliest ok [] []
  | cons {first partner : α} {before after : List α} {pairs : List (α × α)}
      (fits : ok first partner) (rest : Earliest ok (before ++ after) pairs)
      (skipped : ∀ left other right, before = left ++ other :: right → ok first other →
        ¬ Pairable ok (left ++ (right ++ partner :: after))) :
      Earliest ok (first :: (before ++ partner :: after)) ((first, partner) :: pairs)

section

variable {ok : α → α → Prop} {items : List α} {pairs : List (α × α)}

@[simp] theorem members_nil : members ([] : List (α × α)) = [] := rfl

@[simp] theorem members_cons (pair : α × α) (pairs : List (α × α)) :
    members (pair :: pairs) = pair.1 :: pair.2 :: members pairs := rfl

theorem Arranged.perm (h : Arranged items pairs) : (members pairs).Perm items := by
  induction h with
  | nil => exact .refl _
  | cons _ ih => exact ((ih.cons _).trans List.perm_middle.symm).cons _

theorem Earliest.arranged (h : Earliest ok items pairs) : Arranged items pairs := by
  induction h with
  | nil => exact .nil
  | cons _ _ _ ih => exact .cons ih

theorem Earliest.fits (h : Earliest ok items pairs) : Fits ok pairs := by
  induction h with
  | nil => exact fun _ h => absurd h List.not_mem_nil
  | cons hFits _ _ ih => exact List.forall_mem_cons.mpr ⟨hFits, ih⟩

theorem Earliest.pairable (h : Earliest ok items pairs) : Pairable ok items :=
  ⟨pairs, h.arranged.perm, h.fits⟩

/-- One pair may be drawn first, with its elements in either order. -/
theorem members_split (left right : List (α × α)) (pair : α × α) :
    (members (left ++ pair :: right)).Perm (pair.1 :: pair.2 :: members (left ++ right)) := by
  simp only [members, List.flatMap_append, List.flatMap_cons]
  exact List.perm_append_comm_assoc _ [pair.1, pair.2] _

/-- The partner of the first element in a pairing that fits. -/
theorem Pairable.partner (symm : ∀ a b, ok a b → ok b a) {first : α} {rest : List α}
    (h : Pairable ok (first :: rest)) : ∃ before partner after, rest = before ++ partner :: after ∧
      ok first partner ∧ Pairable ok (before ++ after) := by
  obtain ⟨pairs, hPerm, hFits⟩ := h
  have hMem : first ∈ members pairs := hPerm.mem_iff.mpr List.mem_cons_self
  obtain ⟨pair, hPair, hFirst⟩ := List.mem_flatMap.mp hMem
  obtain ⟨left, right, rfl⟩ := List.append_of_mem hPair
  obtain ⟨partner, hOk, hSplit⟩ : ∃ partner, ok first partner ∧
      (first :: partner :: members (left ++ right)).Perm (first :: rest) := by
    have hBoth := (members_split left right pair).symm.trans hPerm
    have hPairFits := hFits pair hPair
    rcases List.mem_cons.mp hFirst with rfl | hSecond
    · exact ⟨pair.2, hPairFits, hBoth⟩
    · obtain rfl := List.mem_singleton.mp hSecond
      exact ⟨pair.1, symm _ _ hPairFits, (List.Perm.swap _ _ _).trans hBoth⟩
  have hRest : (partner :: members (left ++ right)).Perm rest := hSplit.cons_inv
  obtain ⟨before, after, rfl⟩ := List.append_of_mem (hRest.mem_iff.mp List.mem_cons_self)
  refine ⟨before, partner, after, rfl, hOk, left ++ right, ?_, fun other hOther => hFits other ?_⟩
  · exact (hRest.trans List.perm_middle).cons_inv
  · rw [List.mem_append] at hOther ⊢
    exact hOther.imp_right (List.mem_cons_of_mem _)

/-- Positions grow along the list. -/
def Ranked (position : α → Nat) (items : List α) : Prop :=
  items.Pairwise fun a b => position a < position b

/-- The earliest pairing comes before any other arranged one that fits, when pairings
are compared by the positions of the partners, from the first pair on. -/
theorem Earliest.first (h : Earliest ok items pairs) {position : α → Nat}
    (hRanked : Ranked position items) {others : List (α × α)} (hOthers : Arranged items others)
    (hFits : Fits ok others) :
    pairs.map (fun pair => position pair.2) = others.map (fun pair => position pair.2) ∨
      List.Lex (· < ·) (pairs.map fun pair => position pair.2)
        (others.map fun pair => position pair.2) := by
  induction h generalizing others with
  | nil =>
      cases hOthers
      exact .inl rfl
  | @cons first partner before after pairs hOk hRest hSkipped ih =>
      generalize hItems : first :: (before ++ partner :: after) = items at hOthers
      cases hOthers with
      | nil => cases hItems
      | @cons _ other before' after' others hOther =>
          obtain ⟨rfl, hSame⟩ := List.cons.inj hItems
          unfold Ranked at hRanked
          rw [List.pairwise_cons] at hRanked
          obtain ⟨hFirstFits, hLaterFit⟩ := List.forall_mem_cons.mp hFits
          rw [List.map_cons, List.map_cons]
          -- With the same partner the rest decides.
          have hSamePartner (hEq : position partner = position other)
              (hRest : pairs.map (fun pair => position pair.2) =
                  others.map (fun pair => position pair.2) ∨
                List.Lex (· < ·) (pairs.map fun pair => position pair.2)
                  (others.map fun pair => position pair.2)) :
              position partner :: pairs.map (fun pair => position pair.2) =
                  position other :: others.map (fun pair => position pair.2) ∨
                List.Lex (· < ·) (position partner :: pairs.map fun pair => position pair.2)
                  (position other :: others.map fun pair => position pair.2) := by
            rw [hEq]
            exact hRest.imp (congrArg _) List.Lex.cons
          rcases List.append_eq_append_iff.mp hSame with ⟨middle, rfl, hTail⟩ | ⟨middle, rfl, hTail⟩
          · cases middle with
            | nil =>
                obtain ⟨rfl, rfl⟩ := List.cons.inj hTail
                rw [List.append_nil] at hOther
                refine hSamePartner rfl (ih (hRanked.2.sublist ?_) hOther hLaterFit)
                exact (List.sublist_cons_self _ _).append_left _
            | cons _ middle =>
                -- The other partner stands further down the list.
                obtain ⟨rfl, rfl⟩ := List.cons.inj hTail
                refine .inr (.rel ?_)
                have hRest := (List.pairwise_append.mp hRanked.2).2.1
                exact (List.pairwise_cons.mp hRest).1 other
                  (List.mem_append_right _ List.mem_cons_self)
          · cases middle with
            | nil =>
                obtain ⟨rfl, rfl⟩ := List.cons.inj hTail
                rw [List.append_nil] at ih hRanked
                refine hSamePartner rfl (ih (hRanked.2.sublist ?_) hOther hLaterFit)
                exact (List.sublist_cons_self _ _).append_left _
            | cons _ middle =>
                -- An earlier partner was skipped because its rest is not pairable.
                obtain ⟨rfl, rfl⟩ := List.cons.inj hTail
                exact absurd ⟨others, hOther.perm, hLaterFit⟩ (hSkipped _ _ _ rfl hFirstFits)

end

end Pairing
