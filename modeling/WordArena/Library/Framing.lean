import WordArena.Library.Bytes

/-! Framed streams. A code delimits its values when none of them can be mistaken for
another one, whatever follows; such values can be strung together and read back. -/
namespace Framing

universe u v w

variable {α : Type u} {β : Type v} {γ : Type w} {domain : α → Prop} {code : α → List γ}

/-- The values of a domain are read off the front of a stream in one way only. -/
def Delimits (domain : α → Prop) (code : α → List γ) : Prop :=
  ∀ a b, domain a → domain b → ∀ rest rest', code a ++ rest = code b ++ rest' → a = b ∧ rest = rest'

theorem delimits_of_width {width : Nat} (hWidth : ∀ a, (code a).length = width)
    (hInjective : ∀ a b, domain a → domain b → code a = code b → a = b) : Delimits domain code := by
  intro a b ha hb rest rest' h
  obtain ⟨hSame, hRest⟩ := List.append_inj h ((hWidth a).trans (hWidth b).symm)
  exact ⟨hInjective a b ha hb hSame, hRest⟩

theorem delimits_bigEndian (width : Nat) : Delimits (· < 256 ^ width) (Bytes.bigEndian width) :=
  delimits_of_width (Bytes.length_bigEndian width) fun _ _ => Bytes.bigEndian_inj

/-- A length in front delimits what follows it. -/
theorem Delimits.counted {fits : Nat → Prop} {count : Nat → List γ} (h : Delimits fits count) :
    Delimits (fun items : List γ => fits items.length) fun items => count items.length ++ items := by
  intro a b ha hb rest rest' hSame
  rw [List.append_assoc, List.append_assoc] at hSame
  obtain ⟨hLength, hItems⟩ := h _ _ ha hb _ _ hSame
  exact List.append_inj hItems hLength

/-- One code after another. -/
theorem Delimits.pair {domain' : β → Prop} {code' : β → List γ} (h : Delimits domain code)
    (h' : Delimits domain' code') : Delimits (fun pair : α × β => domain pair.1 ∧ domain' pair.2)
      fun pair => code pair.1 ++ code' pair.2 := by
  intro a b ha hb rest rest' hSame
  rw [List.append_assoc, List.append_assoc] at hSame
  obtain ⟨hFirst, hTail⟩ := h _ _ ha.1 hb.1 _ _ hSame
  obtain ⟨hSecond, hRest⟩ := h' _ _ ha.2 hb.2 _ _ hTail
  exact ⟨Prod.ext hFirst hSecond, hRest⟩

/-- Values that are read through a function with an inverse on the domain. -/
theorem Delimits.comap {f : β → α} (h : Delimits domain code) (hf : Function.Injective f) :
    Delimits (fun b => domain (f b)) fun b => code (f b) := by
  intro a b ha hb rest rest' hSame
  obtain ⟨hValue, hRest⟩ := h _ _ ha hb _ _ hSame
  exact ⟨hf hValue, hRest⟩

/-- A stream of values determines them. -/
theorem Delimits.flatMap_inj (h : Delimits domain code) (hNonempty : ∀ a, code a ≠ []) {xs ys : List α}
    (hxs : ∀ x ∈ xs, domain x) (hys : ∀ y ∈ ys, domain y) (hSame : xs.flatMap code = ys.flatMap code) :
    xs = ys := by
  induction xs generalizing ys with
  | nil =>
      cases ys with
      | nil => rfl
      | cons y ys =>
          rw [List.flatMap_nil, List.flatMap_cons, eq_comm, List.append_eq_nil_iff] at hSame
          exact absurd hSame.1 (hNonempty y)
  | cons x xs ih =>
      cases ys with
      | nil =>
          rw [List.flatMap_nil, List.flatMap_cons, List.append_eq_nil_iff] at hSame
          exact absurd hSame.1 (hNonempty x)
      | cons y ys =>
          rw [List.forall_mem_cons] at hxs hys
          rw [List.flatMap_cons, List.flatMap_cons] at hSame
          obtain ⟨rfl, hRest⟩ := h x y hxs.1 hys.1 _ _ hSame
          rw [ih hxs.2 hys.2 hRest]

/-- A number of values in front delimits them. -/
theorem Delimits.many {fits : Nat → Prop} {count : Nat → List γ} (hCount : Delimits fits count)
    (h : Delimits domain code) :
    Delimits (fun items : List α => fits items.length ∧ ∀ item ∈ items, domain item)
      fun items => count items.length ++ items.flatMap code := by
  intro xs ys hxs hys rest rest' hSame
  rw [List.append_assoc, List.append_assoc] at hSame
  obtain ⟨hLength, hItems⟩ := hCount _ _ hxs.1 hys.1 _ _ hSame
  clear hSame
  replace hxs := hxs.2
  replace hys := hys.2
  induction xs generalizing ys with
  | nil =>
      rw [List.length_nil, eq_comm, List.length_eq_zero_iff] at hLength
      subst hLength
      exact ⟨rfl, hItems⟩
  | cons x xs ih =>
      cases ys with
      | nil => cases hLength
      | cons y ys =>
          rw [List.forall_mem_cons] at hxs hys
          rw [List.flatMap_cons, List.flatMap_cons, List.append_assoc, List.append_assoc] at hItems
          obtain ⟨rfl, hTail⟩ := h x y hxs.1 hys.1 _ _ hItems
          obtain ⟨rfl, hRest⟩ := ih ys (Nat.succ.inj hLength) hTail hxs.2 hys.2
          exact ⟨rfl, hRest⟩

end Framing
