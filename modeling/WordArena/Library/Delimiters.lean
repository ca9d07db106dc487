import Mathlib.Data.List.Infix

/-! Texts in pieces that end in delimiters. If no delimiter lies inside another one, the
delimiter that starts first also ends first, so a text can be cut while it arrives. -/
namespace Delimiters

universe u

variable {α : Type u}

section Find

variable [DecidableEq α] {pattern text : List α} {i : Nat}

/-- Where a pattern first occurs. -/
def find (pattern : List α) : List α → Option Nat
  | [] => if pattern = [] then some 0 else none
  | c :: rest =>
      if pattern.isPrefixOf (c :: rest) then some 0 else (find pattern rest).map (· + 1)

theorem find_eq_some : find pattern text = some i ↔
    pattern <+: text.drop i ∧ i ≤ text.length ∧ ∀ j < i, ¬ pattern <+: text.drop j := by
  induction text generalizing i with
  | nil =>
      by_cases hEmpty : pattern = []
      · cases i <;> simp [find, hEmpty]
      · simp [find, hEmpty]
  | cons c rest ih =>
      rw [find]
      by_cases hHere : pattern <+: c :: rest
      · rw [if_pos (List.isPrefixOf_iff_prefix.mpr hHere)]
        cases i with
        | zero => simp [hHere]
        | succ i =>
            constructor
            · intro h
              cases h
            · intro ⟨_, _, hFirst⟩
              exact absurd hHere (hFirst 0 (Nat.succ_pos i))
      · rw [if_neg (by rwa [List.isPrefixOf_iff_prefix])]
        cases i with
        | zero => simp [hHere]
        | succ i =>
            simp only [Option.map_eq_some_iff, ih, Nat.add_right_cancel_iff, exists_eq_right,
              List.drop_succ_cons, List.length_cons, Nat.add_le_add_iff_right]
            constructor
            · intro ⟨hAt, hBound, hFirst⟩
              refine ⟨hAt, hBound, ?_⟩
              intro j hj
              cases j with
              | zero => exact hHere
              | succ j => exact hFirst j (Nat.lt_of_succ_lt_succ hj)
            · intro ⟨hAt, hBound, hFirst⟩
              exact ⟨hAt, hBound, fun j hj => hFirst (j + 1) (Nat.succ_lt_succ hj)⟩

theorem find_eq_none (h : find pattern text = none) (j : Nat) (hj : j ≤ text.length) :
    ¬ pattern <+: text.drop j := by
  induction text generalizing j with
  | nil =>
      rw [find] at h
      split_ifs at h with hEmpty
      simpa using hEmpty
  | cons c rest ih =>
      rw [find] at h
      split_ifs at h with hHere
      rw [List.isPrefixOf_iff_prefix] at hHere
      cases j with
      | zero => exact hHere
      | succ j => exact ih (Option.map_eq_none_iff.mp h) j (Nat.le_of_succ_le_succ hj)

end Find

section First

variable {D : List (List α)} {text more d d' : List α} {i j : Nat}

/-- Words that are not empty and do not lie inside one another. -/
structure InfixFree (D : List (List α)) : Prop where
  nonempty : ∀ d ∈ D, d ≠ []
  apart : ∀ d ∈ D, ∀ d' ∈ D, d <:+: d' → d = d'

/-- The first delimiter of a text, and where it starts. -/
structure First (D : List (List α)) (text : List α) (i : Nat) (d : List α) : Prop where
  mem : d ∈ D
  here : d <+: text.drop i
  first : ∀ j < i, ∀ d' ∈ D, ¬ d' <+: text.drop j

theorem First.bound (h : First D text i d) (hFree : InfixFree D) :
    i + d.length ≤ text.length ∧ 0 < d.length := by
  have hPos := List.length_pos_of_ne_nil (hFree.nonempty d h.mem)
  have hLength := h.here.length_le
  rw [List.length_drop] at hLength
  omega

theorem First.unique (hFree : InfixFree D) (h : First D text i d) (h' : First D text j d') :
    i = j ∧ d = d' := by
  have hSame : i = j := by
    rcases Nat.lt_trichotomy i j with hLess | hSame | hMore
    · exact absurd h.here (h'.first i hLess d h.mem)
    · exact hSame
    · exact absurd h'.here (h.first j hMore d' h'.mem)
  refine ⟨hSame, ?_⟩
  have hHere := h.here
  rw [hSame] at hHere
  rcases List.prefix_or_prefix_of_prefix hHere h'.here with hLeft | hRight
  · exact hFree.apart d h.mem d' h'.mem hLeft.isInfix
  · exact (hFree.apart d' h'.mem d h.mem hRight.isInfix).symm

/-- What starts earlier and ends later has the delimiter inside. -/
theorem First.append (hFree : InfixFree D) (h : First D text i d) (more : List α) :
    First D (text ++ more) i d := by
  obtain ⟨hBound, hPos⟩ := h.bound hFree
  have hHere : d <+: (text ++ more).drop i := by
    rw [List.drop_append_of_le_length (by omega)]
    exact h.here.trans (List.prefix_append _ _)
  refine ⟨h.mem, hHere, ?_⟩
  intro j hj d' hMem hEarly
  rw [List.drop_append_of_le_length (by omega)] at hEarly
  by_cases hInside : d'.length ≤ (text.drop j).length
  · exact h.first j hj d' hMem (List.prefix_of_prefix_length_le hEarly (List.prefix_append _ _) hInside)
  · have hOver : text.drop j <+: d' :=
      List.prefix_of_prefix_length_le (List.prefix_append _ _) hEarly (by omega)
    have hInner : d <:+: d' := by
      have hDrop : (text.drop j).drop (i - j) = text.drop i := by
        rw [List.drop_drop]
        congr 1
        omega
      have hLater : text.drop i <:+ text.drop j := hDrop ▸ List.drop_suffix (i - j) (text.drop j)
      exact h.here.isInfix.trans (hLater.isInfix.trans hOver.isInfix)
    have hLonger := hFree.apart d h.mem d' hMem hInner
    rw [List.length_drop] at hInside
    rw [← hLonger] at hInside
    omega

/-- A piece of a text has its delimiter at its end. -/
theorem First.take (h : First D text i d) :
    First D (text.take (i + d.length)) i d := by
  refine ⟨h.mem, ?_, ?_⟩
  · rw [List.drop_take, Nat.add_sub_cancel_left]
    exact List.prefix_take_iff.mpr ⟨h.here, Nat.le_refl _⟩
  · intro j hj d' hMem hEarly
    apply h.first j hj d' hMem
    exact hEarly.trans (List.IsPrefix.drop (List.take_prefix _ _) j)

/-- The delimiter that is found earliest is the first one. -/
theorem first_of_find [DecidableEq α] (hMem : d ∈ D) (h : find d text = some i)
    (hOthers : ∀ d' ∈ D, ∀ j, find d' text = some j → i ≤ j) : First D text i d := by
  obtain ⟨hHere, hBound, -⟩ := find_eq_some.mp h
  refine ⟨hMem, hHere, ?_⟩
  intro j hj d' hMem'
  cases hFound : find d' text with
  | none => exact find_eq_none hFound j (by omega)
  | some k =>
      have hLater := hOthers d' hMem' k hFound
      exact (find_eq_some.mp hFound).2.2 j (by omega)

theorem not_first_of_find [DecidableEq α] (hFree : InfixFree D)
    (h : ∀ d ∈ D, find d text = none) (i : Nat) (d : List α) : ¬ First D text i d := by
  intro hFirst
  have hBound := (hFirst.bound hFree).1
  exact find_eq_none (h d hFirst.mem) i (by omega) hFirst.here

end First

section Cuts

variable {D : List (List α)} {text more rest rest' : List α} {pieces pieces' : List (List α)}

/-- A text is cut behind its delimiters, and a rest without delimiters is left. -/
inductive Cut (D : List (List α)) : List α → List (List α) → List α → Prop where
  | rest {text : List α} (h : ∀ i d, ¬ First D text i d) : Cut D text [] text
  | piece {text : List α} {pieces : List (List α)} {rest : List α} {i : Nat} {d : List α}
      (h : First D text i d) (later : Cut D (text.drop (i + d.length)) pieces rest) :
      Cut D text (text.take (i + d.length) :: pieces) rest

theorem Cut.unique (hFree : InfixFree D) (h : Cut D text pieces rest)
    (h' : Cut D text pieces' rest') : pieces = pieces' ∧ rest = rest' := by
  induction h generalizing pieces' rest' with
  | rest hNone =>
      cases h' with
      | rest => exact ⟨rfl, rfl⟩
      | piece h => exact absurd h (hNone _ _)
  | piece h later ih =>
      cases h' with
      | rest hNone => exact absurd h (hNone _ _)
      | piece h' later' =>
          obtain ⟨rfl, rfl⟩ := h.unique hFree h'
          obtain ⟨rfl, rfl⟩ := ih later'
          exact ⟨rfl, rfl⟩

/-- A text that arrives in two parts is cut like one that is there at once. -/
theorem Cut.append (hFree : InfixFree D) (h : Cut D text pieces rest)
    (h' : Cut D (rest ++ more) pieces' rest') : Cut D (text ++ more) (pieces ++ pieces') rest' := by
  induction h with
  | rest => exact h'
  | @piece text pieces rest i d h later ih =>
      have hBound := (h.bound hFree).1
      have hTake : (text ++ more).take (i + d.length) = text.take (i + d.length) :=
        List.take_append_of_le_length hBound
      rw [List.cons_append, ← hTake]
      apply Cut.piece (h.append hFree more)
      rw [List.drop_append_of_le_length hBound]
      exact ih h'

theorem cut_nil (hFree : InfixFree D) : Cut D [] [] [] := by
  apply Cut.rest
  intro i d hNone
  have hBound := hNone.bound hFree
  simp only [List.length_nil] at hBound
  omega

theorem First.cut (hFree : InfixFree D) {i : Nat} {d : List α} (h : First D text i d) :
    Cut D (text.take (i + d.length)) [text.take (i + d.length)] [] := by
  have hSame : (text.take (i + d.length)).take (i + d.length) = text.take (i + d.length) := by
    rw [List.take_take, Nat.min_self]
  have hRest : (text.take (i + d.length)).drop (i + d.length) = [] := by
    rw [List.drop_eq_nil_iff, List.length_take]
    omega
  have hDone : Cut D ((text.take (i + d.length)).drop (i + d.length)) [] [] := by
    rw [hRest]
    exact cut_nil hFree
  have hCut := Cut.piece h.take hDone
  rwa [hSame] at hCut

/-- Every text can be cut. -/
theorem exists_cut (hFree : InfixFree D) (text : List α) : ∃ pieces rest, Cut D text pieces rest := by
  induction hLength : text.length using Nat.strong_induction_on generalizing text with
  | _ n ih =>
      by_cases hSome : ∃ i d, First D text i d
      · obtain ⟨i, d, h⟩ := hSome
        obtain ⟨hBound, hPos⟩ := h.bound hFree
        have hShorter : (text.drop (i + d.length)).length < n := by
          rw [List.length_drop]
          omega
        obtain ⟨pieces, rest, hCut⟩ := ih _ hShorter _ rfl
        exact ⟨_, rest, .piece h hCut⟩
      · exact ⟨[], text, .rest fun i d h => hSome ⟨i, d, h⟩⟩

/-- Nothing is left of a text that ends where it was cut last. -/
theorem Cut.complete (hFree : InfixFree D) (h : Cut D text pieces rest) :
    Cut D pieces.flatten pieces [] := by
  induction h with
  | rest => exact cut_nil hFree
  | piece h later ih =>
      rw [List.flatten_cons]
      exact (h.cut hFree).append hFree ih

end Cuts

end Delimiters
