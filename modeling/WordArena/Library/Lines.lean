import Mathlib.Data.List.Basic

/-! Texts as lines. A text is cut into the lines that end in it and an unfinished one;
cuts of a text and of what follows it fit together. -/
namespace Lines

universe u

variable {α : Type u} {sep : α} {text more rest rest' : List α} {lines lines' : List (List α)}

/-- A text is some lines, each with its end, and the beginning of another one. -/
structure Cut (sep : α) (text : List α) (lines : List (List α)) (rest : List α) : Prop where
  eq : text = lines.flatMap (· ++ [sep]) ++ rest
  ended : ∀ line ∈ lines, sep ∉ line
  unfinished : sep ∉ rest

theorem cut_nil (sep : α) : Cut sep [] [] [] := ⟨rfl, nofun, nofun⟩

/-- What follows a text continues its last line. -/
theorem Cut.append (h : Cut sep text lines rest) (h' : Cut sep (rest ++ more) lines' rest') :
    Cut sep (text ++ more) (lines ++ lines') rest' := by
  constructor
  · rw [h.eq, List.append_assoc, h'.eq, List.flatMap_append, List.append_assoc]
  · intro line hLine
    rcases List.mem_append.mp hLine with hOld | hNew
    · exact h.ended line hOld
    · exact h'.ended line hNew
  · exact h'.unfinished

/-- A cut is the split at the line ends. -/
theorem Cut.splitOn [DecidableEq α] (h : Cut sep text lines rest) :
    text.splitOn sep = lines ++ [rest] := by
  obtain ⟨rfl, hEnded, hRest⟩ := h
  induction lines with
  | nil => simpa using List.splitOn_eq_singleton hRest
  | cons line lines ih =>
      have hLine : sep ∉ line := hEnded line List.mem_cons_self
      rw [List.flatMap_cons, List.append_assoc, List.append_assoc, List.singleton_append,
        List.splitOn_append_cons_self, List.splitOn_eq_singleton hLine,
        ih fun other hOther => hEnded other (List.mem_cons_of_mem line hOther)]
      rfl

/-- There are as many line ends as lines. -/
theorem Cut.count [DecidableEq α] (h : Cut sep text lines rest) :
    text.count sep = lines.length := by
  obtain ⟨rfl, hEnded, hRest⟩ := h
  rw [List.count_append, List.count_eq_zero_of_not_mem hRest]
  induction lines with
  | nil => rfl
  | cons line lines ih =>
      have hLine : line.count sep = 0 :=
        List.count_eq_zero_of_not_mem (hEnded line List.mem_cons_self)
      have hOthers := ih fun other hOther => hEnded other (List.mem_cons_of_mem line hOther)
      simp only [List.flatMap_cons, List.count_append, List.count_singleton_self, hLine,
        List.length_cons]
      omega

end Lines
