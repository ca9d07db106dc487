import Mathlib.Data.List.Infix

/-! Replacing patterns in a text by a marker between two fences. Text that holds neither
fence never reaches across a marker, so it was there before. -/
namespace Replace

universe u

variable {α : Type u} [DecidableEq α]

/-- One pass from left to right. The first argument counts the symbols of a pattern that
was found and are still to be left out. -/
def scan (pattern marker : List α) : Nat → List α → List α
  | _, [] => []
  | skip + 1, _ :: rest => scan pattern marker skip rest
  | 0, a :: rest =>
      if pattern.isPrefixOf (a :: rest) then marker ++ scan pattern marker (pattern.length - 1) rest
      else a :: scan pattern marker 0 rest

def replace (marker value pattern : List α) : List α := scan pattern marker 0 value

/-- One pass for each pattern. -/
def replaceAll (patterns : List (List α)) (marker value : List α) : List α :=
  patterns.foldl (replace marker) value

section Fences

/-- A marker between two fences. -/
structure Fenced (left right : α) (body marker : List α) : Prop where
  eq : marker = left :: (body ++ [right])

/-- Text without fences that is not part of the marker. -/
structure Plain (left right : α) (body text : List α) : Prop where
  nonempty : text ≠ []
  left : left ∉ text
  right : right ∉ text
  body : ¬ text <:+: body

variable {left right : α} {body marker pattern text value : List α}

omit [DecidableEq α] in
/-- A prefix without a symbol ends before it. -/
theorem prefix_of_fence {c : α} {before after : List α} (hFence : c ∉ text)
    (h : text <+: before ++ c :: after) : text <+: before := by
  have hLong : before ++ [c] <+: before ++ c :: after := by
    rw [List.prefix_append_right_inj]
    exact List.cons_prefix_cons.mpr ⟨rfl, List.nil_prefix⟩
  rcases List.prefix_or_prefix_of_prefix h hLong with hShort | hPart
  · rcases List.prefix_concat_iff.mp hShort with rfl | hShort
    · exact absurd (List.mem_append_right before List.mem_cons_self) hFence
    · exact hShort
  · exact absurd (hPart.subset (List.mem_append_right before List.mem_cons_self)) hFence

omit [DecidableEq α] in
/-- Text without a symbol lies before it or after it. -/
theorem infix_of_fence {c : α} {before after : List α} (hFence : c ∉ text)
    (h : text <:+: before ++ c :: after) : text <:+: before ∨ text <:+: after := by
  induction before with
  | nil =>
      rcases List.infix_cons_iff.mp h with hPrefix | hInfix
      · exact .inl (prefix_of_fence hFence hPrefix).isInfix
      · exact .inr hInfix
  | cons b before ih =>
      rw [List.cons_append] at h
      rcases List.infix_cons_iff.mp h with hPrefix | hInfix
      · exact .inl (prefix_of_fence hFence hPrefix).isInfix
      · rcases ih hInfix with hBefore | hAfter
        · exact .inl (hBefore.trans (List.suffix_cons b before).isInfix)
        · exact .inr hAfter

end Fences

section Passes

variable {left right : α} {body marker pattern text value : List α}

/-- A prefix without a fence is older than the pass. -/
theorem prefix_scan (hMarker : Fenced left right body marker) (hFence : left ∉ text) :
    text <+: scan pattern marker 0 value → text <+: value := by
  induction value generalizing text with
  | nil => exact id
  | cons a rest ih =>
      intro h
      cases text with
      | nil => exact List.nil_prefix
      | cons b text =>
          rw [scan] at h
          split_ifs at h with hFound
          · rw [hMarker.eq, List.cons_append] at h
            obtain ⟨rfl, -⟩ := List.cons_prefix_cons.mp h
            exact absurd List.mem_cons_self hFence
          · obtain ⟨rfl, hRest⟩ := List.cons_prefix_cons.mp h
            have hTail : left ∉ text := fun hMem => hFence (List.mem_cons_of_mem _ hMem)
            exact List.cons_prefix_cons.mpr ⟨rfl, ih hTail hRest⟩

/-- Plain text after a pass was there before, and is not the pattern. -/
theorem infix_scan (hMarker : Fenced left right body marker) (hPlain : Plain left right body text)
    {skip : Nat} : text <:+: scan pattern marker skip value → text <:+: value ∧ text ≠ pattern := by
  induction value generalizing skip with
  | nil =>
      intro h
      rw [scan, List.infix_nil] at h
      exact absurd h hPlain.nonempty
  | cons a rest ih =>
      have hStep : ∀ skip, text <:+: scan pattern marker skip rest →
          text <:+: a :: rest ∧ text ≠ pattern := fun skip h =>
        ⟨(ih h).1.trans (List.suffix_cons a rest).isInfix, (ih h).2⟩
      intro h
      cases skip with
      | succ skip => exact hStep skip h
      | zero =>
          rw [scan] at h
          split_ifs at h with hFound
          · have hSplit : marker ++ scan pattern marker (pattern.length - 1) rest =
                left :: (body ++ right :: scan pattern marker (pattern.length - 1) rest) := by
              nth_rewrite 1 [hMarker.eq]
              rw [List.cons_append, List.append_assoc, List.singleton_append]
            rw [hSplit] at h
            rcases List.infix_cons_iff.mp h with hPrefix | hInner
            · have hNil : text <+: [] := prefix_of_fence hPlain.left hPrefix
              exact absurd (List.prefix_nil.mp hNil) hPlain.nonempty
            · rcases infix_of_fence hPlain.right hInner with hBody | hAfter
              · exact absurd hBody hPlain.body
              · exact hStep _ hAfter
          · rcases List.infix_cons_iff.mp h with hPrefix | hAfter
            · have hBefore : text <+: a :: rest := by
                cases hText : text with
                | nil => exact absurd hText hPlain.nonempty
                | cons b tail =>
                    rw [hText] at hPrefix
                    obtain ⟨rfl, hTail⟩ := List.cons_prefix_cons.mp hPrefix
                    refine List.cons_prefix_cons.mpr ⟨rfl, prefix_scan hMarker ?_ hTail⟩
                    exact fun hMem => hPlain.left (by rw [hText]; exact List.mem_cons_of_mem _ hMem)
              refine ⟨hBefore.isInfix, ?_⟩
              rintro rfl
              exact hFound (List.isPrefixOf_iff_prefix.mpr hBefore)
            · exact hStep _ hAfter

/-- A pass that leaves no fence behind has found nothing. -/
theorem scan_eq_of_fence (hMarker : Fenced left right body marker)
    (h : left ∉ scan pattern marker 0 value) : scan pattern marker 0 value = value := by
  induction value with
  | nil => rfl
  | cons a rest ih =>
      rw [scan] at h ⊢
      split_ifs at h ⊢ with hFound
      · rw [hMarker.eq] at h
        exact absurd List.mem_cons_self h
      · rw [ih fun hMem => h (List.mem_cons_of_mem a hMem)]

/-- A pass over text without the pattern changes nothing. -/
theorem scan_eq_of_absent (h : ¬ pattern <:+: value) : scan pattern marker 0 value = value := by
  induction value with
  | nil => rfl
  | cons a rest ih =>
      rw [scan, if_neg fun hFound => h (List.isPrefixOf_iff_prefix.mp hFound).isInfix,
        ih fun hRest => h (hRest.trans (List.suffix_cons a rest).isInfix)]

end Passes

section All

variable {left right : α} {body marker text value : List α} {patterns : List (List α)}

theorem prefix_replaceAll (hMarker : Fenced left right body marker) (hFence : left ∉ text)
    (h : text <+: replaceAll patterns marker value) : text <+: value := by
  induction patterns generalizing value with
  | nil => exact h
  | cons pattern patterns ih => exact prefix_scan hMarker hFence (ih h)

/-- No pattern is left. -/
theorem infix_replaceAll (hMarker : Fenced left right body marker)
    (hPlain : Plain left right body text) (h : text <:+: replaceAll patterns marker value) :
    text <:+: value ∧ text ∉ patterns := by
  induction patterns generalizing value with
  | nil => exact ⟨h, List.not_mem_nil⟩
  | cons pattern patterns ih =>
      obtain ⟨hRest, hLater⟩ := ih h
      obtain ⟨hBefore, hOther⟩ := infix_scan hMarker hPlain hRest
      refine ⟨hBefore, fun hMem => ?_⟩
      rcases List.mem_cons.mp hMem with hSame | hOld
      · exact hOther hSame
      · exact hLater hOld

theorem replaceAll_eq_of_absent (h : ∀ pattern ∈ patterns, ¬ pattern <:+: value) :
    replaceAll patterns marker value = value := by
  induction patterns with
  | nil => rfl
  | cons pattern patterns ih =>
      rw [replaceAll, List.foldl_cons, replace, scan_eq_of_absent (h pattern List.mem_cons_self)]
      exact ih fun other hOther => h other (List.mem_cons_of_mem pattern hOther)

theorem replaceAll_eq_of_fence (hMarker : Fenced left right body marker)
    (h : left ∉ replaceAll patterns marker value) : replaceAll patterns marker value = value := by
  induction patterns generalizing value with
  | nil => rfl
  | cons pattern patterns ih =>
      have hLater : replaceAll patterns marker (replace marker value pattern) =
          replace marker value pattern := ih h
      have hFirst : replace marker value pattern = value := by
        refine scan_eq_of_fence hMarker ?_
        rw [replaceAll, List.foldl_cons, ← replaceAll, hLater] at h
        exact h
      rw [replaceAll, List.foldl_cons, ← replaceAll, hLater, hFirst]

end All

section Streaming

variable {left right : α} {body marker pattern text value first second : List α}

/-- A pattern begins in one text and ends in the next. -/
def Straddled (pattern first second : List α) : Prop :=
  ∃ before after, before ≠ [] ∧ after ≠ [] ∧ before <:+ first ∧ after <+: second ∧
    pattern = before ++ after

omit [DecidableEq α] in
/-- An end of two texts lies in the second or begins in the first. -/
theorem suffix_append_cases (h : text <:+ first ++ second) :
    text <:+ second ∨ ∃ part, part ≠ [] ∧ part <:+ first ∧ text = part ++ second := by
  rcases List.suffix_or_suffix_of_suffix h (List.suffix_append first second) with
    hShort | ⟨part, rfl⟩
  · exact .inl hShort
  · by_cases hPart : part = []
    · left
      rw [hPart, List.nil_append]
    · right
      obtain ⟨front, hFront⟩ := h
      rw [← List.append_assoc] at hFront
      exact ⟨part, hPart, ⟨front, List.append_cancel_right hFront⟩, rfl⟩

/-- Without a pattern across their border, two texts are passed one after the other. -/
theorem scan_append {skip : Nat} (hSkip : skip ≤ first.length)
    (h : ¬ Straddled pattern first second) :
    scan pattern marker skip (first ++ second) =
      scan pattern marker skip first ++ scan pattern marker 0 second := by
  induction first generalizing skip with
  | nil =>
      have hZero : skip = 0 := Nat.le_zero.mp hSkip
      simp [hZero, scan]
  | cons a rest ih =>
      have hRest : ¬ Straddled pattern rest second := by
        intro ⟨before, after, hBefore, hAfter, hSuffix, hPrefix, hEq⟩
        exact h ⟨before, after, hBefore, hAfter, hSuffix.trans (List.suffix_cons a rest), hPrefix,
          hEq⟩
      cases skip with
      | succ skip => exact ih (Nat.le_of_succ_le_succ hSkip) hRest
      | zero =>
          have hSame : pattern.isPrefixOf (a :: (rest ++ second)) =
              pattern.isPrefixOf (a :: rest) := by
            rw [Bool.eq_iff_iff, List.isPrefixOf_iff_prefix, List.isPrefixOf_iff_prefix,
              ← List.cons_append]
            constructor
            · intro hFound
              rcases List.prefix_or_prefix_of_prefix hFound (List.prefix_append (a :: rest) second)
                with hShort | ⟨after, rfl⟩
              · exact hShort
              · by_cases hAfter : after = []
                · simp [hAfter]
                · have hPrefix : after <+: second := (List.prefix_append_right_inj _).mp hFound
                  exact absurd ⟨a :: rest, after, by simp, hAfter, List.suffix_refl _, hPrefix, rfl⟩
                    h
            · intro hFound
              exact hFound.trans (List.prefix_append _ _)
          rw [List.cons_append, scan, scan, hSame]
          split_ifs with hFound
          · have hLength := (List.isPrefixOf_iff_prefix.mp hFound).length_le
            rw [List.length_cons] at hLength
            rw [ih (by omega) hRest, List.append_assoc]
          · rw [ih (Nat.zero_le _) hRest, List.cons_append]

/-- The marker is passed over. -/
theorem scan_marker (hMarker : Fenced left right body marker)
    (hPlain : Plain left right body pattern) :
    scan pattern marker 0 (marker ++ value) = marker ++ scan pattern marker 0 value := by
  have hRight : ∀ {before : List α}, before ≠ [] → before <:+ marker → right ∈ before := by
    intro before hBefore hSuffix
    rw [hMarker.eq, ← List.cons_append] at hSuffix
    rcases List.suffix_concat_iff.mp hSuffix with hNil | ⟨front, rfl, -⟩
    · exact absurd hNil hBefore
    · exact List.mem_append_right front List.mem_cons_self
  have hAbsent : ¬ pattern <:+: marker := by
    intro hFound
    rw [hMarker.eq, List.infix_cons_iff] at hFound
    rcases hFound with hPrefix | hInner
    · cases pattern with
      | nil => exact hPlain.nonempty rfl
      | cons b tail =>
          obtain ⟨rfl, -⟩ := List.cons_prefix_cons.mp hPrefix
          exact hPlain.left List.mem_cons_self
    · rcases infix_of_fence hPlain.right hInner with hBody | hEnd
      · exact hPlain.body hBody
      · exact hPlain.nonempty (List.infix_nil.mp hEnd)
  rw [scan_append (Nat.zero_le _), scan_eq_of_absent hAbsent]
  intro ⟨before, after, hBefore, _, hSuffix, _, hEq⟩
  apply hPlain.right
  rw [hEq]
  exact List.mem_append_left after (hRight hBefore hSuffix)

/-- A pass over what an earlier pass has left of a text, and over the text after it, is a
pass over both. -/
theorem scan_scan_append (hMarker : Fenced left right body marker)
    (hPlain : Plain left right body pattern) {skip : Nat} (hSkip : skip ≤ first.length) :
    scan pattern marker 0 (scan pattern marker skip first ++ second) =
      scan pattern marker skip (first ++ second) := by
  induction first generalizing skip with
  | nil =>
      have hZero : skip = 0 := Nat.le_zero.mp hSkip
      simp [hZero, scan]
  | cons a rest ih =>
      cases skip with
      | succ skip => exact ih (Nat.le_of_succ_le_succ hSkip)
      | zero =>
          rw [scan]
          split_ifs with hFound
          · have hPrefix := List.isPrefixOf_iff_prefix.mp hFound
            have hLength := hPrefix.length_le
            rw [List.length_cons] at hLength
            have hLonger : pattern.isPrefixOf (a :: (rest ++ second)) = true :=
              List.isPrefixOf_iff_prefix.mpr (hPrefix.trans (List.prefix_append _ second))
            rw [List.append_assoc, scan_marker hMarker hPlain, ih (by omega), List.cons_append,
              scan, if_pos hLonger]
          · have hNot : ¬ pattern <+: a :: rest := fun h =>
              hFound (List.isPrefixOf_iff_prefix.mpr h)
            rw [List.cons_append, List.cons_append, scan, scan]
            -- A pattern that only ends in the later text leaves no room for another one.
            have hSame : (pattern <+: a :: (scan pattern marker 0 rest ++ second) ∨
                pattern <+: a :: (rest ++ second)) → scan pattern marker 0 rest = rest := by
              rintro (hLeft | hRight)
              · rw [← List.cons_append] at hLeft
                rcases List.prefix_or_prefix_of_prefix hLeft (List.prefix_append _ second) with
                  hShort | hLong
                · cases pattern with
                  | nil => exact absurd rfl hPlain.nonempty
                  | cons b tail =>
                      obtain ⟨rfl, hTail⟩ := List.cons_prefix_cons.mp hShort
                      have hFence : left ∉ tail := fun h => hPlain.left (List.mem_cons_of_mem _ h)
                      exact absurd (List.cons_prefix_cons.mpr ⟨rfl, prefix_scan hMarker hFence hTail⟩)
                        hNot
                · apply scan_eq_of_fence hMarker
                  exact fun h => hPlain.left (hLong.subset (List.mem_cons_of_mem a h))
              · rw [← List.cons_append] at hRight
                rcases List.prefix_or_prefix_of_prefix hRight (List.prefix_append _ second) with
                  hShort | hLong
                · exact absurd hShort hNot
                · apply scan_eq_of_absent
                  intro hInfix
                  have hShorter := hInfix.length_le
                  have hLonger := hLong.length_le
                  rw [List.length_cons] at hLonger
                  omega
            by_cases hEnds : pattern <+: a :: (scan pattern marker 0 rest ++ second) ∨
                pattern <+: a :: (rest ++ second)
            · rw [hSame hEnds]
            · rw [not_or] at hEnds
              rw [if_neg fun h => hEnds.1 (List.isPrefixOf_iff_prefix.mp h),
                if_neg fun h => hEnds.2 (List.isPrefixOf_iff_prefix.mp h), ih (Nat.zero_le _)]

/-- The end of what a pass has left, when it holds no fence, is the end of the text. -/
theorem suffix_of_scan (hMarker : Fenced left right body marker) (hLeft : left ∉ text)
    (hRight : right ∉ text) {skip : Nat} :
    text <:+ scan pattern marker skip value → text <:+ value := by
  induction value generalizing skip with
  | nil => exact id
  | cons a rest ih =>
      intro h
      cases skip with
      | succ skip => exact (ih h).trans (List.suffix_cons a rest)
      | zero =>
          rw [scan] at h
          split_ifs at h with hFound
          · have hLate : text <:+ scan pattern marker (pattern.length - 1) rest := by
              rcases suffix_append_cases h with hShort | ⟨part, hPart, hEnd, rfl⟩
              · exact hShort
              · rw [hMarker.eq, ← List.cons_append] at hEnd
                rcases List.suffix_concat_iff.mp hEnd with hNil | ⟨front, rfl, -⟩
                · exact absurd hNil hPart
                · exact absurd (by simp) hRight
            exact (ih hLate).trans (List.suffix_cons a rest)
          · rcases List.suffix_cons_iff.mp h with rfl | hShort
            · rw [scan_eq_of_fence hMarker fun h => hLeft (List.mem_cons_of_mem a h)]
            · exact (ih hShort).trans (List.suffix_cons a rest)

/-- No part of the pattern is both its beginning and its end. -/
def Borderless (pattern : List α) : Prop :=
  ∀ border, border ≠ [] → border ≠ pattern → border <+: pattern → ¬ border <:+ pattern

omit [DecidableEq α] in
/-- A pattern that does not repeat its first symbol. -/
theorem borderless_cons {a : α} {tail : List α} (h : a ∉ tail) : Borderless (a :: tail) := by
  intro border hNonempty hProper hPrefix hSuffix
  cases border with
  | nil => exact hNonempty rfl
  | cons b rest =>
      obtain ⟨rfl, -⟩ := List.cons_prefix_cons.mp hPrefix
      rcases List.suffix_cons_iff.mp hSuffix with hSame | hTail
      · exact hProper hSame
      · exact h (hTail.subset List.mem_cons_self)

/-- A pass keeps the beginning of a pattern at the end of a text. -/
theorem suffix_scan (hBorder : Borderless pattern) (hPrefix : text <+: pattern)
    (hProper : text ≠ pattern) {skip : Nat} :
    text <:+ value.drop skip → text <:+ scan pattern marker skip value := by
  have hShort : text.length < pattern.length :=
    lt_of_le_of_ne hPrefix.length_le fun h => hProper (hPrefix.eq_of_length h)
  induction value generalizing skip with
  | nil =>
      intro h
      rw [List.drop_nil] at h
      exact h.trans List.nil_suffix
  | cons a rest ih =>
      intro h
      cases skip with
      | succ skip => exact ih h
      | zero =>
          rw [List.drop_zero] at h
          rw [scan]
          split_ifs with hFound
          · obtain ⟨after, hAfter⟩ := List.isPrefixOf_iff_prefix.mp hFound
            have hRest : rest.drop (pattern.length - 1) = after := by
              have hDrop := congrArg (List.drop pattern.length) hAfter
              rw [List.drop_left] at hDrop
              cases hPattern : pattern with
              | nil => simp [hPattern] at hShort
              | cons b tail => simpa [hPattern] using hDrop.symm
            have hLate : text <:+ rest.drop (pattern.length - 1) := by
              rw [← hAfter] at h
              rcases suffix_append_cases h with hLate | ⟨part, hPart, hEnd, hText⟩
              · exact hRest ▸ hLate
              · have hBegin : part <+: pattern :=
                  (List.prefix_append part after).trans (hText ▸ hPrefix)
                have hLess : part ≠ pattern := by
                  rintro rfl
                  rw [hText, List.length_append] at hShort
                  omega
                exact absurd hEnd (hBorder part hPart hLess hBegin)
            exact (ih hLate).trans (List.suffix_append marker _)
          · rcases List.suffix_cons_iff.mp h with hWhole | hLate
            · have hAbsent : ¬ pattern <:+: rest := by
                intro hInfix
                have := hInfix.length_le
                rw [hWhole, List.length_cons] at hShort
                omega
              rw [scan_eq_of_absent hAbsent, ← hWhole]
            · have hRest : text <:+ rest.drop 0 := hLate
              exact (ih hRest).trans (List.suffix_cons a _)

/-- What a stream has shown and what it holds back of it: together they are the pass over
the input, and every beginning of a pattern at the end of the input is held back. -/
structure Follows (pattern marker input written buffer : List α) : Prop where
  eq : written ++ buffer = scan pattern marker 0 input
  pending : ∀ text, text <+: pattern → text ≠ pattern → text <:+ input → text <:+ buffer

variable {input written buffer bytes : List α}

theorem follows_nil (pattern marker : List α) : Follows pattern marker [] [] [] :=
  ⟨rfl, fun _ _ _ h => h⟩

/-- No pattern is held back. -/
theorem Follows.absent (hMarker : Fenced left right body marker)
    (hPlain : Plain left right body pattern) (h : Follows pattern marker input written buffer) :
    ¬ pattern <:+: buffer := by
  intro hFound
  have hAll : pattern <:+: scan pattern marker 0 input := by
    rw [← h.eq]
    exact hFound.trans (List.suffix_append written buffer).isInfix
  exact (infix_scan hMarker hPlain hAll).2 rfl

omit [DecidableEq α] in
/-- A beginning of the pattern without fences. -/
theorem Plain.beginning (hPlain : Plain left right body pattern) (h : text <+: pattern) :
    left ∉ text ∧ right ∉ text :=
  ⟨fun hMem => hPlain.left (h.subset hMem), fun hMem => hPlain.right (h.subset hMem)⟩

/-- A beginning of the pattern that ends what was shown does not reach over the buffer. -/
theorem Follows.not_over (hMarker : Fenced left right body marker)
    (hPlain : Plain left right body pattern) (h : Follows pattern marker input written buffer)
    (hPrefix : text ++ buffer <+: pattern) (hProper : text ++ buffer ≠ pattern)
    (hWritten : text <:+ written) : text = [] := by
  obtain ⟨hLeft, hRight⟩ := hPlain.beginning hPrefix
  have hEnd : text ++ buffer <:+ scan pattern marker 0 input := by
    obtain ⟨front, hFront⟩ := hWritten
    exact ⟨front, by rw [← h.eq, ← hFront, List.append_assoc]⟩
  have hBuffer := h.pending _ hPrefix hProper (suffix_of_scan hMarker hLeft hRight hEnd)
  have hLength := hBuffer.length_le
  rw [List.length_append] at hLength
  exact List.length_eq_zero_iff.mp (by omega)

/-- What arrives is passed together with what was held back. -/
theorem Follows.append (hMarker : Fenced left right body marker)
    (hPlain : Plain left right body pattern) (hBorder : Borderless pattern)
    (h : Follows pattern marker input written buffer) (bytes : List α) :
    Follows pattern marker (input ++ bytes) written
      (scan pattern marker 0 (buffer ++ bytes)) := by
  have hStraddled : ¬ Straddled pattern written (buffer ++ bytes) := by
    intro ⟨before, after, hBefore, hAfter, hSuffix, hPrefix, hEq⟩
    rcases List.prefix_or_prefix_of_prefix hPrefix (List.prefix_append buffer bytes) with
      hShort | ⟨late, rfl⟩
    · have hFound : pattern <:+: scan pattern marker 0 input := by
        rw [← h.eq, hEq, List.infix_append_iff]
        exact .inr (.inr ⟨before, after, rfl, hSuffix, hShort⟩)
      exact (infix_scan hMarker hPlain hFound).2 rfl
    · by_cases hLate : late = []
      · have hFound : pattern <:+: scan pattern marker 0 input := by
          rw [← h.eq, hEq, hLate, List.append_nil, List.infix_append_iff]
          exact .inr (.inr ⟨before, buffer, rfl, hSuffix, List.prefix_refl buffer⟩)
        exact (infix_scan hMarker hPlain hFound).2 rfl
      · apply hBefore
        apply h.not_over hMarker hPlain _ _ hSuffix
        · rw [hEq, ← List.append_assoc]
          exact List.prefix_append _ late
        · rw [hEq, ← List.append_assoc]
          simpa using hLate
  have hAbsent : ¬ pattern <:+: written := by
    intro hFound
    have hAll : pattern <:+: scan pattern marker 0 input := by
      rw [← h.eq]
      exact hFound.trans (List.prefix_append written buffer).isInfix
    exact (infix_scan hMarker hPlain hAll).2 rfl
  have hPassed : written ++ scan pattern marker 0 (buffer ++ bytes) =
      scan pattern marker 0 (input ++ bytes) := by
    calc written ++ scan pattern marker 0 (buffer ++ bytes)
        = scan pattern marker 0 (written ++ (buffer ++ bytes)) := by
          rw [scan_append (Nat.zero_le _) hStraddled, scan_eq_of_absent hAbsent]
      _ = scan pattern marker 0 (scan pattern marker 0 input ++ bytes) := by
          rw [← List.append_assoc, h.eq]
      _ = scan pattern marker 0 (input ++ bytes) :=
          scan_scan_append hMarker hPlain (Nat.zero_le _)
  refine ⟨hPassed, fun text hPrefix hProper hSuffix => ?_⟩
  have hEnd : text <:+ written ++ scan pattern marker 0 (buffer ++ bytes) := by
    rw [hPassed]
    exact suffix_scan hBorder hPrefix hProper (by simpa using hSuffix)
  rcases suffix_append_cases hEnd with hHeld | ⟨part, hPart, hWritten, rfl⟩
  · exact hHeld
  · -- Without a fence the pass has found nothing, and the buffer was too short before.
    have hSame : scan pattern marker 0 (buffer ++ bytes) = buffer ++ bytes := by
      apply scan_eq_of_fence hMarker
      exact fun hMem => (hPlain.beginning hPrefix).1 (List.mem_append_right part hMem)
    rw [hSame, ← List.append_assoc] at hPrefix hProper
    apply absurd _ hPart
    apply h.not_over hMarker hPlain ((List.prefix_append _ bytes).trans hPrefix) _ hWritten
    rintro rfl
    exact hProper (hPrefix.eq_of_length_le (by simp))

/-- The front of a buffer may be shown when no beginning of the pattern that ends the
buffer reaches into it. -/
theorem Follows.show {front rest : List α}
    (h : Follows pattern marker input written (front ++ rest))
    (hHeld : ∀ text, text <+: pattern → text ≠ pattern → text <:+ front ++ rest → text <:+ rest) :
    Follows pattern marker input (written ++ front) rest := by
  refine ⟨by rw [List.append_assoc, h.eq], fun text hPrefix hProper hSuffix => ?_⟩
  exact hHeld text hPrefix hProper (h.pending text hPrefix hProper hSuffix)

end Streaming

end Replace
