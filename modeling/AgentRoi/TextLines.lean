/-
A text file read line by line.

Python's text mode translates `\r\n` and `\r` to `\n` and yields the pieces
between them; the last piece counts as a line only when it is not empty.  The
lines are given without their terminator, which every reader here ignores.

* `fileLines_concat` — a line written after a text that ends its last line is
  one line more.
-/
import AgentRoi.PyStr

namespace AgentRoi

/-- Universal newlines. -/
def universalNewlines : Str → Str
  | [] => []
  | 13 :: 10 :: r => 10 :: universalNewlines r
  | c :: r => (if c = 13 then 10 else c) :: universalNewlines r

/-- The pieces between line feeds. -/
def splitLines : Str → List Str
  | [] => []
  | c :: r =>
    if c = 10 then [] :: splitLines r
    else match splitLines r with
      | [] => [[c]]
      | l :: ls => (c :: l) :: ls

/-- The lines a text file yields. -/
def fileLines (content : Str) : List Str := splitLines (universalNewlines content)

/-- The last line of the text is ended. -/
def EndsLine (content : Str) : Prop := content = [] ∨ content.getLast? = some 10

instance (content : Str) : Decidable (EndsLine content) :=
  inferInstanceAs (Decidable (_ ∨ _))

theorem universalNewlines_cons {c : Nat} {r : Str} (h : c = 13 → r.head? ≠ some 10) :
    universalNewlines (c :: r) = (if c = 13 then 10 else c) :: universalNewlines r := by
  rw [universalNewlines]
  rintro r' rfl rfl
  exact h rfl rfl

theorem universalNewlines_append_lf (s t : Str) :
    universalNewlines (s ++ 10 :: t) =
      universalNewlines (s ++ [10]) ++ universalNewlines t := by
  induction s using universalNewlines.induct with
  | case1 => simp [universalNewlines]
  | case2 r ih => simp [universalNewlines, ih]
  | case3 c r hne ih =>
    cases r with
    | nil =>
      by_cases hc : c = 13
      · subst hc
        simp [universalNewlines]
      · simp [universalNewlines, hc]
    | cons d r =>
      have hd : c = 13 → d ≠ 10 := fun hc hd => hne r hc (by rw [hd])
      have hstep : ∀ q : Str, universalNewlines (c :: d :: q) =
          (if c = 13 then 10 else c) :: universalNewlines (d :: q) :=
        fun q => universalNewlines_cons (by simpa using hd)
      simp only [List.cons_append] at ih ⊢
      rw [hstep, hstep, ih]
      rfl

/-- The translation keeps a line feed at the end. -/
theorem universalNewlines_ends (s : Str) : ∃ u, universalNewlines (s ++ [10]) = u ++ [10] := by
  induction s using universalNewlines.induct with
  | case1 => exact ⟨[], rfl⟩
  | case2 r ih =>
    obtain ⟨u, hu⟩ := ih
    exact ⟨10 :: u, by simp [universalNewlines, hu]⟩
  | case3 c r hne ih =>
    obtain ⟨u, hu⟩ := ih
    cases r with
    | nil =>
      by_cases hc : c = 13
      · exact ⟨[], by simp [universalNewlines, hc]⟩
      · exact ⟨[c], by simp [universalNewlines, hc]⟩
    | cons d r =>
      have hd : c = 13 → d ≠ 10 := fun hc hd => hne r hc (by rw [hd])
      simp only [List.cons_append] at hu ⊢
      exact ⟨(if c = 13 then 10 else c) :: u, by
        rw [universalNewlines_cons (by simpa using hd), hu]; rfl⟩

theorem universalNewlines_of_printable {l : Str} (h : ∀ c ∈ l, 32 ≤ c) :
    universalNewlines (l ++ [10]) = l ++ [10] := by
  induction l with
  | nil => rfl
  | cons c l ih =>
    have hc := h c (by simp)
    have hl := ih fun d hd => h d (List.mem_cons_of_mem _ hd)
    rw [List.cons_append, universalNewlines, hl]
    · simp [show c ≠ 13 by omega]
    · intro r h1
      omega

theorem splitLines_append_lf (s t : Str) :
    splitLines (s ++ 10 :: t) = splitLines (s ++ [10]) ++ splitLines t := by
  induction s with
  | nil => simp [splitLines]
  | cons c s ih =>
    by_cases hc : c = 10
    · simp [splitLines, hc, ih]
    · have hne : splitLines (s ++ [10]) ≠ [] := by
        cases s with
        | nil => simp [splitLines]
        | cons d s =>
          simp only [List.cons_append, splitLines]
          split
          · simp
          · split <;> simp
      obtain ⟨l, ls, hl⟩ := List.exists_cons_of_ne_nil hne
      simp [splitLines, hc, ih, hl]

theorem splitLines_of_printable {l : Str} (h : ∀ c ∈ l, 32 ≤ c) :
    splitLines (l ++ [10]) = [l] := by
  induction l with
  | nil => rfl
  | cons c l ih =>
    have hc := h c (by simp)
    have hl := ih fun d hd => h d (List.mem_cons_of_mem _ hd)
    simp [splitLines, show c ≠ 10 by omega, hl]

@[simp] theorem fileLines_nil : fileLines [] = [] := rfl

/-- Writing one more line to a text that ends its last line. -/
theorem fileLines_concat {content l : Str} (hc : EndsLine content)
    (hl : ∀ c ∈ l, 32 ≤ c) : fileLines (content ++ (l ++ [10])) = fileLines content ++ [l] := by
  have hline : fileLines (l ++ [10]) = [l] := by
    rw [fileLines, universalNewlines_of_printable hl, splitLines_of_printable hl]
  rcases hc with rfl | hc
  · simpa using hline
  · obtain ⟨s, rfl⟩ : ∃ s, content = s ++ [10] := by
      obtain ⟨s, c, rfl⟩ : ∃ s c, content = s ++ [c] := by
        rcases List.eq_nil_or_concat content with rfl | ⟨s, c, rfl⟩
        · simp at hc
        · exact ⟨s, c, by simp⟩
      simp only [List.getLast?_append, List.getLast?_singleton, Option.some_or,
        Option.some.injEq] at hc
      exact ⟨s, by rw [hc]⟩
    obtain ⟨u, hu⟩ := universalNewlines_ends s
    rw [fileLines, List.append_assoc, List.singleton_append, universalNewlines_append_lf, hu,
      fileLines, hu, List.append_assoc, List.singleton_append, splitLines_append_lf]
    exact congrArg _ hline

end AgentRoi
