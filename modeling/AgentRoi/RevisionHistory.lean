/-
Rows that carry a revision.

Nothing here mentions the package.  A row is written under the next revision,
or deleted; a row that is written where none is starts at revision 1.  A
history is what stood in one place of a table, newest first.

* `Change`, `RowHistory` — what may happen to a row, one change at a time;
* `Stable` — a revision names one content, which stands without a break;
* `Recreated` — a row was deleted, and written again;
* `stable_iff` — revisions are stable unless a row was re-created;
* `not_recreated` — a row that is never deleted is not.
-/
import Mathlib.Data.List.Chain

namespace AgentRoi

namespace RevisionHistory

variable {ρ : Type} {revision : ρ → ℕ} {history rest later mid earlier tail : List (Option ρ)}
  {old new : Option ρ} {a b : ρ}

/-- The revision of a row that is written. -/
def next (found : Option ℕ) : ℕ := found.elim 1 (· + 1)

inductive Change (revision : ρ → ℕ) : Option ρ → Option ρ → Prop
  | same (row : Option ρ) : Change revision row row
  | written {old : Option ρ} {row : ρ} : revision row = next (old.map revision) →
      Change revision old (some row)
  | deleted {old : Option ρ} : Change revision old none

inductive RowHistory (revision : ρ → ℕ) : List (Option ρ) → Prop
  | init : RowHistory revision [none]
  | step {old new : Option ρ} {rest : List (Option ρ)} : RowHistory revision (old :: rest) →
      Change revision old new → RowHistory revision (new :: old :: rest)

/-- A row that is found again under a revision is the same, and was there all
the time. -/
def Stable (revision : ρ → ℕ) (history : List (Option ρ)) : Prop :=
  ∀ later mid earlier a b, history = later ++ some a :: (mid ++ some b :: earlier) →
    revision a = revision b → a = b ∧ ∀ row ∈ mid, row = some a

def Recreated (history : List (Option ρ)) : Prop :=
  ∃ later mid earlier a b, history = later ++ some a :: (mid ++ some b :: earlier) ∧ none ∈ mid

theorem RowHistory.none_mem (h : RowHistory revision history) : none ∈ history := by
  induction h with
  | init => exact List.mem_singleton.mpr rfl
  | step _ _ ih => exact List.mem_cons_of_mem _ ih

theorem RowHistory.last_change (h : RowHistory revision (new :: old :: rest)) :
    RowHistory revision (old :: rest) ∧ Change revision old new := by
  cases h with
  | step hold hchange => exact ⟨hold, hchange⟩

/-- The history up to an earlier time. -/
theorem RowHistory.before (h : RowHistory revision (later ++ old :: rest)) :
    RowHistory revision (old :: rest) := by
  induction later with
  | nil => exact h
  | cons new later ih =>
    cases later with
    | nil => exact h.last_change.1
    | cons newer later => exact ih h.last_change.1

/-- A row that is there, after a time when it was not, was created. -/
theorem RowHistory.created (h : RowHistory revision (some a :: (mid ++ none :: tail))) :
    ∃ before b after, some a :: (mid ++ none :: tail) = before ++ some b :: (after ++ none :: tail) ∧
      revision b = 1 := by
  induction mid generalizing a with
  | nil =>
    refine ⟨[], a, [], rfl, ?_⟩
    cases h.last_change.2 with
    | written hrevision => exact hrevision
  | cons row mid ih =>
    cases row with
    | none =>
      refine ⟨[], a, none :: mid, rfl, ?_⟩
      cases h.last_change.2 with
      | written hrevision => exact hrevision
    | some c =>
      obtain ⟨before, b, after, heq, hrevision⟩ := ih h.last_change.1
      exact ⟨some a :: before, b, after, by rw [List.cons_append, List.cons_append, heq], hrevision⟩

/-- While a row is there its revision only grows, by one at each change. -/
theorem RowHistory.grows (h : RowHistory revision (some a :: (mid ++ some b :: earlier)))
    (hmid : none ∉ mid) : revision b ≤ revision a ∧
      (revision a = revision b → a = b ∧ ∀ row ∈ mid, row = some a) := by
  induction mid generalizing a with
  | nil =>
    cases h.last_change.2 with
    | same => exact ⟨Nat.le_refl _, fun _ => ⟨rfl, fun row hrow => absurd hrow List.not_mem_nil⟩⟩
    | written hrevision =>
      have hnext : revision a = revision b + 1 := hrevision
      exact ⟨by omega, fun heq => by omega⟩
  | cons row mid ih =>
    rw [List.mem_cons, not_or] at hmid
    cases row with
    | none => exact absurd rfl hmid.1
    | some c =>
      obtain ⟨hle, hsame⟩ := ih h.last_change.1 hmid.2
      cases h.last_change.2 with
      | same =>
        refine ⟨hle, fun heq => ⟨(hsame heq).1, fun row hrow => ?_⟩⟩
        rcases List.mem_cons.mp hrow with rfl | hrow
        · rfl
        · exact (hsame heq).2 row hrow
      | written hrevision =>
        have hnext : revision a = revision c + 1 := hrevision
        exact ⟨by omega, fun heq => by omega⟩

/-- A revision names one content unless a row was deleted and re-created: then
its first revision comes twice. -/
theorem stable_iff (h : RowHistory revision history) :
    Stable revision history ↔ ¬ Recreated history := by
  constructor
  · rintro hstable ⟨later, mid, earlier, a, b, rfl, hnone⟩
    obtain ⟨m₁, m₂, rfl⟩ := List.append_of_mem hnone
    -- the row was created after the deletion
    have hafter := h.before
    rw [List.append_assoc, List.cons_append] at hafter
    obtain ⟨p, c, q, hlater, hc⟩ := hafter.created
    -- and it was created before the deletion
    have hwhole : RowHistory revision
        ((later ++ some a :: (m₁ ++ none :: m₂)) ++ some b :: earlier) := by simpa using h
    have hbefore := hwhole.before
    obtain ⟨e₁, e₂, rfl⟩ : ∃ e₁ e₂, earlier = e₁ ++ none :: e₂ :=
      List.append_of_mem ((List.mem_cons.mp hbefore.none_mem).resolve_left (by simp))
    obtain ⟨p', d, q', hearlier, hd⟩ := hbefore.created
    have hsplit : later ++ some a :: (m₁ ++ none :: m₂ ++ some b :: (e₁ ++ none :: e₂)) =
        (later ++ p) ++ some c :: ((q ++ none :: (m₂ ++ p')) ++ some d :: (q' ++ none :: e₂)) := by
      rw [List.append_assoc m₁, List.cons_append, hlater, hearlier]
      simp
    have hall := (hstable _ _ _ c d hsplit (hc.trans hd.symm)).2 none (by simp)
    cases hall
  · intro hrecreated later mid earlier a b hsplit heq
    subst hsplit
    have hnone : none ∉ mid := fun hmid => hrecreated ⟨later, mid, earlier, a, b, rfl, hmid⟩
    exact (h.before.grows hnone).2 heq

/-- A row that is never deleted is never re-created. -/
theorem not_recreated (h : history.IsChain fun new old => old.isSome → new.isSome) :
    ¬ Recreated history := by
  rintro ⟨later, mid, earlier, a, b, rfl, hnone⟩
  obtain ⟨m₁, m₂, rfl⟩ := List.append_of_mem hnone
  have hall : ∀ (m : List (Option ρ)) (row : Option ρ), (row :: (m ++ some b :: earlier)).IsChain
      (fun new old => old.isSome → new.isSome) → row.isSome := by
    intro m
    induction m with
    | nil => exact fun row hchain => (List.isChain_cons_cons.mp hchain).1 rfl
    | cons r m ih =>
      intro row hchain
      rw [List.cons_append, List.isChain_cons_cons] at hchain
      exact hchain.1 (ih r hchain.2)
  have hchain := List.IsChain.right_of_append h
  rw [List.append_assoc, List.cons_append, List.isChain_cons] at hchain
  exact absurd (hall m₂ none (List.IsChain.right_of_append hchain.2)) (by simp)

end RevisionHistory

end AgentRoi
