/-
Items that repeat the key of an earlier one, marked by a loop with a growing
set.

Nothing here mentions the package.  Some items have no key, and some keys do
not count.

* `marks` — the loop;
* `marksOf` — the marks of the items with one key;
* `mark_iff` — an item is marked when its key counts and was there before;
* `marksOf_marks` — of the items with a key, all but the first are marked;
* `count_marks` — how many are.
-/
import Mathlib.Algebra.BigOperators.Group.Finset.Piecewise
import Mathlib.Data.List.Count

namespace AgentRoi

namespace Repeats

variable {κ β : Type} [DecidableEq κ] {counts : κ → Bool} {seen : List κ} {keys : List (Option κ)}
  {k : κ}

/-- The marks, where the keys in `seen` were there before. -/
def marks (counts : κ → Bool) : List κ → List (Option κ) → List Bool
  | _, [] => []
  | seen, none :: keys => false :: marks counts seen keys
  | seen, some k :: keys =>
    if k ∈ seen ∧ counts k = true then true :: marks counts seen keys
    else false :: marks counts (k :: seen) keys

/-- Of values that stand beside the keys, those beside `k`. -/
def marksOf (k : κ) (keys : List (Option κ)) (values : List β) : List β :=
  ((keys.zip values).filter fun p => p.1 = some k).map Prod.snd

theorem marksOf_cons_self (b : β) (values : List β) :
    marksOf k (some k :: keys) (b :: values) = b :: marksOf k keys values := by
  simp [marksOf]

theorem marksOf_cons_of_ne {key : Option κ} (h : key ≠ some k) (b : β) (values : List β) :
    marksOf k (key :: keys) (b :: values) = marksOf k keys values := by
  simp [marksOf, h]

theorem marksOf_map {γ : Type} (f : β → γ) (values : List β) :
    marksOf k keys (values.map f) = (marksOf k keys values).map f := by
  rw [marksOf, marksOf, List.zip_map_right, List.filter_map, List.map_map, List.map_map]
  rfl

theorem length_marks : (marks counts seen keys).length = keys.length := by
  induction keys generalizing seen with
  | nil => rfl
  | cons key keys ih =>
    cases key with
    | none => exact congrArg (· + 1) ih
    | some k =>
      rw [marks]
      split
      · exact congrArg (· + 1) ih
      · exact congrArg (· + 1) ih

/-- The keys that were there before an item are `seen` and those of the items
before it. -/
theorem mark_iff {i : ℕ} : (marks counts seen keys)[i]? = some true ↔
    ∃ k, keys[i]? = some (some k) ∧ counts k = true ∧ (k ∈ seen ∨ some k ∈ keys.take i) := by
  induction keys generalizing seen i with
  | nil => simp [marks]
  | cons key keys ih =>
    cases i with
    | zero =>
      cases key with
      | none => simp [marks]
      | some k =>
        rw [marks]
        split
        · next h => simp [h.1, h.2]
        · next h =>
          have hnot : counts k = true → k ∉ seen := fun hcounts hmem => h ⟨hmem, hcounts⟩
          simpa using hnot
    | succ i =>
      cases key with
      | none =>
        rw [marks, List.getElem?_cons_succ, ih]
        simp
      | some first =>
        rw [marks]
        split
        · next h =>
          rw [List.getElem?_cons_succ, ih]
          -- the key of the first item was there already
          refine exists_congr fun k => and_congr_right fun _ => and_congr_right fun _ => ?_
          rw [List.take_succ_cons, List.mem_cons, Option.some_inj]
          constructor
          · exact Or.imp_right .inr
          · rintro (hseen | rfl | hkeys)
            · exact .inl hseen
            · exact .inl h.1
            · exact .inr hkeys
        · rw [List.getElem?_cons_succ, ih]
          refine exists_congr fun k => and_congr_right fun _ => and_congr_right fun _ => ?_
          rw [List.take_succ_cons, List.mem_cons, List.mem_cons, Option.some_inj]
          tauto

theorem marksOf_of_seen (h : k ∈ seen) :
    marksOf k keys (marks counts seen keys) = List.replicate (keys.count (some k)) (counts k) := by
  induction keys generalizing seen with
  | nil => rfl
  | cons key keys ih =>
    by_cases hkey : key = some k
    · subst hkey
      rw [List.count_cons_self, List.replicate_succ]
      cases hcounts : counts k with
      | true => rw [marks, if_pos ⟨h, hcounts⟩, marksOf_cons_self, ih h, hcounts]
      | false =>
        have hnot : ¬ (k ∈ seen ∧ counts k = true) := fun hand => by
          rw [hcounts] at hand
          exact Bool.noConfusion hand.2
        rw [marks, if_neg hnot, marksOf_cons_self, ih (List.mem_cons_of_mem _ h), hcounts]
    · rw [List.count_cons_of_ne hkey]
      cases key with
      | none => rw [marks, marksOf_cons_of_ne hkey, ih h]
      | some first =>
        rw [marks]
        split
        · rw [marksOf_cons_of_ne hkey, ih h]
        · rw [marksOf_cons_of_ne hkey, ih (List.mem_cons_of_mem _ h)]

theorem map_later (n : ℕ) (b : Bool) :
    ((List.range (n + 1)).map fun m => decide (0 < m) && b) = false :: List.replicate n b := by
  have hlater : ((fun m => decide (0 < m) && b) ∘ Nat.succ) = fun _ => b := by
    funext m
    simp
  rw [List.range_succ_eq_map, List.map_cons, List.map_map, hlater, List.map_const',
    List.length_range]
  rfl

/-- Of the items with a key that counts, all but the first are marked. -/
theorem marksOf_marks (h : k ∉ seen) : marksOf k keys (marks counts seen keys) =
    (List.range (keys.count (some k))).map fun m => decide (0 < m) && counts k := by
  induction keys generalizing seen with
  | nil => rfl
  | cons key keys ih =>
    by_cases hkey : key = some k
    · subst hkey
      rw [marks, if_neg fun hand => h hand.1, marksOf_cons_self,
        marksOf_of_seen List.mem_cons_self, List.count_cons_self, map_later]
    · rw [List.count_cons_of_ne hkey]
      cases key with
      | none => rw [marks, marksOf_cons_of_ne hkey, ih h]
      | some first =>
        have hne : k ≠ first := fun heq => hkey (congrArg some heq.symm)
        rw [marks]
        split
        · rw [marksOf_cons_of_ne hkey, ih h]
        · rw [marksOf_cons_of_ne hkey, ih (List.not_mem_cons_of_ne_of_not_mem hne h)]

/-- Every mark is that of a key. -/
theorem count_eq_sum (S : Finset κ) (hS : ∀ k, some k ∈ keys → k ∈ S) :
    (marks counts seen keys).count true =
      ∑ k ∈ S, (marksOf k keys (marks counts seen keys)).count true := by
  induction keys generalizing seen with
  | nil => simp [marks, marksOf]
  | cons key keys ih =>
    have hrest : ∀ k, some k ∈ keys → k ∈ S := fun k hk => hS k (List.mem_cons_of_mem _ hk)
    cases key with
    | none =>
      have hnone : ∀ k, marksOf k (none :: keys) (false :: marks counts seen keys) =
          marksOf k keys (marks counts seen keys) := fun k => marksOf_cons_of_ne (by simp) _ _
      rw [marks, List.count_cons_of_ne (by decide), ih hrest]
      exact Finset.sum_congr rfl fun k _ => by rw [hnone]
    | some first =>
      have hfirst : first ∈ S := hS first List.mem_cons_self
      -- the first mark counts for the first key only
      have hcons : ∀ (b : Bool) (rest : List Bool), rest.count true =
          ∑ k ∈ S, (marksOf k keys rest).count true → (b :: rest).count true =
            ∑ k ∈ S, (marksOf k (some first :: keys) (b :: rest)).count true := by
        intro b rest hsum
        have hone : ∀ k ∈ S, (marksOf k (some first :: keys) (b :: rest)).count true =
            (if k = first then [b].count true else 0) + (marksOf k keys rest).count true := by
          intro k _
          by_cases hk : k = first
          · subst hk
            rw [marksOf_cons_self, if_pos rfl, ← List.count_append]
            rfl
          · rw [marksOf_cons_of_ne fun heq => hk (Option.some.inj heq).symm, if_neg hk, zero_add]
        rw [Finset.sum_congr rfl hone, Finset.sum_add_distrib, Finset.sum_ite_eq' S first,
          if_pos hfirst, ← hsum, ← List.count_append]
        rfl
      rw [marks]
      split
      · exact hcons true _ (ih hrest)
      · exact hcons false _ (ih hrest)

/-- As many are marked as there are items with a key that counts, less one for
each key. -/
theorem count_marks (S : Finset κ) (hS : ∀ k, some k ∈ keys → k ∈ S) :
    (marks counts [] keys).count true =
      ∑ k ∈ S with counts k = true, (keys.count (some k) - 1) := by
  rw [count_eq_sum S hS, Finset.sum_filter]
  refine Finset.sum_congr rfl fun k _ => ?_
  rw [marksOf_marks List.not_mem_nil]
  cases keys.count (some k) with
  | zero => simp
  | succ n =>
    rw [map_later, List.count_cons_of_ne Bool.noConfusion, List.count_replicate]
    cases counts k with
    | true => rfl
    | false => rfl

end Repeats

end AgentRoi
