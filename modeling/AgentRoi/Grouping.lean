/-
The items of a list, grouped by a key in a dictionary of lists.

Nothing here mentions the package.

* `addTo`, `group` — `grouped.setdefault(key, []).append(item)`, for each item;
* `mem_group_iff` — a group has the items with its key, in their order;
* `flatMap_group_perm` — every item is in one group;
* `filter_flatten` — what was made of a group, out of what was made of all.
-/
import AgentRoi.Dict
import Mathlib.Data.List.Induction

namespace AgentRoi

namespace Grouping

variable {α κ : Type} [DecidableEq κ] {key : α → κ} {k : κ} {x : α} {xs ys : List α}

def addTo (key : α → κ) (grouped : List (κ × List α)) (x : α) : List (κ × List α) :=
  dictInsert (key x) ((dictGet (key x) grouped).getD [] ++ [x]) grouped

def group (key : α → κ) (xs : List α) : List (κ × List α) := xs.foldl (addTo key) []

theorem group_concat (xs : List α) (x : α) :
    group key (xs ++ [x]) = addTo key (group key xs) x := List.foldl_concat ..

theorem nodup_keys_group (xs : List α) : ((group key xs).map Prod.fst).Nodup := by
  induction xs using List.reverseRecOn with
  | nil => exact List.nodup_nil
  | append_singleton xs x ih =>
    rw [group_concat]
    exact nodup_keys_dictInsert ih

/-- The group with a key; there is none where no item has it. -/
theorem dictGet_group (xs : List α) (k : κ) :
    (dictGet k (group key xs)).getD [] = xs.filter (fun x => key x = k) := by
  induction xs using List.reverseRecOn with
  | nil => rfl
  | append_singleton xs x ih =>
    rw [group_concat, addTo, List.filter_append]
    by_cases hk : key x = k
    · subst hk
      rw [dictGet_dictInsert_self, Option.getD_some, ih, List.filter_cons_of_pos (by simp)]
      rfl
    · rw [dictGet_dictInsert_of_ne hk, ih, List.filter_cons_of_neg (by simpa using hk)]
      exact (List.append_nil _).symm

theorem group_ne_nil (h : (k, ys) ∈ group key xs) : ys ≠ [] := by
  induction xs using List.reverseRecOn with
  | nil => exact absurd h List.not_mem_nil
  | append_singleton xs x ih =>
    rw [group_concat, addTo] at h
    rcases mem_dictInsert h with heq | hmem
    · cases heq
      exact List.append_ne_nil_of_right_ne_nil _ (List.cons_ne_nil x [])
    · exact ih hmem

theorem mem_group_iff : (k, ys) ∈ group key xs ↔ ys = xs.filter (fun x => key x = k) ∧ ys ≠ [] := by
  have hget : (dictGet k (group key xs)).getD [] = xs.filter (fun x => key x = k) :=
    dictGet_group xs k
  constructor
  · intro h
    have hsome := (dictGet_eq_some_iff (nodup_keys_group xs)).mpr h
    rw [hsome, Option.getD_some] at hget
    exact ⟨hget, group_ne_nil h⟩
  · rintro ⟨rfl, hne⟩
    refine (dictGet_eq_some_iff (nodup_keys_group xs)).mp ?_
    cases hgroup : dictGet k (group key xs) with
    | none =>
      rw [hgroup, Option.getD_none] at hget
      exact absurd hget.symm hne
    | some zs =>
      rw [hgroup, Option.getD_some] at hget
      rw [hget]

theorem flatMap_addTo_perm (grouped : List (κ × List α)) (x : α) :
    ((addTo key grouped x).flatMap Prod.snd).Perm (grouped.flatMap Prod.snd ++ [x]) := by
  unfold addTo
  induction grouped with
  | nil => exact .refl _
  | cons p grouped ih =>
    obtain ⟨k, ys⟩ := p
    by_cases hk : k = key x
    · subst hk
      have hget : dictGet (key x) ((key x, ys) :: grouped) = some ys := if_pos rfl
      rw [hget, Option.getD_some, dictInsert, if_pos rfl, List.flatMap_cons, List.flatMap_cons,
        List.append_assoc, List.append_assoc]
      exact (List.perm_append_comm).append_left ys
    · have hget : dictGet (key x) ((k, ys) :: grouped) = dictGet (key x) grouped := if_neg hk
      rw [hget, dictInsert, if_neg hk, List.flatMap_cons, List.flatMap_cons, List.append_assoc]
      exact ih.append_left ys

/-- The groups together have the items. -/
theorem flatMap_group_perm (xs : List α) : ((group key xs).flatMap Prod.snd).Perm xs := by
  induction xs using List.reverseRecOn with
  | nil => exact .refl _
  | append_singleton xs x ih =>
    rw [group_concat]
    exact (flatMap_addTo_perm _ x).trans (ih.append_right [x])

/-! ### Parts for the groups -/

variable {β : Type} {groups : List (κ × List α)} {parts : List (List β)} {keyOf : β → κ}

/-- Each part has the key of its group. -/
def Keyed (keyOf : β → κ) : List (κ × List α) → List (List β) → Prop :=
  List.Forall₂ fun group part => ∀ x ∈ part, keyOf x = group.1

theorem filter_flatten_of_notMem (h : Keyed keyOf groups parts) (hk : k ∉ groups.map Prod.fst) :
    parts.flatten.filter (fun x => keyOf x = k) = [] := by
  induction h with
  | nil => rfl
  | cons hpart _ ih =>
    rw [List.map_cons, List.mem_cons, not_or] at hk
    rw [List.flatten_cons, List.filter_append, ih hk.2, List.append_nil]
    refine List.filter_eq_nil_iff.mpr fun x hx => ?_
    rw [hpart x hx, decide_eq_true_eq]
    exact fun heq => hk.1 heq.symm

/-- Of all parts together, what has the key of a group is its part. -/
theorem filter_flatten {R : κ × List α → List β → Prop} (h : List.Forall₂ R groups parts)
    (hkeyed : Keyed keyOf groups parts) (hnodup : (groups.map Prod.fst).Nodup)
    (hgroup : (k, ys) ∈ groups) : R (k, ys) (parts.flatten.filter fun x => keyOf x = k) := by
  induction h with
  | nil => exact absurd hgroup List.not_mem_nil
  | @cons group part groups parts hpart _ ih =>
    obtain ⟨hfirst, hrest⟩ := List.forall₂_cons.mp hkeyed
    rw [List.map_cons, List.nodup_cons] at hnodup
    rw [List.flatten_cons, List.filter_append]
    rcases List.mem_cons.mp hgroup with rfl | hgroup
    · rw [filter_flatten_of_notMem hrest hnodup.1, List.append_nil,
        List.filter_eq_self.mpr fun x hx => decide_eq_true (hfirst x hx)]
      exact hpart
    · have hnone : part.filter (fun x => keyOf x = k) = [] := by
        refine List.filter_eq_nil_iff.mpr fun x hx => ?_
        rw [hfirst x hx, decide_eq_true_eq]
        exact fun heq => hnodup.1 (heq ▸ List.mem_map_of_mem hgroup)
      rw [hnone, List.nil_append]
      exact ih hrest hnodup.2 hgroup

end Grouping

end AgentRoi
