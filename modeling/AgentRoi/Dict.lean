/-
Insertion-ordered dictionaries as association lists.

A Python dictionary keeps its keys distinct and in insertion order, so it is a
list of pairs whose keys are `Nodup`.  Nothing here mentions the package:

* `dictInsert`, `dictOf` — assignment and the dictionary a list of pairs
  builds (a later pair overrides the value, the key keeps its place);
* `dictGet`, `dictErase` — lookup and deletion;
* `sortByKey` — the stable sort by key; on distinct keys it is the unique
  sorted arrangement (`sortByKey_eq_of_perm`) and a dictionary is looked up
  alike before and after (`dictGet_sortByKey`);
* `sortedOn` — rows sorted by a key.
-/
import Mathlib.Data.List.Sort
import Mathlib.Data.List.Nodup

namespace AgentRoi

variable {κ α β : Type*}

section Lookup

variable [DecidableEq κ]

/-- `d[k] = v`. -/
def dictInsert (k : κ) (v : α) : List (κ × α) → List (κ × α)
  | [] => [(k, v)]
  | (k', v') :: rest =>
    if k' = k then (k, v) :: rest else (k', v') :: dictInsert k v rest

/-- The dictionary built by assigning the pairs one after the other. -/
def dictOf (ps : List (κ × α)) : List (κ × α) :=
  ps.foldl (fun d p => dictInsert p.1 p.2 d) []

/-- `d.get(k)`. -/
def dictGet (k : κ) : List (κ × α) → Option α
  | [] => none
  | (k', v) :: rest => if k' = k then some v else dictGet k rest

/-- `d.pop(k, None)`. -/
def dictErase (k : κ) (d : List (κ × α)) : List (κ × α) :=
  d.filter fun p => p.1 ≠ k

theorem mem_keys_dictInsert {k k' : κ} {v : α} {d : List (κ × α)} :
    k' ∈ (dictInsert k v d).map Prod.fst ↔ k' = k ∨ k' ∈ d.map Prod.fst := by
  induction d with
  | nil => simp [dictInsert]
  | cons p d ih =>
    obtain ⟨k₀, v₀⟩ := p
    by_cases h : k₀ = k
    · simp [dictInsert, h]
    · simp only [dictInsert, h, if_false, List.map_cons, List.mem_cons, ih]
      tauto

theorem nodup_keys_dictInsert {k : κ} {v : α} {d : List (κ × α)}
    (hd : (d.map Prod.fst).Nodup) : ((dictInsert k v d).map Prod.fst).Nodup := by
  induction d with
  | nil => simp [dictInsert]
  | cons p d ih =>
    obtain ⟨k₀, v₀⟩ := p
    simp only [List.map_cons, List.nodup_cons] at hd
    by_cases h : k₀ = k
    · subst h
      simpa [dictInsert] using hd
    · simp only [dictInsert, h, if_false, List.map_cons, List.nodup_cons]
      refine ⟨fun hmem => ?_, ih hd.2⟩
      rcases mem_keys_dictInsert.mp hmem with rfl | hmem
      · exact h rfl
      · exact hd.1 hmem

theorem dictInsert_of_notMem {k : κ} {v : α} {d : List (κ × α)}
    (h : k ∉ d.map Prod.fst) : dictInsert k v d = d ++ [(k, v)] := by
  induction d with
  | nil => rfl
  | cons p d ih =>
    obtain ⟨k₀, v₀⟩ := p
    simp only [List.map_cons, List.mem_cons, not_or] at h
    simp [dictInsert, Ne.symm h.1, ih h.2]

theorem nodup_keys_dictOf (ps : List (κ × α)) : ((dictOf ps).map Prod.fst).Nodup := by
  have step : ∀ (ps d : List (κ × α)), (d.map Prod.fst).Nodup →
      ((ps.foldl (fun d p => dictInsert p.1 p.2 d) d).map Prod.fst).Nodup := by
    intro ps
    induction ps with
    | nil => exact fun d hd => hd
    | cons p ps ih => exact fun d hd => ih _ (nodup_keys_dictInsert hd)
  exact step ps [] (by simp)

/-- Pairs with distinct keys build themselves. -/
theorem dictOf_of_nodup {ps : List (κ × α)} (h : (ps.map Prod.fst).Nodup) :
    dictOf ps = ps := by
  have step : ∀ (ps d : List (κ × α)), ((d ++ ps).map Prod.fst).Nodup →
      ps.foldl (fun d p => dictInsert p.1 p.2 d) d = d ++ ps := by
    intro ps
    induction ps with
    | nil => simp
    | cons p ps ih =>
      intro d hd
      have hp : p.1 ∉ d.map Prod.fst := by
        simp only [List.map_append, List.map_cons, List.nodup_append, List.mem_cons] at hd
        exact fun hmem => hd.2.2 p.1 hmem p.1 (Or.inl rfl) rfl
      rw [List.foldl_cons, dictInsert_of_notMem hp, ih _ (by simpa using hd)]
      simp
  exact step ps [] (by simpa using h)

theorem mem_dictInsert {k : κ} {v : α} {d : List (κ × α)} {p : κ × α}
    (h : p ∈ dictInsert k v d) : p = (k, v) ∨ p ∈ d := by
  induction d with
  | nil => simpa [dictInsert] using h
  | cons q d ih =>
    obtain ⟨k₀, v₀⟩ := q
    by_cases hk : k₀ = k
    · simp only [dictInsert, hk, if_true, List.mem_cons] at h
      rcases h with h | h
      · exact Or.inl h
      · exact Or.inr (List.mem_cons_of_mem _ h)
    · simp only [dictInsert, hk, if_false, List.mem_cons] at h
      rcases h with h | h
      · exact Or.inr (by simp [h])
      · exact (ih h).imp id (List.mem_cons_of_mem _)

/-- Building a dictionary invents no entry. -/
theorem mem_of_mem_dictOf {ps : List (κ × α)} {p : κ × α} (h : p ∈ dictOf ps) : p ∈ ps := by
  have step : ∀ (ps d : List (κ × α)),
      p ∈ ps.foldl (fun d p => dictInsert p.1 p.2 d) d → p ∈ d ∨ p ∈ ps := by
    intro ps
    induction ps with
    | nil => exact fun d h => Or.inl h
    | cons q ps ih =>
      intro d h
      rcases ih _ h with h | h
      · rcases mem_dictInsert h with rfl | h
        · exact Or.inr (by simp)
        · exact Or.inl h
      · exact Or.inr (List.mem_cons_of_mem _ h)
  simpa using step ps [] h

/-- Values that are changed under their keys are changed in the dictionary. -/
theorem dictOf_map {f : κ → α → β} (ps : List (κ × α)) :
    dictOf (ps.map fun p => (p.1, f p.1 p.2)) = (dictOf ps).map fun p => (p.1, f p.1 p.2) := by
  have hinsert : ∀ (k : κ) (v : α) (d : List (κ × α)),
      dictInsert k (f k v) (d.map fun p => (p.1, f p.1 p.2)) =
        (dictInsert k v d).map fun p => (p.1, f p.1 p.2) := by
    intro k v d
    induction d with
    | nil => rfl
    | cons q d ih =>
      by_cases hk : q.1 = k
      · simp [dictInsert, hk]
      · simp [dictInsert, hk, ih]
  have step : ∀ ps d : List (κ × α),
      (ps.map fun p => (p.1, f p.1 p.2)).foldl (fun d p => dictInsert p.1 p.2 d)
        (d.map fun p => (p.1, f p.1 p.2)) =
      (ps.foldl (fun d p => dictInsert p.1 p.2 d) d).map fun p => (p.1, f p.1 p.2) := by
    intro ps
    induction ps with
    | nil => exact fun d => rfl
    | cons q ps ih =>
      intro d
      rw [List.map_cons, List.foldl_cons, List.foldl_cons, hinsert, ih]
  exact step ps []

theorem dictGet_eq_some_iff {k : κ} {v : α} {d : List (κ × α)}
    (hd : (d.map Prod.fst).Nodup) : dictGet k d = some v ↔ (k, v) ∈ d := by
  induction d with
  | nil => simp [dictGet]
  | cons p d ih =>
    obtain ⟨k₀, v₀⟩ := p
    simp only [List.map_cons, List.nodup_cons] at hd
    by_cases h : k₀ = k
    · subst h
      have hnot : (k₀, v) ∉ d := fun hmem => hd.1 (List.mem_map_of_mem (f := Prod.fst) hmem)
      simp [dictGet, hnot, eq_comm]
    · simp only [dictGet, h, if_false, ih hd.2, List.mem_cons, Prod.mk.injEq]
      exact ⟨Or.inr, fun hmem => hmem.resolve_left fun he => h he.1.symm⟩

/-- What is found is an entry. -/
theorem mem_of_dictGet {k : κ} {v : α} {d : List (κ × α)} (h : dictGet k d = some v) :
    (k, v) ∈ d := by
  induction d with
  | nil => cases h
  | cons p d ih =>
    obtain ⟨k₀, v₀⟩ := p
    by_cases hk : k₀ = k
    · obtain rfl : v₀ = v := by simpa [dictGet, hk] using h
      simp [hk]
    · exact List.mem_cons_of_mem _ (ih (by simpa [dictGet, hk] using h))

theorem dictGet_eq_of_perm {k : κ} {d d' : List (κ × α)} (hd : (d.map Prod.fst).Nodup)
    (hp : d.Perm d') : dictGet k d = dictGet k d' := by
  have hd' : (d'.map Prod.fst).Nodup := (hp.map Prod.fst).nodup_iff.mp hd
  refine Option.ext fun v => ?_
  rw [dictGet_eq_some_iff hd, dictGet_eq_some_iff hd', hp.mem_iff]

theorem dictGet_dictInsert_self {k : κ} {v : α} {d : List (κ × α)} :
    dictGet k (dictInsert k v d) = some v := by
  induction d with
  | nil => simp [dictInsert, dictGet]
  | cons p rest ih =>
    by_cases h : p.1 = k
    · simp [dictInsert, dictGet, h]
    · simpa [dictInsert, dictGet, h] using ih

theorem dictGet_dictInsert_of_ne {k k' : κ} {v : α} {d : List (κ × α)} (h : k' ≠ k) :
    dictGet k (dictInsert k' v d) = dictGet k d := by
  induction d with
  | nil => simp [dictInsert, dictGet, h]
  | cons p rest ih =>
    by_cases hp : p.1 = k'
    · simp [dictInsert, dictGet, hp, h]
    · by_cases hk : p.1 = k
      · simp [dictInsert, dictGet, hk, Ne.symm h]
      · simpa [dictInsert, dictGet, hp, hk] using ih

/-- What stands behind a name that is not there yet. -/
theorem dictGet_append_of_none {k : κ} {d d' : List (κ × α)} (h : dictGet k d = none) :
    dictGet k (d ++ d') = dictGet k d' := by
  induction d with
  | nil => rfl
  | cons p rest ih =>
    by_cases hp : p.1 = k
    · simp [dictGet, hp] at h
    · simp only [dictGet, hp, if_false, List.cons_append] at h ⊢
      exact ih h

theorem dictGet_append_of_some {k : κ} {v : α} {d d' : List (κ × α)} (h : dictGet k d = some v) :
    dictGet k (d ++ d') = some v := by
  induction d with
  | nil => cases h
  | cons p rest ih =>
    by_cases hp : p.1 = k
    · simpa [dictGet, hp] using h
    · simp only [dictGet, hp, if_false, List.cons_append] at h ⊢
      exact ih h

theorem dictGet_map_snd {k : κ} {f : α → β} {d : List (κ × α)} :
    dictGet k (d.map fun p => (p.1, f p.2)) = (dictGet k d).map f := by
  induction d with
  | nil => rfl
  | cons p d ih =>
    by_cases h : p.1 = k
    · simp [dictGet, h]
    · simp [dictGet, h, ih]

/-- An entry and the rest of the dictionary determine it up to order. -/
theorem perm_of_dictErase_perm {k : κ} {d d' : List (κ × α)} (hd : (d.map Prod.fst).Nodup)
    (hd' : (d'.map Prod.fst).Nodup) (hget : dictGet k d = dictGet k d')
    (herase : (dictErase k d).Perm (dictErase k d')) : d.Perm d' := by
  refine (List.perm_ext_iff_of_nodup hd.of_map hd'.of_map).mpr fun p => ?_
  by_cases hp : p.1 = k
  · obtain ⟨k₀, v⟩ := p
    subst hp
    rw [← dictGet_eq_some_iff hd, ← dictGet_eq_some_iff hd', hget]
  · have := herase.mem_iff (a := p)
    simpa [dictErase, hp] using this

theorem nodup_keys_dictErase {k : κ} {d : List (κ × α)} (hd : (d.map Prod.fst).Nodup) :
    ((dictErase k d).map Prod.fst).Nodup :=
  hd.sublist (List.filter_sublist.map _)

end Lookup

section Sorting

variable [LinearOrder κ]

/-- The stable sort by key. -/
def sortByKey (d : List (κ × α)) : List (κ × α) :=
  d.insertionSort fun p q => p.1 ≤ q.1

instance keyLe_total : Std.Total fun p q : κ × α => p.1 ≤ q.1 := ⟨fun p q => le_total p.1 q.1⟩

instance keyLe_trans : IsTrans (κ × α) fun p q => p.1 ≤ q.1 := ⟨fun _ _ _ => le_trans⟩

theorem sortByKey_perm (d : List (κ × α)) : (sortByKey d).Perm d :=
  List.perm_insertionSort _ d

theorem mem_sortByKey {d : List (κ × α)} {p : κ × α} : p ∈ sortByKey d ↔ p ∈ d :=
  (sortByKey_perm d).mem_iff

theorem sortByKey_pairwise (d : List (κ × α)) :
    (sortByKey d).Pairwise fun p q => p.1 ≤ q.1 :=
  List.pairwise_insertionSort _ d

theorem nodup_keys_sortByKey {d : List (κ × α)} :
    ((sortByKey d).map Prod.fst).Nodup ↔ (d.map Prod.fst).Nodup :=
  ((sortByKey_perm d).map Prod.fst).nodup_iff

theorem sortByKey_sortByKey (d : List (κ × α)) : sortByKey (sortByKey d) = sortByKey d :=
  (sortByKey_pairwise d).insertionSort_eq

theorem sortByKey_map {f : κ → α → β} (d : List (κ × α)) :
    sortByKey (d.map fun p => (p.1, f p.1 p.2)) = (sortByKey d).map fun p => (p.1, f p.1 p.2) :=
  (List.map_insertionSort (r := fun p q : κ × α => p.1 ≤ q.1)
    (s := fun p q : κ × β => p.1 ≤ q.1) (fun p => (p.1, f p.1 p.2)) d
    fun _ _ _ _ => Iff.rfl).symm

theorem sortByKey_map_snd {f : α → β} (d : List (κ × α)) :
    sortByKey (d.map fun p => (p.1, f p.2)) = (sortByKey d).map fun p => (p.1, f p.2) :=
  sortByKey_map (f := fun _ => f) d

theorem dictGet_sortByKey [DecidableEq κ] {k : κ} {d : List (κ × α)} (hd : (d.map Prod.fst).Nodup) :
    dictGet k (sortByKey d) = dictGet k d :=
  dictGet_eq_of_perm (nodup_keys_sortByKey.mpr hd) (sortByKey_perm d)

/-- Two arrangements of one dictionary sort to the same list. -/
theorem sortByKey_eq_of_perm {d d' : List (κ × α)} (hd : (d.map Prod.fst).Nodup)
    (hp : d.Perm d') : sortByKey d = sortByKey d' := by
  have hperm : (sortByKey d).Perm (sortByKey d') :=
    (sortByKey_perm d).trans (hp.trans (sortByKey_perm d').symm)
  refine hperm.eq_of_pairwise (fun p q hpm hqm h₁ h₂ => ?_) (sortByKey_pairwise d)
    (sortByKey_pairwise d')
  -- equal keys of one dictionary belong to one entry
  have hq : q ∈ d := hp.mem_iff.mpr (mem_sortByKey.mp hqm)
  have hpd : p ∈ d := mem_sortByKey.mp hpm
  exact List.inj_on_of_nodup_map hd hpd hq (le_antisymm h₁ h₂)

theorem sortByKey_eq_iff_perm {d d' : List (κ × α)} (hd : (d.map Prod.fst).Nodup) :
    sortByKey d = sortByKey d' ↔ d.Perm d' := by
  refine ⟨fun h => ?_, sortByKey_eq_of_perm hd⟩
  have := sortByKey_perm d
  rw [h] at this
  exact this.symm.trans (sortByKey_perm d')

/-- `sorted(rows, key=…)`. -/
def sortedOn {ρ : Type} (key : ρ → κ) (rows : List ρ) : List ρ :=
  (sortByKey (rows.map fun row => (key row, row))).map Prod.snd

theorem sortedOn_perm {ρ : Type} (key : ρ → κ) (rows : List ρ) : (sortedOn key rows).Perm rows := by
  have hperm := (sortByKey_perm (rows.map fun row => (key row, row))).map Prod.snd
  rw [List.map_map] at hperm
  exact hperm.trans (List.Perm.of_eq (List.map_id rows))

theorem mem_sortedOn {ρ : Type} {key : ρ → κ} {rows : List ρ} {row : ρ} :
    row ∈ sortedOn key rows ↔ row ∈ rows := by
  simp [sortedOn, mem_sortByKey]

/-- Rows with distinct keys are sorted alike, however they are arranged. -/
theorem sortedOn_eq_of_perm {ρ : Type} {key : ρ → κ} {rows rows' : List ρ}
    (hd : (rows.map key).Nodup) (hp : rows.Perm rows') : sortedOn key rows = sortedOn key rows' := by
  have hkeys : ((rows.map fun row => (key row, row)).map Prod.fst).Nodup := by
    rw [List.map_map]
    exact hd
  rw [sortedOn, sortByKey_eq_of_perm hkeys (hp.map _), ← sortedOn]

theorem sortedOn_map {ρ ρ' : Type} {key : ρ → κ} {key' : ρ' → κ} {f : ρ → ρ'}
    (h : ∀ row, key' (f row) = key row) (rows : List ρ) :
    sortedOn key' (rows.map f) = (sortedOn key rows).map f := by
  have hpairs : (rows.map f).map (fun row => (key' row, row)) =
      (rows.map fun row => (key row, row)).map fun p => (p.1, f p.2) := by
    rw [List.map_map, List.map_map]
    exact List.map_congr_left fun row _ => Prod.ext (h row) rfl
  rw [sortedOn, hpairs, sortByKey_map_snd, List.map_map, sortedOn, List.map_map]
  rfl

end Sorting

end AgentRoi
