/-
Tables as lists of rows, where the rows are told apart by a key.

Nothing here mentions the package.

* `rowAt` — the row with a key, and what an insertion and an update make of
  it;
* `updateWhere` — `UPDATE … SET … WHERE …`, for changes that keep the key;
* `setRow` — `UPDATE … WHERE` the key is that of a row, of a whole row;
* `upsert` — `INSERT … ON CONFLICT … DO UPDATE`, of a whole row;
* `entries` — the dictionary that has the rows under their keys;
* `exists_of_forall₂` — the row that stands for an entry of another list.
-/
import AgentRoi.Dict
import Mathlib.Data.List.Find
import Mathlib.Data.List.Forall2
import Mathlib.Data.List.Nodup

namespace AgentRoi

namespace RowTable

variable {ρ κ α : Type} [DecidableEq κ] {key : ρ → κ} {rows : List ρ} {k : κ} {row : ρ}

/-- The row with the key `k`. -/
def rowAt (key : ρ → κ) (k : κ) (rows : List ρ) : Option ρ := rows.find? fun row => key row = k

/-- The rows that meet `p`, changed by `f`. -/
def updateWhere (p : ρ → Bool) (f : ρ → ρ) (rows : List ρ) : List ρ :=
  rows.map fun row => if p row then f row else row

theorem key_of_rowAt (h : rowAt key k rows = some row) : key row = k := by
  have := List.find?_some h
  simpa using this

theorem mem_of_rowAt (h : rowAt key k rows = some row) : row ∈ rows := List.mem_of_find?_eq_some h

theorem rowAt_eq_none_iff : rowAt key k rows = none ↔ k ∉ rows.map key := by
  simp [rowAt, List.find?_eq_none]

theorem rowAt_cons {r : ρ} :
    rowAt key k (r :: rows) = if key r = k then some r else rowAt key k rows := by
  by_cases h : key r = k <;> simp [rowAt, h]

/-- Where the keys are distinct, the row with a key is the only one. -/
theorem rowAt_eq_some_iff (hrows : (rows.map key).Nodup) :
    rowAt key k rows = some row ↔ row ∈ rows ∧ key row = k := by
  refine ⟨fun h => ⟨mem_of_rowAt h, key_of_rowAt h⟩, ?_⟩
  rintro ⟨hmem, rfl⟩
  induction rows with
  | nil => exact absurd hmem List.not_mem_nil
  | cons r rows ih =>
    rw [List.map_cons, List.nodup_cons] at hrows
    rw [rowAt_cons]
    rcases List.mem_cons.mp hmem with rfl | hmem
    · exact if_pos rfl
    · -- the key of `row` is among the later ones, so the first row is another
      have hne : key r ≠ key row := fun heq => hrows.1 (heq ▸ List.mem_map_of_mem hmem)
      rw [if_neg hne]
      exact ih hrows.2 hmem

theorem rowAt_of_mem (hrows : (rows.map key).Nodup) (h : row ∈ rows) :
    rowAt key (key row) rows = some row := (rowAt_eq_some_iff hrows).mpr ⟨h, rfl⟩

/-- Where the keys are distinct, the order of the rows does not matter. -/
theorem rowAt_eq_of_perm {rows' : List ρ} (hrows : (rows.map key).Nodup) (hp : rows.Perm rows') :
    rowAt key k rows = rowAt key k rows' := by
  refine Option.ext fun row => ?_
  rw [rowAt_eq_some_iff hrows, rowAt_eq_some_iff ((hp.map key).nodup_iff.mp hrows), hp.mem_iff]

theorem rowAt_map {ρ' : Type} {key' : ρ' → κ} {f : ρ → ρ'} (h : ∀ row, key' (f row) = key row) :
    rowAt key' k (rows.map f) = (rowAt key k rows).map f := by
  rw [rowAt, List.find?_map]
  refine congrArg (fun q => (List.find? q rows).map f) (funext fun row => ?_)
  show decide (key' (f row) = k) = _
  rw [h row]

/-- An inserted row. -/
theorem rowAt_append_self (h : rowAt key (key row) rows = none) :
    rowAt key (key row) (rows ++ [row]) = some row := by
  rw [rowAt, List.find?_append]
  change (rowAt key (key row) rows).or _ = _
  rw [h]
  simp

theorem rowAt_append_of_ne (h : key row ≠ k) : rowAt key k (rows ++ [row]) = rowAt key k rows := by
  rw [rowAt, List.find?_append]
  change (rowAt key k rows).or _ = _
  simp [h]

theorem nodup_append (hrows : (rows.map key).Nodup) (h : rowAt key (key row) rows = none) :
    ((rows ++ [row]).map key).Nodup := by
  rw [List.map_append, List.map_singleton, ← List.concat_eq_append, List.nodup_concat]
  exact ⟨rowAt_eq_none_iff.mp h, hrows⟩

/-- An update that keeps a column keeps it in every row. -/
theorem map_updateWhere {p : ρ → Bool} {f : ρ → ρ} {g : ρ → α} (hf : ∀ row, g (f row) = g row) :
    (updateWhere p f rows).map g = rows.map g := by
  rw [updateWhere, List.map_map]
  refine List.map_congr_left fun row _ => ?_
  show g (if p row then f row else row) = g row
  split
  · exact hf row
  · rfl

theorem rowAt_updateWhere {p : ρ → Bool} {f : ρ → ρ} (hf : ∀ row, key (f row) = key row) :
    rowAt key k (updateWhere p f rows) =
      (rowAt key k rows).map fun row => if p row then f row else row := by
  rw [rowAt, updateWhere, List.find?_map]
  congr 1
  refine congrArg (fun q => List.find? q rows) (funext fun row => ?_)
  show decide (key (if p row then f row else row) = k) = _
  split
  · rw [hf row]
  · rfl

omit [DecidableEq κ] in
theorem updateWhere_congr {p q : ρ → Bool} {f : ρ → ρ} (h : ∀ row ∈ rows, p row = q row) :
    updateWhere p f rows = updateWhere q f rows :=
  List.map_congr_left fun row hrow => by rw [h row hrow]

theorem mem_updateWhere {p : ρ → Bool} {f : ρ → ρ} {row' : ρ} :
    row' ∈ updateWhere p f rows ↔ ∃ row ∈ rows, row' = if p row then f row else row := by
  rw [updateWhere, List.mem_map]
  constructor
  · rintro ⟨row, hrow, rfl⟩
    exact ⟨row, hrow, rfl⟩
  · rintro ⟨row, hrow, rfl⟩
    exact ⟨row, hrow, rfl⟩

omit [DecidableEq κ] in
theorem nodup_filter {p : ρ → Bool} (hrows : (rows.map key).Nodup) :
    ((rows.filter p).map key).Nodup := hrows.sublist (List.filter_sublist.map key)

theorem rowAt_filter_ne {k' : κ} (h : k' ≠ k) :
    rowAt key k' (rows.filter fun row => key row ≠ k) = rowAt key k' rows := by
  rw [rowAt, List.find?_filter]
  refine congrArg (fun q => List.find? q rows) (funext fun row => ?_)
  by_cases hrow : key row = k'
  · simp [hrow, h]
  · simp [hrow]

theorem rowAt_filter_self : rowAt key k (rows.filter fun row => key row ≠ k) = none := by
  rw [rowAt_eq_none_iff]
  simp

/-- `UPDATE … SET … WHERE` the key is that of the row. -/
def setRow (key : ρ → κ) (row : ρ) (rows : List ρ) : List ρ :=
  updateWhere (fun r => key r = key row) (fun _ => row) rows

theorem mem_setRow {r : ρ} (h : r ∈ setRow key row rows) :
    r = row ∨ (r ∈ rows ∧ key r ≠ key row) := by
  obtain ⟨r', hr', rfl⟩ := mem_updateWhere.mp h
  by_cases heq : key r' = key row
  · rw [if_pos (decide_eq_true heq)]
    exact .inl rfl
  · rw [if_neg (by rwa [decide_eq_true_iff])]
    exact .inr ⟨hr', heq⟩

theorem map_setRow : (setRow key row rows).map key = rows.map key := by
  rw [setRow, updateWhere, List.map_map]
  refine List.map_congr_left fun r _ => ?_
  show key (if decide (key r = key row) then row else r) = key r
  split
  · next heq => exact (of_decide_eq_true heq).symm
  · rfl

/-- A column stays without duplicates when the new value is that of no other
row. -/
theorem nodup_setRow {col : ρ → α} (hrows : (rows.map key).Nodup) (hcol : (rows.map col).Nodup)
    (hother : ∀ r ∈ rows, key r = key row → ∀ r' ∈ rows, col r' = col row → key r' = key row) :
    ((setRow key row rows).map col).Nodup := by
  rw [setRow, updateWhere, List.map_map]
  refine List.Nodup.map_on (fun r hr r' hr' heq => ?_) hrows.of_map
  replace heq : col (if decide (key r = key row) then row else r) =
      col (if decide (key r' = key row) then row else r') := heq
  by_cases hk : key r = key row <;> by_cases hk' : key r' = key row
  · exact List.inj_on_of_nodup_map hrows hr hr' (hk.trans hk'.symm)
  · rw [if_pos (decide_eq_true hk), if_neg (by rwa [decide_eq_true_iff])] at heq
    exact absurd (hother r hr hk r' hr' heq.symm) hk'
  · rw [if_neg (by rwa [decide_eq_true_iff]), if_pos (decide_eq_true hk')] at heq
    exact absurd (hother r' hr' hk' r hr heq) hk
  · rw [if_neg (by rwa [decide_eq_true_iff]), if_neg (by rwa [decide_eq_true_iff])] at heq
    exact List.inj_on_of_nodup_map hcol hr hr' heq

/-- Of rows with distinct keys, the row takes the place of the one that had its
key. -/
theorem setRow_perm {r : ρ} (hrows : (rows.map key).Nodup) (h : rowAt key (key row) rows = some r) :
    (setRow key row rows).Perm ((rows.filter fun r => key r ≠ key row) ++ [row]) := by
  induction rows with
  | nil => cases h
  | cons first rows ih =>
    rw [List.map_cons, List.nodup_cons] at hrows
    rw [setRow, updateWhere, List.map_cons]
    by_cases heq : key first = key row
    · have hrest : ∀ r' ∈ rows, key r' ≠ key row := fun r' hr' heq' =>
        hrows.1 (List.mem_map.mpr ⟨r', hr', heq'.trans heq.symm⟩)
      have hkept : (rows.map fun r' => if decide (key r' = key row) then row else r') = rows := by
        refine (List.map_congr_left fun r' hr' => ?_).trans (List.map_id _)
        exact if_neg (by rw [decide_eq_true_iff]; exact hrest r' hr')
      rw [if_pos (decide_eq_true heq), hkept, List.filter_cons_of_neg (by simpa using heq),
        List.filter_eq_self.mpr fun r' hr' => decide_eq_true (hrest r' hr')]
      exact (List.perm_append_singleton row rows).symm
    · rw [rowAt_cons, if_neg heq] at h
      rw [if_neg (by rwa [decide_eq_true_iff]), List.filter_cons_of_pos (by simpa using heq),
        List.cons_append]
      exact (ih hrows.2 h).cons first

/-- A row that takes its own place. -/
theorem setRow_self (hrows : (rows.map key).Nodup) (h : row ∈ rows) : setRow key row rows = rows := by
  refine (List.map_congr_left fun r hr => ?_).trans (List.map_id _)
  show (if decide (key r = key row) then row else r) = r
  split
  · next heq => exact (List.inj_on_of_nodup_map hrows hr h (of_decide_eq_true heq)).symm
  · rfl

/-- A row that is taken out and put back. -/
theorem filter_append_perm (hrows : (rows.map key).Nodup) (h : rowAt key k rows = some row) :
    ((rows.filter fun r => key r ≠ k) ++ [row]).Perm rows := by
  have hk : key row = k := key_of_rowAt h
  subst hk
  have hperm := setRow_perm hrows h
  rw [setRow_self hrows (mem_of_rowAt h)] at hperm
  exact hperm.symm

/-- Put a row in the place of the one with its key, or else at the end. -/
def upsert (key : ρ → κ) (row : ρ) (rows : List ρ) : List ρ :=
  if (rowAt key (key row) rows).isSome then
    rows.map fun r => if key r = key row then row else r
  else rows ++ [row]

theorem map_upsert (h : (rowAt key (key row) rows).isSome) :
    (upsert key row rows).map key = rows.map key := by
  rw [upsert, if_pos h, List.map_map]
  refine List.map_congr_left fun r _ => ?_
  show key (if key r = key row then row else r) = key r
  split
  · next heq => exact heq.symm
  · rfl

theorem nodup_upsert (hrows : (rows.map key).Nodup) : ((upsert key row rows).map key).Nodup := by
  by_cases h : (rowAt key (key row) rows).isSome
  · rw [map_upsert h]
    exact hrows
  · rw [upsert, if_neg h]
    exact nodup_append hrows (Option.not_isSome_iff_eq_none.mp h)

theorem mem_upsert {r : ρ} (h : r ∈ upsert key row rows) : r = row ∨ r ∈ rows := by
  rw [upsert] at h
  split at h
  · obtain ⟨r', hr', rfl⟩ := List.mem_map.mp h
    split
    · exact .inl rfl
    · exact .inr hr'
  · rcases List.mem_append.mp h with h | h
    · exact .inr h
    · exact .inl (List.mem_singleton.mp h)

theorem mem_upsert_self : row ∈ upsert key row rows := by
  rw [upsert]
  split
  · next h =>
    obtain ⟨r, hr⟩ := Option.isSome_iff_exists.mp h
    exact List.mem_map.mpr ⟨r, mem_of_rowAt hr, if_pos (key_of_rowAt hr)⟩
  · exact List.mem_append_right _ (List.mem_singleton.mpr rfl)

/-- The new row, and the rows with other keys. -/
theorem mem_upsert_iff (hrows : (rows.map key).Nodup) {r : ρ} :
    r ∈ upsert key row rows ↔ r = row ∨ r ∈ rows ∧ key r ≠ key row := by
  constructor
  · intro h
    by_cases hkey : key r = key row
    · -- two rows with one key are one row
      have hr := rowAt_of_mem (nodup_upsert hrows) h
      have hrow := rowAt_of_mem (nodup_upsert hrows) (mem_upsert_self : row ∈ upsert key row rows)
      rw [hkey, hrow] at hr
      exact .inl (Option.some.inj hr).symm
    · rcases mem_upsert h with rfl | hmem
      · exact absurd rfl hkey
      · exact .inr ⟨hmem, hkey⟩
  · rintro (rfl | ⟨hmem, hkey⟩)
    · exact mem_upsert_self
    · rw [upsert]
      split
      · exact List.mem_map.mpr ⟨r, hmem, if_neg hkey⟩
      · exact List.mem_append_left _ hmem

/-- A column stays without duplicates when the new value is not in it. -/
theorem nodup_map_upsert {col : ρ → α} (hrows : (rows.map key).Nodup) (hcol : (rows.map col).Nodup)
    (hnew : col row ∉ rows.map col) : ((upsert key row rows).map col).Nodup := by
  by_cases h : (rowAt key (key row) rows).isSome
  · have hset : upsert key row rows = setRow key row rows := by
      rw [upsert, if_pos h, setRow, updateWhere]
      refine List.map_congr_left fun r _ => ?_
      simp only [decide_eq_true_eq]
    rw [hset]
    exact nodup_setRow hrows hcol fun r _ _ r' hr' heq =>
      absurd (List.mem_map.mpr ⟨r', hr', heq⟩) hnew
  · rw [upsert, if_neg h, List.map_append]
    exact hcol.append (List.nodup_singleton _) (List.disjoint_singleton.mpr hnew)

theorem rowAt_upsert_self (hrows : (rows.map key).Nodup) :
    rowAt key (key row) (upsert key row rows) = some row :=
  rowAt_of_mem (nodup_upsert hrows) mem_upsert_self

theorem rowAt_upsert_of_ne (h : key row ≠ k) :
    rowAt key k (upsert key row rows) = rowAt key k rows := by
  rw [upsert]
  split
  · rw [rowAt, List.find?_map]
    -- no row that is replaced has the key `k`
    have hother : ∀ r ∈ rows, ((fun r => decide (key r = k)) ∘
        fun r => if key r = key row then row else r) r = decide (key r = k) := by
      intro r _
      show decide (key (if key r = key row then row else r) = k) = _
      split
      · next heq => rw [decide_eq_false h, heq, decide_eq_false h]
      · rfl
    rw [List.find?_congr hother]
    show (rowAt key k rows).map _ = _
    cases hrow : rowAt key k rows with
    | none => rfl
    | some r =>
      have hne : key r ≠ key row := fun heq => h (heq.symm.trans (key_of_rowAt hrow))
      exact congrArg some (if_neg hne)
  · exact rowAt_append_of_ne h

/-- A key that was there is there still. -/
theorem mem_keys_upsert (h : k ∈ rows.map key) : k ∈ (upsert key row rows).map key := by
  by_cases hrow : (rowAt key (key row) rows).isSome
  · rwa [map_upsert hrow]
  · rw [upsert, if_neg hrow, List.map_append]
    exact List.mem_append_left _ h

/-- A selection that has no row with the key stays as it was. -/
theorem filter_upsert {p : ρ → Bool} (h : ∀ r, key r = key row → p r = false) :
    (upsert key row rows).filter p = rows.filter p := by
  have hreplaced : (rows.map fun r => if key r = key row then row else r).filter p =
      rows.filter p := by
    induction rows with
    | nil => rfl
    | cons r rows ih =>
      rw [List.map_cons, List.filter_cons, List.filter_cons, ih]
      by_cases hr : key r = key row
      · rw [if_pos hr, h r hr, h row rfl]
        rfl
      · rw [if_neg hr]
  rw [upsert]
  split
  · exact hreplaced
  · rw [List.filter_append, List.filter_singleton, h row rfl]
    exact List.append_nil _

/-- A selection that has none of the rows that change stays as it was. -/
theorem filter_updateWhere {p q : ρ → Bool} {f : ρ → ρ}
    (h : ∀ row ∈ rows, q row = true → p row = false ∧ p (f row) = false) :
    (updateWhere q f rows).filter p = rows.filter p := by
  induction rows with
  | nil => rfl
  | cons row rows ih =>
    have hrest := ih fun r hr => h r (List.mem_cons_of_mem _ hr)
    rw [updateWhere, List.map_cons, List.filter_cons, List.filter_cons]
    by_cases hq : q row = true
    · obtain ⟨hp, hpf⟩ := h row List.mem_cons_self hq
      rw [if_pos hq, hp, hpf]
      exact hrest
    · rw [if_neg hq]
      exact congrArg (fun rest => if p row = true then row :: rest else rest) hrest

/-! ### Rows in a dictionary -/

/-- The rows, each under its key. -/
def entries (key : ρ → κ) (rows : List ρ) : List (κ × ρ) := rows.map fun row => (key row, row)

omit [DecidableEq κ] in
theorem keys_entries : (entries key rows).map Prod.fst = rows.map key := by
  rw [entries, List.map_map]
  rfl

omit [DecidableEq κ] in
theorem values_entries : (entries key rows).map Prod.snd = rows := by
  rw [entries, List.map_map]
  exact List.map_id _

omit [DecidableEq κ] in
theorem map_entries {col : ρ → α} :
    ((entries key rows).map fun entry => col entry.2) = rows.map col := by
  rw [entries, List.map_map]
  rfl

theorem dictGet_entries : dictGet k (entries key rows) = rowAt key k rows := by
  induction rows with
  | nil => rfl
  | cons row rows ih =>
    rw [rowAt_cons, ← ih]
    rfl

theorem dictErase_entries :
    dictErase k (entries key rows) = entries key (rows.filter fun row => key row ≠ k) := by
  rw [dictErase, entries, entries, List.filter_map]
  rfl

/-- An assignment puts a row in the place of the one that has its key. -/
theorem dictInsert_entries (hrows : (rows.map key).Nodup) :
    dictInsert (key row) row (entries key rows) = entries key (upsert key row rows) := by
  induction rows with
  | nil => rfl
  | cons first rows ih =>
    rw [List.map_cons, List.nodup_cons] at hrows
    by_cases heq : key first = key row
    · have hrest : (rows.map fun r => if key r = key row then row else r) = rows := by
        refine (List.map_congr_left fun r hr => ?_).trans (List.map_id _)
        exact if_neg fun h => hrows.1 (List.mem_map.mpr ⟨r, hr, h.trans heq.symm⟩)
      have hthere : (rowAt key (key row) (first :: rows)).isSome := by
        rw [rowAt_cons, if_pos heq]
        rfl
      rw [upsert, if_pos hthere, List.map_cons, if_pos heq, hrest]
      exact if_pos heq
    · have hcons : upsert key row (first :: rows) = first :: upsert key row rows := by
        unfold upsert
        rw [rowAt_cons, if_neg heq]
        split
        · rw [List.map_cons, if_neg heq]
        · rfl
      rw [hcons]
      exact (if_neg heq).trans (congrArg ((key first, first) :: ·) (ih hrows.2))

end RowTable

/-! ### Rows in step with the entries of another list -/

theorem exists_of_forall₂ {α β : Type} {R : α → β → Prop} {as : List α} {bs : List β}
    (h : List.Forall₂ R as bs) {a : α} (ha : a ∈ as) : ∃ b ∈ bs, R a b := by
  induction h with
  | nil => exact absurd ha List.not_mem_nil
  | @cons a' b' as bs hr _ ih =>
    rcases List.mem_cons.mp ha with rfl | ha
    · exact ⟨b', List.mem_cons_self, hr⟩
    · obtain ⟨b, hb, h⟩ := ih ha
      exact ⟨b, List.mem_cons_of_mem _ hb, h⟩

/-- Rows in step that are filtered alike. -/
theorem forall₂_filter {α β : Type} {R : α → β → Prop} {p : α → Bool} {q : β → Bool}
    {as : List α} {bs : List β} (h : List.Forall₂ R as bs) (hpq : ∀ a b, R a b → p a = q b) :
    List.Forall₂ R (as.filter p) (bs.filter q) := by
  refine List.rel_filter (fun a b hab => ?_) h
  show p a = true ↔ q b = true
  rw [hpq a b hab]

theorem map_eq_of_forall₂ {α β γ : Type} {R : α → β → Prop} {f : β → γ} {g : α → γ}
    {as : List α} {bs : List β} (h : List.Forall₂ R as bs)
    (hfg : ∀ a ∈ as, ∀ b, R a b → f b = g a) : bs.map f = as.map g := by
  induction h with
  | nil => rfl
  | @cons a b as bs hr _ ih =>
    rw [List.map_cons, List.map_cons, hfg a List.mem_cons_self b hr,
      ih fun a' ha' => hfg a' (List.mem_cons_of_mem _ ha')]

end AgentRoi
