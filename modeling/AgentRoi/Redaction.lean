/-
`agent_roi.audit.redact`: what is masked before an event is recorded.

`redact` enters dictionaries, lists, tuples and sets, and leaves every other
value as it is; `to_jsonable` expands more kinds than these.

* `Redactor`, `Redactor.redact` — the blocked keys, and the function;
* `Json.HasMember`, `Redactor.Masked` — the members of a JSON value at any
  depth, and that none of them shows what a blocked key stands for;
* `Redactor.Leaks` — a value that `redact` does not enter shows such a member;
* `masked_redact_iff` — nothing else leaks.

`str.casefold` and `repr` are those of Python.
-/
import AgentRoi.PyM
import AgentRoi.Serialization

namespace AgentRoi

variable {F : Type}

/-! ### Members at any depth -/

/-- `j.HasMember k v`: at some depth of `j` stands an object with the key `k`,
whose value is `v`. -/
inductive Json.HasMember : Json F → Str → Json F → Prop where
  | here {kvs k v} (h : (k, v) ∈ kvs) : HasMember (.obj kvs) k v
  | inObject {kvs p k v} (hp : p ∈ kvs) (h : HasMember p.2 k v) : HasMember (.obj kvs) k v
  | inArray {xs x k v} (hx : x ∈ xs) (h : HasMember x k v) : HasMember (.arr xs) k v

/-! ### The function -/

/-- The keys whose values are masked; `repr` sorts the elements of a set. -/
structure Redactor (F : Type) where
  blockedKeys : List Str
  casefold : Str → Str
  repr : PyVal F → Except PyExc Str

def defaultRedactedKeys : List Str :=
  [lit "authorization", lit "api_key", lit "apikey", lit "access_token", lit "refresh_token",
    lit "token", lit "password", lit "passwd", lit "secret", lit "client_secret", lit "ssn"]

namespace Redactor

/-- `key.casefold() in normalized`. -/
def blocks (r : Redactor F) (key : Str) : Bool := r.casefold key ∈ r.blockedKeys.map r.casefold

/-- `sorted(…, key=repr)`. -/
def sortByRepr (r : Redactor F) (xs : List (PyVal F)) : Except PyExc (List (PyVal F)) := do
  let keyed ← xs.mapM fun x => do
    let text ← r.repr x
    return (text, x)
  return (sortByKey keyed).map Prod.snd

variable [PyFloat F] (r : Redactor F)

mutual
/-- `redact(value, blocked_keys=…)`, the function `_walk`. -/
def redact : PyVal F → Except PyExc (PyVal F)
  | .dict items => do
    let items ← redactItems items
    return .dict items
  | .list xs => do
    let xs ← redactAll xs
    return .list xs
  | .tuple xs => do
    let xs ← redactAll xs
    return .tuple xs
  | .set xs => do
    let xs ← redactAll xs
    let sorted ← r.sortByRepr xs
    return .list sorted
  | v => .ok v

def redactItems : List (PyKey F × PyVal F) → Except PyExc (List (PyKey F × PyVal F))
  | [] => .ok []
  | (key, v) :: items => do
    let v ← (if r.blocks key.text then .ok (.str (lit "[REDACTED]")) else redact v)
    let items ← redactItems items
    return (key, v) :: items

def redactAll : List (PyVal F) → Except PyExc (List (PyVal F))
  | [] => .ok []
  | v :: vs => do
    let v ← redact v
    let vs ← redactAll vs
    return v :: vs
end

/-! ### What it promises -/

/-- Under every blocked key, at any depth, stands the mask. -/
def Masked (j : Json F) : Prop :=
  ∀ k v, j.HasMember k v → r.blocks k = true → v = .str (lit "[REDACTED]")

/-- The members that the JSON object of a dictionary has: of keys with one text
the last one stays. -/
def members (items : List (PyKey F × PyVal F)) : List (Str × PyVal F) :=
  dictOf (sortByKey (items.map fun p => (p.1.text, p.2)))

/-- The kinds of value `redact` enters. -/
def enters : PyVal F → Bool
  | .dict _ | .list _ | .tuple _ | .set _ => true
  | _ => false

/-- Outside of what is masked stands a value that is not entered, and its JSON
shows what a blocked key stands for. -/
inductive Leaks : PyVal F → Prop where
  | kept {v} (henters : enters v = false) (h : ¬ r.Masked (toJsonable v)) : Leaks v
  | dict {items key v} (hmem : (key, v) ∈ members items) (hkey : r.blocks key = false)
      (h : Leaks v) : Leaks (.dict items)
  | list {xs v} (hmem : v ∈ xs) (h : Leaks v) : Leaks (.list xs)
  | tuple {xs v} (hmem : v ∈ xs) (h : Leaks v) : Leaks (.tuple xs)
  | set {xs v} (hmem : v ∈ xs) (h : Leaks v) : Leaks (.set xs)

variable {r}

omit [PyFloat F] in
theorem masked_arr {xs : List (Json F)} : r.Masked (.arr xs) ↔ ∀ x ∈ xs, r.Masked x := by
  constructor
  · exact fun h x hx k v hmember => h k v (.inArray hx hmember)
  · intro h k v hmember
    cases hmember with
    | inArray hx hmember => exact h _ hx k v hmember

omit [PyFloat F] in
theorem masked_obj {kvs : List (Str × Json F)} : r.Masked (.obj kvs) ↔
    ∀ p ∈ kvs, (r.blocks p.1 = true → p.2 = .str (lit "[REDACTED]")) ∧ r.Masked p.2 := by
  constructor
  · exact fun h p hp => ⟨h p.1 p.2 (.here hp), fun k v hmember => h k v (.inObject hp hmember)⟩
  · intro h k v hmember
    cases hmember with
    | here hmem => exact (h _ hmem).1
    | inObject hp hmember => exact (h _ hp).2 k v hmember

omit [PyFloat F] in
theorem masked_str (s : Str) : r.Masked (.str s) := by
  intro k v hmember
  cases hmember

/-! ### What `redact` yields -/

/-- What stands under a key afterwards, where `redact` does not raise. -/
def shown (r : Redactor F) (key : Str) (v : PyVal F) : PyVal F :=
  if r.blocks key then .str (lit "[REDACTED]") else (r.redact v).toOption.getD .none

theorem redactItems_eq_ok {items items' : List (PyKey F × PyVal F)}
    (h : r.redactItems items = .ok items') :
    items' = (items.map fun p => (p.1, r.shown p.1.text p.2)) ∧
      ∀ p ∈ items, r.blocks p.1.text = false → ∃ v, r.redact p.2 = .ok v := by
  induction items generalizing items' with
  | nil =>
    cases h
    exact ⟨rfl, fun p hp => absurd hp List.not_mem_nil⟩
  | cons p items ih =>
    obtain ⟨key, v⟩ := p
    rw [redactItems] at h
    obtain ⟨v', hv, h⟩ := except_bind_eq_ok.mp h
    obtain ⟨rest, hrest, h⟩ := except_bind_eq_ok.mp h
    cases h
    obtain ⟨rfl, hall⟩ := ih hrest
    cases hkey : r.blocks key.text with
    | true =>
      rw [hkey] at hv
      cases hv
      refine ⟨by simp [shown, hkey], ?_⟩
      rw [List.forall_mem_cons]
      exact ⟨fun hfalse => absurd (hkey.symm.trans hfalse) Bool.noConfusion, hall⟩
    | false =>
      rw [hkey] at hv
      replace hv : r.redact v = .ok v' := hv
      refine ⟨by simp [shown, hkey, hv, Except.toOption], ?_⟩
      rw [List.forall_mem_cons]
      exact ⟨fun _ => ⟨v', hv⟩, hall⟩

theorem redactAll_eq_ok {xs xs' : List (PyVal F)} (h : r.redactAll xs = .ok xs') :
    List.Forall₂ (fun x x' => r.redact x = .ok x') xs xs' := by
  induction xs generalizing xs' with
  | nil =>
    cases h
    exact .nil
  | cons x xs ih =>
    rw [redactAll] at h
    obtain ⟨x', hx, h⟩ := except_bind_eq_ok.mp h
    obtain ⟨rest, hrest, h⟩ := except_bind_eq_ok.mp h
    cases h
    exact .cons hx (ih hrest)

theorem toJsonable_dict (items : List (PyKey F × PyVal F)) :
    toJsonable (.dict items) = .obj ((members items).map fun p => (p.1, toJsonable p.2)) := by
  have hitems : toJsonableItems items =
      (items.map fun p => (p.1.text, p.2)).map fun p => (p.1, toJsonable p.2) := by
    rw [toJsonableItems_eq_map, List.map_map]
    rfl
  rw [toJsonable, hitems, sortByKey_map_snd, dictOf_map (f := fun _ => toJsonable)]
  rfl

/-- Masking changes the values of a dictionary under their keys. -/
theorem members_shown (items : List (PyKey F × PyVal F)) :
    members (items.map fun p => (p.1, r.shown p.1.text p.2)) =
      (members items).map fun p => (p.1, r.shown p.1 p.2) := by
  have hitems : (items.map fun p => (p.1, r.shown p.1.text p.2)).map (fun p => (p.1.text, p.2)) =
      (items.map fun p => (p.1.text, p.2)).map fun p => (p.1, r.shown p.1 p.2) := by
    rw [List.map_map, List.map_map]
    rfl
  rw [members, hitems, sortByKey_map (f := r.shown), dictOf_map (f := r.shown)]
  rfl

theorem mem_of_mem_members {items : List (PyKey F × PyVal F)} {p : Str × PyVal F}
    (h : p ∈ members items) : ∃ q ∈ items, q.1.text = p.1 ∧ q.2 = p.2 := by
  obtain ⟨q, hq, rfl⟩ := List.mem_map.mp (mem_sortByKey.mp (mem_of_mem_dictOf h))
  exact ⟨q, hq, rfl, rfl⟩

theorem leaks_dict {items : List (PyKey F × PyVal F)} : r.Leaks (.dict items) ↔
    ∃ p ∈ members items, r.blocks p.1 = false ∧ r.Leaks p.2 := by
  constructor
  · intro h
    cases h with
    | kept henters _ => cases henters
    | dict hmem hkey h => exact ⟨_, hmem, hkey, h⟩
  · rintro ⟨p, hmem, hkey, h⟩
    exact .dict hmem hkey h

/-- What the elements of a list, a tuple or a set show. -/
theorem masked_all {xs xs' : List (PyVal F)}
    (hall : List.Forall₂ (fun x x' => r.redact x = .ok x') xs xs')
    (ih : ∀ x ∈ xs, ∀ x', r.redact x = .ok x' → (r.Masked (toJsonable x') ↔ ¬ r.Leaks x)) :
    (∀ j ∈ toJsonableAll xs', r.Masked j) ↔ ¬ ∃ x ∈ xs, r.Leaks x := by
  rw [toJsonableAll_eq_map, List.forall_mem_map, not_exists]
  simp only [not_and]
  induction hall with
  | nil => simp
  | cons hx _ ihall =>
    rw [List.forall_mem_cons, List.forall_mem_cons, ih _ List.mem_cons_self _ hx,
      ihall fun x hmem => ih x (List.mem_cons_of_mem _ hmem)]

omit [PyFloat F] in
theorem sortByRepr_perm {xs xs' : List (PyVal F)} (h : r.sortByRepr xs = .ok xs') :
    xs'.Perm xs := by
  obtain ⟨keyed, hkeyed, h⟩ := except_bind_eq_ok.mp h
  cases h
  have hsnd : keyed.map Prod.snd = xs := by
    clear * - hkeyed
    induction xs generalizing keyed with
    | nil =>
      cases hkeyed
      rfl
    | cons x xs ih =>
      rw [List.mapM_cons] at hkeyed
      obtain ⟨pair, hpair, hkeyed⟩ := except_bind_eq_ok.mp hkeyed
      obtain ⟨rest, hrest, hkeyed⟩ := except_bind_eq_ok.mp hkeyed
      obtain ⟨text, -, hpair⟩ := except_bind_eq_ok.mp hpair
      cases hpair
      cases hkeyed
      rw [List.map_cons, ih _ hrest]
  rw [← hsnd]
  exact (sortByKey_perm keyed).map Prod.snd

/-- What is recorded of a value is masked, unless `redact` left something in
that `to_jsonable` expands. -/
theorem masked_redact_iff (v : PyVal F) : ∀ v', r.redact v = .ok v' →
    (r.Masked (toJsonable v') ↔ ¬ r.Leaks v) := by
  have hkept : ∀ v, enters v = false → (r.Masked (toJsonable v) ↔ ¬ r.Leaks v) := by
    intro v henters
    constructor
    · intro hmasked hleaks
      cases hleaks with
      | kept _ h => exact h hmasked
      | dict | list | tuple | set => cases henters
    · exact fun h => not_not.mp fun hmasked => h (.kept henters hmasked)
  induction v using PyVal.induct with
  | dict items ih =>
    intro v' h
    rw [redact] at h
    obtain ⟨items', hitems, h⟩ := except_bind_eq_ok.mp h
    cases h
    obtain ⟨rfl, hall⟩ := redactItems_eq_ok hitems
    rw [toJsonable_dict, members_shown, List.map_map, masked_obj, List.forall_mem_map, leaks_dict]
    simp only [not_exists, not_and]
    refine forall₂_congr fun p hp => ?_
    obtain ⟨q, hq, hkey, hvalue⟩ := mem_of_mem_members hp
    cases hblocks : r.blocks p.1 with
    | true => simp [shown, hblocks, toJsonable, masked_str]
    | false =>
      rw [← hkey] at hblocks
      obtain ⟨w, hw⟩ := hall q hq hblocks
      rw [hkey] at hblocks
      have hshown : r.shown p.1 p.2 = w := by
        rw [shown, hblocks, ← hvalue, hw]
        rfl
      rw [Function.comp_apply, hshown, ih q hq w hw, hvalue]
      simp [hblocks]
  | list xs ih =>
    intro v' h
    rw [redact] at h
    obtain ⟨xs', hxs, h⟩ := except_bind_eq_ok.mp h
    cases h
    rw [toJsonable, masked_arr, masked_all (redactAll_eq_ok hxs) ih]
    refine not_congr ⟨?_, ?_⟩
    · rintro ⟨x, hx, hleaks⟩
      exact .list hx hleaks
    · intro hleaks
      cases hleaks with
      | kept henters _ => cases henters
      | list hx hleaks => exact ⟨_, hx, hleaks⟩
  | tuple xs ih =>
    intro v' h
    rw [redact] at h
    obtain ⟨xs', hxs, h⟩ := except_bind_eq_ok.mp h
    cases h
    rw [toJsonable, masked_arr, masked_all (redactAll_eq_ok hxs) ih]
    refine not_congr ⟨?_, ?_⟩
    · rintro ⟨x, hx, hleaks⟩
      exact .tuple hx hleaks
    · intro hleaks
      cases hleaks with
      | kept henters _ => cases henters
      | tuple hx hleaks => exact ⟨_, hx, hleaks⟩
  | set xs ih =>
    intro v' h
    rw [redact] at h
    obtain ⟨xs', hxs, h⟩ := except_bind_eq_ok.mp h
    obtain ⟨sorted, hsorted, h⟩ := except_bind_eq_ok.mp h
    cases h
    -- the elements are those of the set, in another order
    have hperm := (sortByRepr_perm hsorted).map toJsonable
    have helements : (∀ j ∈ toJsonableAll sorted, r.Masked j) ↔
        ∀ j ∈ toJsonableAll xs', r.Masked j := by
      rw [toJsonableAll_eq_map, toJsonableAll_eq_map]
      exact forall_congr' fun j => by rw [hperm.mem_iff]
    rw [toJsonable, masked_arr, helements, masked_all (redactAll_eq_ok hxs) ih]
    refine not_congr ⟨?_, ?_⟩
    · rintro ⟨x, hx, hleaks⟩
      exact .set hx hleaks
    · intro hleaks
      cases hleaks with
      | kept henters _ => cases henters
      | set hx hleaks => exact ⟨_, hx, hleaks⟩
  | _ =>
    intro v' h
    cases h
    exact hkept _ rfl

end Redactor

end AgentRoi
