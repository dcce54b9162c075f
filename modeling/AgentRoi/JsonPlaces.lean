/-
Places inside a JSON value, and what naming the floats forgets.

`to_jsonable` writes NaN and the infinities as strings, so a value read back
from a file and one in which a string stands for such a number print alike.
That is all it forgets:

* `at?` — the value at a path of indices and keys;
* `NonFiniteAt` — a number that is not finite stands at the path;
* `same_iff_nonFiniteAt` — two values that print alike are the same exactly
  when their numbers that are not finite stand at the same places.
-/
import AgentRoi.Serialization

namespace AgentRoi

namespace Json

variable {F : Type}

/-- One step into an array or an object. -/
inductive Step where
  | index (i : Nat)
  | key (k : Str)

/-- The value at a path. -/
def at? : Json F → List Step → Option (Json F)
  | j, [] => some j
  | .arr xs, .index i :: path => (xs[i]?).bind fun x => at? x path
  | .obj kvs, .key k :: path => (dictGet k kvs).bind fun v => at? v path
  | _, _ => none

def isNonFinite : Json F → Bool
  | .float (.finite _) => false
  | .float _ => true
  | _ => false

/-- A number that is not finite stands at the path. -/
def NonFiniteAt (j : Json F) (path : List Step) : Prop :=
  (at? j path).any isNonFinite = true

@[simp] theorem isNonFinite_sortKeys (j : Json F) : j.sortKeys.isNonFinite = j.isNonFinite := by
  cases j with
  | arr xs => rw [sortKeys_arr]; rfl
  | obj kvs => rw [sortKeys_obj]; rfl
  | _ => rfl

/-- Sorting the keys moves nothing to another place. -/
theorem at?_sortKeys : ∀ {j : Json F} (path : List Step), j.Distinct →
    at? j.sortKeys path = (at? j path).map sortKeys
  | j, [], _ => by simp [at?]
  | .arr xs, .index i :: path, h => by
    rw [sortKeys_arr, at?, at?, List.getElem?_map]
    cases hx : xs[i]? with
    | none => rfl
    | some x =>
      cases h with
      | arr h => exact at?_sortKeys path (h x (List.mem_of_getElem? hx))
  | .obj kvs, .key k :: path, h => by
    obtain ⟨hnd, hall⟩ := distinct_obj_iff.mp h
    rw [sortKeys_obj, at?, at?, dictGet_map_snd (f := sortKeys), dictGet_sortByKey hnd]
    cases hv : dictGet k kvs with
    | none => rfl
    | some v => exact at?_sortKeys path (hall (k, v) ((dictGet_eq_some_iff hnd).mp hv))
  | .arr xs, .key k :: path, _ => by rw [sortKeys_arr]; rfl
  | .obj kvs, .index i :: path, _ => by rw [sortKeys_obj]; rfl
  | .null, _ :: _, _ | .bool _, _ :: _, _ | .int _, _ :: _, _ | .float _, _ :: _, _
  | .str _, _ :: _, _ => by simp [sortKeys, at?]

theorem nonFiniteAt_sortKeys {j : Json F} (h : j.Distinct) (path : List Step) :
    NonFiniteAt j.sortKeys path ↔ NonFiniteAt j path := by
  rw [NonFiniteAt, NonFiniteAt, at?_sortKeys path h]
  cases at? j path <;> simp

theorem Distinct.sortKeys {j : Json F} (h : j.Distinct) : j.sortKeys.Distinct := by
  induction h with
  | arr _ ih =>
    rw [sortKeys_arr]
    refine .arr fun y hy => ?_
    obtain ⟨x, hx, rfl⟩ := List.mem_map.mp hy
    exact ih x hx
  | obj hnd _ ih =>
    rw [sortKeys_obj]
    refine .obj ?_ fun q hq => ?_
    · rw [List.map_map]
      exact nodup_keys_sortByKey.mpr hnd
    · obtain ⟨p, hp, rfl⟩ := List.mem_map.mp hq
      exact ih p (mem_sortByKey.mp hp)
  | _ => constructor

variable [PyFloat F]

theorem sortKeys_nameFloats (j : Json F) : j.nameFloats.sortKeys = j.sortKeys.nameFloats := by
  induction j using Json.induct with
  | float x => cases x <;> rfl
  | arr xs ih =>
    rw [nameFloats_arr, sortKeys_arr, sortKeys_arr, nameFloats_arr, List.map_map, List.map_map]
    exact congrArg _ (List.map_congr_left ih)
  | obj kvs ih =>
    rw [nameFloats_obj, sortKeys_obj, sortKeys_obj, nameFloats_obj,
      sortByKey_map_snd (f := nameFloats), List.map_map, List.map_map]
    exact congrArg _ (List.map_congr_left fun p hp => Prod.ext rfl (ih p (mem_sortByKey.mp hp)))
  | _ => rfl

omit [PyFloat F] in
/-- Agreement at every place below an element. -/
theorem nonFiniteAt_index {xs : List (Json F)} {i : Nat} {x : Json F} (h : xs[i]? = some x)
    (path : List Step) : NonFiniteAt (.arr xs) (.index i :: path) ↔ NonFiniteAt x path := by
  rw [NonFiniteAt, at?, h]
  rfl

omit [PyFloat F] in
theorem nonFiniteAt_key {kvs : List (Str × Json F)} {k : Str} {v : Json F}
    (h : dictGet k kvs = some v) (path : List Step) :
    NonFiniteAt (.obj kvs) (.key k :: path) ↔ NonFiniteAt v path := by
  rw [NonFiniteAt, at?, h]
  rfl

/-- The floats that are not finite have different names. -/
theorem FloatVal.text_inj : ∀ {x y : FloatVal F}, isNonFinite (.float x) = true →
    isNonFinite (.float y) = true → x.text = y.text → x = y
  | .nan, .nan, _, _, _ | .inf, .inf, _, _, _ | .negInf, .negInf, _, _, _ => rfl
  | .nan, .inf, _, _, h => absurd h (by decide : lit "nan" ≠ lit "inf")
  | .nan, .negInf, _, _, h => absurd h (by decide : lit "nan" ≠ lit "-inf")
  | .inf, .nan, _, _, h => absurd h (by decide : lit "inf" ≠ lit "nan")
  | .inf, .negInf, _, _, h => absurd h (by decide : lit "inf" ≠ lit "-inf")
  | .negInf, .nan, _, _, h => absurd h (by decide : lit "-inf" ≠ lit "nan")
  | .negInf, .inf, _, _, h => absurd h (by decide : lit "-inf" ≠ lit "inf")

/-- A float that is not finite is named, any other is kept. -/
theorem nameFloats_float {x : FloatVal F} :
    nameFloats (.float x) = if isNonFinite (.float x : Json F) then .str x.text else .float x := by
  cases x <;> rfl

/-- At the root: the same kind of value, up to what lies inside it. -/
theorem nameFloats_root {a b : Json F} (hn : a.nameFloats = b.nameFloats)
    (hroot : isNonFinite a = isNonFinite b) :
    a = b ∨ (∃ xs ys, a = .arr xs ∧ b = .arr ys) ∨ ∃ kvs kvs', a = .obj kvs ∧ b = .obj kvs' := by
  -- a number that is not finite prints as its name, which is the text of no other
  cases ha : a.isNonFinite with
  | true =>
    rw [ha] at hroot
    cases a with
    | float x =>
      cases b with
      | float y =>
        left
        rw [nameFloats_float, nameFloats_float, if_pos ha, if_pos hroot.symm] at hn
        rw [FloatVal.text_inj ha hroot.symm (Json.str.inj hn)]
      | _ => cases hroot
    | _ => cases ha
  | false =>
    rw [ha] at hroot
    -- every other value keeps its kind
    have hfin : ∀ x : FloatVal F, isNonFinite (.float x) = false →
        nameFloats (.float x) = .float x := by
      intro x hx
      rw [nameFloats_float, hx]
      rfl
    cases a with
    | arr xs =>
      cases b with
      | arr ys => exact .inr (.inl ⟨xs, ys, rfl, rfl⟩)
      | float y =>
        rw [hfin y hroot.symm] at hn
        cases hn
      | _ => cases hn
    | obj kvs =>
      cases b with
      | obj kvs' => exact .inr (.inr ⟨kvs, kvs', rfl, rfl⟩)
      | float y =>
        rw [hfin y hroot.symm] at hn
        cases hn
      | _ => cases hn
    | float x =>
      rw [hfin x ha] at hn
      cases b with
      | float y =>
        rw [hfin y hroot.symm] at hn
        exact .inl hn
      | _ => cases hn
    | _ =>
      cases b with
      | float y =>
        rw [hfin y hroot.symm] at hn
        cases hn
      | _ => cases hn <;> exact .inl rfl

/-- Two values that print alike and have their numbers that are not finite at
the same places are equal.  By induction on the first, the second having the
same shape. -/
theorem eq_of_nameFloats_eq {a : Json F} : ∀ {b : Json F}, a.Distinct → b.Distinct →
    a.nameFloats = b.nameFloats → (∀ path, NonFiniteAt a path ↔ NonFiniteAt b path) → a = b := by
  have root : ∀ {a b : Json F}, (∀ path, NonFiniteAt a path ↔ NonFiniteAt b path) →
      isNonFinite a = isNonFinite b := by
    intro a b h
    have h0 := h []
    simp only [NonFiniteAt, at?, Option.any_some] at h0
    exact Bool.eq_iff_iff.mpr h0
  induction a using Json.induct with
  | arr xs ih =>
    intro b ha hb hn hp
    rcases nameFloats_root hn (root hp) with h | ⟨xs', ys, hxs, rfl⟩ | ⟨_, _, h, -⟩
    · exact h
    · cases hxs
      rw [nameFloats_arr, nameFloats_arr, Json.arr.injEq] at hn
      refine congrArg _ (List.ext_getElem? fun i => ?_)
      have hi : (xs[i]?).map nameFloats = (ys[i]?).map nameFloats := by
        rw [← List.getElem?_map, ← List.getElem?_map, hn]
      cases hx : xs[i]? with
      | none =>
        rw [hx, Option.map_none, eq_comm, Option.map_eq_none_iff] at hi
        exact hi.symm
      | some x =>
        rw [hx, Option.map_some, eq_comm, Option.map_eq_some_iff] at hi
        obtain ⟨y, hy, hxy⟩ := hi
        cases ha with
        | arr ha =>
          cases hb with
          | arr hb =>
            have hmem := List.mem_of_getElem? hx
            rw [hy, ih x hmem (ha x hmem) (hb y (List.mem_of_getElem? hy)) hxy.symm fun path => ?_]
            rw [← nonFiniteAt_index hx, ← nonFiniteAt_index hy]
            exact hp _
    · cases h
  | obj kvs ih =>
    intro b ha hb hn hp
    rcases nameFloats_root hn (root hp) with h | ⟨_, _, h, -⟩ | ⟨kvs₁, kvs', hk, rfl⟩
    · exact h
    · cases h
    · cases hk
      obtain ⟨hnd, hall⟩ := distinct_obj_iff.mp ha
      obtain ⟨hnd', hall'⟩ := distinct_obj_iff.mp hb
      rw [nameFloats_obj, nameFloats_obj, Json.obj.injEq] at hn
      refine congrArg _ (List.ext_getElem? fun i => ?_)
      have hi : (kvs[i]?).map (fun p => (p.1, p.2.nameFloats)) =
          (kvs'[i]?).map fun p => (p.1, p.2.nameFloats) := by
        rw [← List.getElem?_map, ← List.getElem?_map, hn]
      cases hx : kvs[i]? with
      | none =>
        rw [hx, Option.map_none, eq_comm, Option.map_eq_none_iff] at hi
        exact hi.symm
      | some p =>
        rw [hx, Option.map_some, eq_comm, Option.map_eq_some_iff] at hi
        obtain ⟨q, hq, hpq⟩ := hi
        obtain ⟨k, v⟩ := p
        obtain ⟨k', w⟩ := q
        obtain ⟨rfl, hvw⟩ := Prod.mk.inj hpq
        have hmem := List.mem_of_getElem? hx
        have hmem' := List.mem_of_getElem? hq
        have hv := (dictGet_eq_some_iff hnd).mpr hmem
        have hw := (dictGet_eq_some_iff hnd').mpr hmem'
        have heq : v = w := ih _ hmem (hall _ hmem) (hall' _ hmem') hvw.symm fun path => by
          rw [← nonFiniteAt_key hv, ← nonFiniteAt_key hw]
          exact hp _
        rw [hq, heq]
  | _ =>
    intro b _ _ hn hp
    rcases nameFloats_root hn (root hp) with h | ⟨_, _, h, -⟩ | ⟨_, _, h, -⟩
    · exact h
    · cases h
    · cases h

/-- What naming the floats forgets, for values read from JSON. -/
theorem same_iff_nonFiniteAt {a b : Json F} (ha : a.Distinct) (hb : b.Distinct)
    (hn : a.nameFloats.Same b.nameFloats) :
    a.Same b ↔ ∀ path, NonFiniteAt a path ↔ NonFiniteAt b path := by
  rw [Same, sortKeys_nameFloats, sortKeys_nameFloats] at hn
  constructor
  · intro h path
    rw [← nonFiniteAt_sortKeys ha, ← nonFiniteAt_sortKeys hb, h]
  · intro h
    refine eq_of_nameFloats_eq ha.sortKeys hb.sortKeys hn fun path => ?_
    rw [nonFiniteAt_sortKeys ha, nonFiniteAt_sortKeys hb]
    exact h path

end Json

end AgentRoi
