/-
JSON values and the text `json.dumps` prints for them.

`Json F` is what `json.loads` can return, with `F` standing for the finite
floats: `NaN` and the infinities are values of their own, as Python's reader
accepts them.  Objects are association lists in insertion order.

* `PyFloat` — what is used of Python's floats: `repr` reads back as the same
  float, and its text is a decimal literal with a fraction or an exponent;
* `sortKeys`, `render` — `json.dumps(…, sort_keys=True,
  separators=(",", ":"), ensure_ascii=False)` in two passes;
* `Json.Clean` — the values `json.dumps(…, allow_nan=False)` prints: finite
  floats, and distinct keys in every object;
* `Json.Same` — equality of Python values, for which the order of an object's
  members does not count.
-/
import AgentRoi.PyStr
import AgentRoi.Dict

namespace AgentRoi

/-! ### Floats -/

/-- A float: finite, or one of the three that are not. -/
inductive FloatVal (F : Type) where
  | finite (f : F)
  | nan
  | inf
  | negInf
  deriving DecidableEq, Repr

/-- The integer part of a decimal literal: no superfluous leading zero. -/
def IsIntPart (w : Str) : Prop :=
  w = [48] ∨ ∃ c ds, w = c :: ds ∧ 49 ≤ c ∧ c ≤ 57 ∧ ∀ d ∈ ds, isDigit d = true

/-- A fraction, possibly absent. -/
def IsFracPart (f : Str) : Prop :=
  f = [] ∨ ∃ ds, f = 46 :: ds ∧ ds ≠ [] ∧ ∀ d ∈ ds, isDigit d = true

/-- A signed exponent, possibly absent. -/
def IsExpPart (e : Str) : Prop :=
  e = [] ∨ ∃ s ds, e = 101 :: s :: ds ∧ (s = 43 ∨ s = 45) ∧ ds ≠ [] ∧
    ∀ d ∈ ds, isDigit d = true

/-- The shape of `repr` of a finite float. -/
def IsFloatText (t : Str) : Prop :=
  ∃ (neg : Bool) (w f e : Str), t = (if neg then [45] else []) ++ (w ++ (f ++ e)) ∧
    IsIntPart w ∧ IsFracPart f ∧ IsExpPart e ∧ (f ≠ [] ∨ e ≠ [])

/-- Python's finite floats, known by `repr` and `float(text)`. -/
class PyFloat (F : Type) where
  repr : F → Str
  ofText : Str → FloatVal F
  repr_isFloatText : ∀ f, IsFloatText (repr f)
  ofText_repr : ∀ f, ofText (repr f) = .finite f

/-- The float 0.5 alone, a type of finite floats to run the definitions on. -/
inductive Half where
  | half
  deriving DecidableEq

instance : PyFloat Half where
  repr _ := lit "0.5"
  ofText t := if t = lit "0.5" then .finite .half else .nan
  repr_isFloatText _ := ⟨false, [48], [46, 53], [], rfl, .inl rfl,
    .inr ⟨[53], rfl, by decide, by decide⟩, .inl rfl, .inl (by decide)⟩
  ofText_repr _ := rfl

/-- `str(float)`. -/
def FloatVal.text {F : Type} [PyFloat F] : FloatVal F → Str
  | .finite f => PyFloat.repr f
  | .nan => lit "nan"
  | .inf => lit "inf"
  | .negInf => lit "-inf"

/-- How `json.dumps` prints a float. -/
def FloatVal.json {F : Type} [PyFloat F] : FloatVal F → Str
  | .finite f => PyFloat.repr f
  | .nan => lit "NaN"
  | .inf => lit "Infinity"
  | .negInf => lit "-Infinity"

/-! ### Values -/

inductive Json (F : Type) where
  | null
  | bool (b : Bool)
  | int (i : Int)
  | float (x : FloatVal F)
  | str (s : Str)
  | arr (xs : List (Json F))
  | obj (kvs : List (Str × Json F))

namespace Json

variable {F : Type}

/-- Induction on a JSON value, with the hypotheses for the elements of an
array and the members of an object. -/
theorem induct {motive : Json F → Prop} (null : motive .null)
    (bool : ∀ b, motive (.bool b)) (int : ∀ i, motive (.int i))
    (float : ∀ x, motive (.float x)) (str : ∀ s, motive (.str s))
    (arr : ∀ xs, (∀ x ∈ xs, motive x) → motive (.arr xs))
    (obj : ∀ kvs, (∀ p ∈ kvs, motive p.2) → motive (.obj kvs)) (j : Json F) : motive j :=
  Json.rec (motive_1 := motive) (motive_2 := fun xs => ∀ x ∈ xs, motive x)
    (motive_3 := fun kvs => ∀ p ∈ kvs, motive p.2) (motive_4 := fun p => motive p.2)
    null bool int float str (fun xs ih => arr xs ih) (fun kvs ih => obj kvs ih)
    (fun _ h => absurd h (by simp))
    (fun x xs hx hxs y hy => by
      rcases List.mem_cons.mp hy with rfl | hy
      · exact hx
      · exact hxs y hy)
    (fun _ h => absurd h (by simp))
    (fun p kvs hp hkvs q hq => by
      rcases List.mem_cons.mp hq with rfl | hq
      · exact hp
      · exact hkvs q hq)
    (fun _ _ h => h) j

/-! ### Sorting the keys -/

mutual
/-- `sort_keys=True`, at every depth. -/
def sortKeys : Json F → Json F
  | .null => .null
  | .bool b => .bool b
  | .int i => .int i
  | .float x => .float x
  | .str s => .str s
  | .arr xs => .arr (sortKeysItems xs)
  | .obj kvs => .obj (sortByKey (sortKeysMembers kvs))

def sortKeysItems : List (Json F) → List (Json F)
  | [] => []
  | x :: xs => sortKeys x :: sortKeysItems xs

def sortKeysMembers : List (Str × Json F) → List (Str × Json F)
  | [] => []
  | (k, v) :: kvs => (k, sortKeys v) :: sortKeysMembers kvs
end

theorem sortKeysItems_eq_map (xs : List (Json F)) : sortKeysItems xs = xs.map sortKeys := by
  induction xs with
  | nil => rfl
  | cons x xs ih => simp [sortKeysItems, ih]

theorem sortKeysMembers_eq_map (kvs : List (Str × Json F)) :
    sortKeysMembers kvs = kvs.map fun p => (p.1, sortKeys p.2) := by
  induction kvs with
  | nil => rfl
  | cons p kvs ih => simp [sortKeysMembers, ih]

@[simp] theorem sortKeys_arr (xs : List (Json F)) :
    sortKeys (.arr xs) = .arr (xs.map sortKeys) := by
  simp [sortKeys, sortKeysItems_eq_map]

theorem sortKeys_obj (kvs : List (Str × Json F)) :
    sortKeys (.obj kvs) = .obj ((sortByKey kvs).map fun p => (p.1, sortKeys p.2)) := by
  simp [sortKeys, sortKeysMembers_eq_map, sortByKey_map_snd]

theorem sortKeys_sortKeys (j : Json F) : j.sortKeys.sortKeys = j.sortKeys := by
  induction j using Json.induct with
  | arr xs ih =>
    simp only [sortKeys_arr, List.map_map]
    congr 1
    exact List.map_congr_left ih
  | obj kvs ih =>
    rw [sortKeys_obj, sortKeys_obj, sortByKey_map_snd, sortByKey_sortByKey, List.map_map]
    congr 1
    refine List.map_congr_left fun p hp => ?_
    simp [ih p (mem_sortByKey.mp hp)]
  | _ => rfl

/-- Equal as Python values: the order of members does not count. -/
def Same (a b : Json F) : Prop := a.sortKeys = b.sortKeys

theorem Same.refl (a : Json F) : Same a a := rfl

theorem Same.symm {a b : Json F} (h : Same a b) : Same b a := Eq.symm h

theorem Same.trans {a b c : Json F} (h : Same a b) (h' : Same b c) : Same a c := Eq.trans h h'

theorem same_sortKeys (a : Json F) : Same a.sortKeys a := sortKeys_sortKeys a

/-! ### Distinct keys, clean values -/

/-- Distinct keys in every object, as in every Python dictionary. -/
inductive Distinct : Json F → Prop
  | null : Distinct .null
  | bool (b : Bool) : Distinct (.bool b)
  | int (i : Int) : Distinct (.int i)
  | float (x : FloatVal F) : Distinct (.float x)
  | str (s : Str) : Distinct (.str s)
  | arr {xs : List (Json F)} : (∀ x ∈ xs, Distinct x) → Distinct (.arr xs)
  | obj {kvs : List (Str × Json F)} : (kvs.map Prod.fst).Nodup →
      (∀ p ∈ kvs, Distinct p.2) → Distinct (.obj kvs)

theorem distinct_obj_iff {kvs : List (Str × Json F)} :
    Distinct (.obj kvs) ↔ (kvs.map Prod.fst).Nodup ∧ ∀ p ∈ kvs, Distinct p.2 :=
  ⟨fun | .obj h h' => ⟨h, h'⟩, fun h => .obj h.1 h.2⟩

/-- Finite floats only, and distinct keys in every object. -/
inductive Clean : Json F → Prop
  | null : Clean .null
  | bool (b : Bool) : Clean (.bool b)
  | int (i : Int) : Clean (.int i)
  | float (f : F) : Clean (.float (.finite f))
  | str (s : Str) : Clean (.str s)
  | arr {xs : List (Json F)} : (∀ x ∈ xs, Clean x) → Clean (.arr xs)
  | obj {kvs : List (Str × Json F)} : (kvs.map Prod.fst).Nodup →
      (∀ p ∈ kvs, Clean p.2) → Clean (.obj kvs)

theorem clean_obj_iff {kvs : List (Str × Json F)} :
    Clean (.obj kvs) ↔ (kvs.map Prod.fst).Nodup ∧ ∀ p ∈ kvs, Clean p.2 :=
  ⟨fun | .obj h h' => ⟨h, h'⟩, fun h => .obj h.1 h.2⟩

theorem Clean.distinct {j : Json F} (h : Clean j) : Distinct j := by
  induction h with
  | arr _ ih => exact .arr ih
  | obj hnd _ ih => exact .obj hnd ih
  | _ => constructor

theorem Clean.sortKeys {j : Json F} (h : Clean j) : Clean j.sortKeys := by
  induction h with
  | arr _ ih =>
    rw [sortKeys_arr]
    refine .arr fun y hy => ?_
    obtain ⟨x, hx, rfl⟩ := List.mem_map.mp hy
    exact ih x hx
  | obj hnd _ ih =>
    rw [sortKeys_obj]
    refine .obj ?_ fun q hq => ?_
    · rw [List.map_map]
      exact nodup_keys_sortByKey.mpr hnd
    · obtain ⟨p, hp, rfl⟩ := List.mem_map.mp hq
      exact ih p (mem_sortByKey.mp hp)
  | float f => exact .float f
  | _ => constructor

/-! ### Printing -/

/-- A lowercase hexadecimal digit. -/
def hexDigit (d : Nat) : Nat := if d < 10 then 48 + d else 87 + d

/-- `json.encoder.encode_basestring` on one code point. -/
def escapeChar (c : Nat) : Str :=
  if c = 34 then [92, 34]
  else if c = 92 then [92, 92]
  else if c = 10 then [92, 110]
  else if c = 13 then [92, 114]
  else if c = 9 then [92, 116]
  else if c = 12 then [92, 102]
  else if c = 8 then [92, 98]
  else if c < 32 then [92, 117, 48, 48, hexDigit (c / 16), hexDigit (c % 16)]
  else [c]

/-- A quoted string with `ensure_ascii=False`. -/
def quote (s : Str) : Str := 34 :: (s.flatMap escapeChar ++ [34])

variable [PyFloat F]

mutual
/-- The compact text of a value, members in the order they stand. -/
def render : Json F → Str
  | .null => lit "null"
  | .bool true => lit "true"
  | .bool false => lit "false"
  | .int i => intText i
  | .float x => x.json
  | .str s => quote s
  | .arr [] => lit "[]"
  | .arr (x :: xs) => 91 :: (render x ++ renderItems xs)
  | .obj [] => lit "\x7b\x7d"
  | .obj ((k, v) :: kvs) => 123 :: (quote k ++ 58 :: (render v ++ renderMembers kvs))

/-- The elements after the first, and the closing bracket. -/
def renderItems : List (Json F) → Str
  | [] => [93]
  | x :: xs => 44 :: (render x ++ renderItems xs)

/-- The members after the first, and the closing brace. -/
def renderMembers : List (Str × Json F) → Str
  | [] => [125]
  | (k, v) :: kvs => 44 :: (quote k ++ 58 :: (render v ++ renderMembers kvs))
end

end Json

end AgentRoi
