/-
`agent_roi._serialization`: canonical JSON and digests.

`PyVal F` lists the kinds of Python value `to_jsonable` tells apart, with `F`
for the finite floats.  An object of no kind of its own carries what
`to_jsonable` looks at: its type's qualified name and its `repr`.

* `toJsonable`, `canonicalJson`, `digestValue` — the three functions of the
  module; `max_repr` keeps its default of 1000, which no caller overrides;
* `toJsonable_clean` — what `to_jsonable` returns is printable: no float is
  NaN or infinite and no object repeats a key, so `allow_nan=False` never
  raises;
* `toJsonable_ofJson` — on a value read back from JSON it only sorts the keys
  and writes the floats that are not finite as strings.
-/
import AgentRoi.JsonRoundTrip
import AgentRoi.PyExc

namespace AgentRoi

/-- A dictionary key: a string, or an object known by `str(key)`. -/
inductive PyKey (F : Type) where
  | none
  | bool (b : Bool)
  | int (i : Int)
  | float (x : FloatVal F)
  | str (s : Str)
  | other (text : Str)
  deriving DecidableEq

/-- `str(key)`. -/
def PyKey.text {F : Type} [PyFloat F] : PyKey F → Str
  | .none => lit "None"
  | .bool true => lit "True"
  | .bool false => lit "False"
  | .int i => intText i
  | .float x => x.text
  | .str s => s
  | .other text => text

/-- The kinds of value `to_jsonable` tells apart; a `mapping` is one that is no
`dict`, which only `redact` looks at. -/
inductive PyVal (F : Type) where
  | none
  | bool (b : Bool)
  | int (i : Int)
  | float (x : FloatVal F)
  | str (s : Str)
  | decimal (text : Str)
  | enum (value : PyVal F)
  | isoTime (text : Str)
  | path (text : Str)
  | bytes (bs : List UInt8)
  | dataclass (fields : List (Str × PyVal F))
  | dict (items : List (PyKey F × PyVal F))
  | mapping (items : List (PyKey F × PyVal F))
  | list (xs : List (PyVal F))
  | tuple (xs : List (PyVal F))
  | set (xs : List (PyVal F))
  | frozenset (xs : List (PyVal F))
  | other (typeName : Str) (repr : Option Str)

/-- A dictionary with string keys, as a call or an event carries it. -/
abbrev PyDict (F : Type) := List (Str × PyVal F)

namespace PyVal

variable {F : Type}

/-- A dictionary all of whose keys are strings. -/
def ofFields (d : PyDict F) : PyVal F := .dict (d.map fun p => (.str p.1, p.2))

/-- Induction on a Python value, with the hypotheses for what it contains. -/
theorem induct {motive : PyVal F → Prop} (none : motive .none)
    (bool : ∀ b, motive (.bool b)) (int : ∀ i, motive (.int i))
    (float : ∀ x, motive (.float x)) (str : ∀ s, motive (.str s))
    (decimal : ∀ t, motive (.decimal t)) (enum : ∀ v, motive v → motive (.enum v))
    (isoTime : ∀ t, motive (.isoTime t)) (path : ∀ t, motive (.path t))
    (bytes : ∀ bs, motive (.bytes bs))
    (dataclass : ∀ fields, (∀ p ∈ fields, motive p.2) → motive (.dataclass fields))
    (dict : ∀ items, (∀ p ∈ items, motive p.2) → motive (.dict items))
    (mapping : ∀ items, (∀ p ∈ items, motive p.2) → motive (.mapping items))
    (list : ∀ xs, (∀ x ∈ xs, motive x) → motive (.list xs))
    (tuple : ∀ xs, (∀ x ∈ xs, motive x) → motive (.tuple xs))
    (set : ∀ xs, (∀ x ∈ xs, motive x) → motive (.set xs))
    (frozenset : ∀ xs, (∀ x ∈ xs, motive x) → motive (.frozenset xs))
    (other : ∀ n r, motive (.other n r)) (v : PyVal F) : motive v :=
  PyVal.rec (motive_1 := motive) (motive_2 := fun fields => ∀ p ∈ fields, motive p.2)
    (motive_3 := fun items => ∀ p ∈ items, motive p.2)
    (motive_4 := fun xs => ∀ x ∈ xs, motive x)
    (motive_5 := fun p => motive p.2) (motive_6 := fun p => motive p.2)
    none bool int float str decimal (fun v h => enum v h) isoTime path bytes
    (fun fields h => dataclass fields h) (fun items h => dict items h)
    (fun items h => mapping items h) (fun xs h => list xs h) (fun xs h => tuple xs h) (fun xs h => set xs h)
    (fun xs h => frozenset xs h) other
    (fun _ h => absurd h (by simp)) (fun _ _ hp hps => List.forall_mem_cons.mpr ⟨hp, hps⟩)
    (fun _ h => absurd h (by simp)) (fun _ _ hp hps => List.forall_mem_cons.mpr ⟨hp, hps⟩)
    (fun _ h => absurd h (by simp)) (fun _ _ hp hps => List.forall_mem_cons.mpr ⟨hp, hps⟩)
    (fun _ _ h => h) (fun _ _ h => h) v

end PyVal

/-! ### Base64 -/

/-- The sixty-four digits of base64. -/
def base64Digit (n : Nat) : Nat :=
  if n < 26 then 65 + n else if n < 52 then 71 + n else if n < 62 then n - 4
  else if n = 62 then 43 else 47

/-- `base64.b64encode(value).decode("ascii")`. -/
def base64 : List UInt8 → Str
  | a :: b :: c :: rest =>
    base64Digit (a.toNat / 4) :: base64Digit (a.toNat % 4 * 16 + b.toNat / 16) ::
      base64Digit (b.toNat % 16 * 4 + c.toNat / 64) :: base64Digit (c.toNat % 64) :: base64 rest
  | [a, b] =>
    [base64Digit (a.toNat / 4), base64Digit (a.toNat % 4 * 16 + b.toNat / 16),
      base64Digit (b.toNat % 16 * 4), 61]
  | [a] => [base64Digit (a.toNat / 4), base64Digit (a.toNat % 4 * 16), 61, 61]
  | [] => []

theorem base64Digit_inj {m n : Nat} (hm : m < 64) (hn : n < 64)
    (h : base64Digit m = base64Digit n) : m = n := by
  unfold base64Digit at h
  split_ifs at h <;> omega

theorem base64Digit_ne_pad {n : Nat} (h : n < 64) : base64Digit n ≠ 61 := by
  unfold base64Digit
  split_ifs <;> omega

theorem base64_inj : ∀ {bs cs : List UInt8}, base64 bs = base64 cs → bs = cs := by
  have hdig : ∀ {m n : Nat}, m < 64 → n < 64 → base64Digit m = base64Digit n → m = n :=
    base64Digit_inj
  have hpad : ∀ {n : Nat}, n < 64 → base64Digit n ≠ 61 := base64Digit_ne_pad
  have hbyte : ∀ x : UInt8, x.toNat < 256 := fun x => x.toNat_lt
  intro bs
  -- three bytes are four digits; a shorter rest ends in padding, which is no digit
  induction bs using base64.induct with
  | case1 a b c rest ih =>
    intro cs h
    have ha := hbyte a
    have hb := hbyte b
    have hc := hbyte c
    match cs with
    | a' :: b' :: c' :: rest' =>
      have ha' := hbyte a'
      have hb' := hbyte b'
      have hc' := hbyte c'
      simp only [base64, List.cons.injEq] at h
      obtain ⟨h1, h2, h3, h4, hrest⟩ := h
      have e1 := hdig (by omega) (by omega) h1
      have e2 := hdig (by omega) (by omega) h2
      have e3 := hdig (by omega) (by omega) h3
      have e4 := hdig (by omega) (by omega) h4
      rw [ih hrest, UInt8.toNat_inj.mp (show a.toNat = a'.toNat by omega),
        UInt8.toNat_inj.mp (show b.toNat = b'.toNat by omega),
        UInt8.toNat_inj.mp (show c.toNat = c'.toNat by omega)]
    | [a', b'] =>
      simp only [base64, List.cons.injEq] at h
      exact absurd h.2.2.2.1 (hpad (by omega))
    | [a'] =>
      simp only [base64, List.cons.injEq] at h
      exact absurd h.2.2.2.1 (hpad (by omega))
    | [] => simp [base64] at h
  | case2 a b =>
    intro cs h
    have ha := hbyte a
    have hb := hbyte b
    match cs with
    | a' :: b' :: c' :: rest' =>
      have hc' := hbyte c'
      simp only [base64, List.cons.injEq] at h
      exact absurd h.2.2.2.1.symm (hpad (by omega))
    | [a', b'] =>
      have ha' := hbyte a'
      have hb' := hbyte b'
      simp only [base64, List.cons.injEq] at h
      have e1 := hdig (by omega) (by omega) h.1
      have e2 := hdig (by omega) (by omega) h.2.1
      have e3 := hdig (by omega) (by omega) h.2.2.1
      rw [UInt8.toNat_inj.mp (show a.toNat = a'.toNat by omega),
        UInt8.toNat_inj.mp (show b.toNat = b'.toNat by omega)]
    | [a'] =>
      simp only [base64, List.cons.injEq] at h
      exact absurd h.2.2.1 (hpad (by omega))
    | [] => simp [base64] at h
  | case3 a =>
    intro cs h
    have ha := hbyte a
    match cs with
    | a' :: b' :: c' :: rest' =>
      have hc' := hbyte c'
      simp only [base64, List.cons.injEq] at h
      exact absurd h.2.2.2.1.symm (hpad (by omega))
    | [a', b'] =>
      have hb' := hbyte b'
      simp only [base64, List.cons.injEq] at h
      exact absurd h.2.2.1.symm (hpad (by omega))
    | [a'] =>
      have ha' := hbyte a'
      simp only [base64, List.cons.injEq] at h
      have e1 := hdig (by omega) (by omega) h.1
      have e2 := hdig (by omega) (by omega) h.2.1
      rw [UInt8.toNat_inj.mp (show a.toNat = a'.toNat by omega)]
    | [] => simp [base64] at h
  | case4 =>
    intro cs h
    match cs with
    | a' :: b' :: c' :: rest' => simp [base64] at h
    | [a', b'] => simp [base64] at h
    | [a'] => simp [base64] at h
    | [] => rfl

/-! ### `to_jsonable` -/

section

variable {F : Type} [PyFloat F]

/-- A float, or its name when JSON has no number for it. -/
def FloatVal.jsonable : FloatVal F → Json F
  | .finite f => .float (.finite f)
  | x => .str x.text

/-- `repr` cut to `max_repr` characters. -/
def boundedRepr (rendered : Str) : Str :=
  if rendered.length > 1000 then rendered.take 997 ++ lit "..." else rendered

/-- `sorted(converted, key=canonical_json)` on converted elements. -/
def sortByText (xs : List (Json F)) : List (Json F) :=
  xs.insertionSort fun a b => a.sortKeys.render ≤ b.sortKeys.render

mutual
def toJsonable : PyVal F → Json F
  | .none => .null
  | .bool b => .bool b
  | .int i => .int i
  | .float x => x.jsonable
  | .str s => .str s
  | .decimal text => .str text
  | .enum value => toJsonable value
  | .isoTime text => .str text
  | .path text => .str text
  | .bytes bs => .obj [(lit "__type__", .str (lit "bytes")), (lit "base64", .str (base64 bs))]
  | .dataclass fields => .obj (dictOf (toJsonableFields fields))
  | .dict items => .obj (dictOf (sortByKey (toJsonableItems items)))
  | .mapping items => .obj (dictOf (sortByKey (toJsonableItems items)))
  | .list xs => .arr (toJsonableAll xs)
  | .tuple xs => .arr (toJsonableAll xs)
  | .set xs => .arr (sortByText (toJsonableAll xs))
  | .frozenset xs => .arr (sortByText (toJsonableAll xs))
  | .other typeName repr =>
    .obj [(lit "__type__", .str typeName),
      (lit "repr", .str (boundedRepr (repr.getD (lit "<unreprable>"))))]

def toJsonableFields : List (Str × PyVal F) → List (Str × Json F)
  | [] => []
  | (name, v) :: fields => (name, toJsonable v) :: toJsonableFields fields

def toJsonableItems : List (PyKey F × PyVal F) → List (Str × Json F)
  | [] => []
  | (key, v) :: items => (key.text, toJsonable v) :: toJsonableItems items

def toJsonableAll : List (PyVal F) → List (Json F)
  | [] => []
  | v :: vs => toJsonable v :: toJsonableAll vs
end

theorem toJsonableFields_eq_map (fields : List (Str × PyVal F)) :
    toJsonableFields fields = fields.map fun p => (p.1, toJsonable p.2) := by
  induction fields with
  | nil => rfl
  | cons p fields ih => simp [toJsonableFields, ih]

theorem toJsonableItems_eq_map (items : List (PyKey F × PyVal F)) :
    toJsonableItems items = items.map fun p => (p.1.text, toJsonable p.2) := by
  induction items with
  | nil => rfl
  | cons p items ih => simp [toJsonableItems, ih]

theorem toJsonableAll_eq_map (vs : List (PyVal F)) :
    toJsonableAll vs = vs.map toJsonable := by
  induction vs with
  | nil => rfl
  | cons v vs ih => simp [toJsonableAll, ih]

/-- `json.dumps(to_jsonable(value), sort_keys=True, …)`. -/
def canonicalJson (v : PyVal F) : Str := (toJsonable v).sortKeys.render

theorem FloatVal.jsonable_clean (x : FloatVal F) : x.jsonable.Clean := by
  cases x with
  | finite f => exact .float f
  | _ => exact .str _

omit [PyFloat F] in
theorem clean_obj_dictOf {ps : List (Str × Json F)} (h : ∀ p ∈ ps, p.2.Clean) :
    (Json.obj (dictOf ps)).Clean :=
  .obj (nodup_keys_dictOf ps) fun p hp => h p (mem_of_mem_dictOf hp)

theorem clean_arr_sortByText {xs : List (Json F)} (h : ∀ x ∈ xs, x.Clean) :
    (Json.arr (sortByText xs)).Clean :=
  .arr fun x hx => h x ((List.mem_insertionSort _).mp hx)

theorem clean_all {vs : List (PyVal F)} (h : ∀ v ∈ vs, (toJsonable v).Clean) :
    ∀ x ∈ toJsonableAll vs, x.Clean := by
  rw [toJsonableAll_eq_map]
  intro x hx
  obtain ⟨v, hv, rfl⟩ := List.mem_map.mp hx
  exact h v hv

theorem clean_items {items : List (PyKey F × PyVal F)}
    (h : ∀ p ∈ items, (toJsonable p.2).Clean) :
    (Json.obj (dictOf (sortByKey (toJsonableItems items)))).Clean := by
  refine clean_obj_dictOf fun q hq => ?_
  rw [mem_sortByKey, toJsonableItems_eq_map] at hq
  obtain ⟨p, hp, rfl⟩ := List.mem_map.mp hq
  exact h p hp

/-- Whatever the value, the converted form can be printed. -/
theorem toJsonable_clean (v : PyVal F) : (toJsonable v).Clean := by
  induction v using PyVal.induct with
  | none => exact .null
  | bool b => exact .bool b
  | int i => exact .int i
  | float x => exact x.jsonable_clean
  | str s => exact .str s
  | decimal t => exact .str t
  | enum v ih => exact ih
  | isoTime t => exact .str t
  | path t => exact .str t
  | bytes bs =>
    have hkeys : [lit "__type__", lit "base64"].Nodup := by decide
    exact .obj hkeys (by simp [Json.Clean.str])
  | dataclass fields ih =>
    refine clean_obj_dictOf fun q hq => ?_
    rw [toJsonableFields_eq_map] at hq
    obtain ⟨p, hp, rfl⟩ := List.mem_map.mp hq
    exact ih p hp
  | dict items ih => exact clean_items ih
  | mapping items ih => exact clean_items ih
  | list xs ih => exact .arr (clean_all ih)
  | tuple xs ih => exact .arr (clean_all ih)
  | set xs ih => exact clean_arr_sortByText (clean_all ih)
  | frozenset xs ih => exact clean_arr_sortByText (clean_all ih)
  | other n r =>
    have hkeys : [lit "__type__", lit "repr"].Nodup := by decide
    exact .obj hkeys (by simp [Json.Clean.str])

/-- The canonical text determines the converted form, and it alone. -/
theorem canonicalJson_eq_iff {v w : PyVal F} :
    canonicalJson v = canonicalJson w ↔ (toJsonable v).Same (toJsonable w) :=
  ⟨Json.render_inj (toJsonable_clean v).sortKeys (toJsonable_clean w).sortKeys,
    congrArg Json.render⟩

/-- The stored text reads back as the converted form with its keys sorted. -/
theorem loads_canonicalJson (v : PyVal F) :
    Json.loads (canonicalJson v) = some (toJsonable v).sortKeys :=
  Json.loads_render (toJsonable_clean v).sortKeys

/-! ### Digests -/

/-- `hashlib.sha256(…).hexdigest()`: any function to strings of 64 lowercase
hexadecimal digits. -/
structure Sha256 where
  hexdigest : List UInt8 → Str
  length_hexdigest : ∀ m, (hexdigest m).length = 64
  hexdigest_hex : ∀ m, ∀ c ∈ hexdigest m, (48 ≤ c ∧ c ≤ 57) ∨ (97 ≤ c ∧ c ≤ 102)

instance : Inhabited Sha256 :=
  ⟨fun _ => List.replicate 64 48, fun _ => List.length_replicate, fun _ c h => by
    rw [List.eq_of_mem_replicate h]
    decide⟩

/-- A digest that tells texts of different lengths apart. -/
def lengthHash : Sha256 where
  hexdigest m := List.replicate 64 (48 + m.length % 10)
  length_hexdigest _ := List.length_replicate
  hexdigest_hex m c h := by
    rw [List.eq_of_mem_replicate h]
    omega

/-- `digest_value`; a lone surrogate in the text raises. -/
def digestValue (H : Sha256) (v : PyVal F) : Except PyExc Str :=
  match encodeUtf8 (canonicalJson v) with
  | some bytes => .ok (H.hexdigest bytes)
  | none => .error .unicodeEncodeError

theorem digestValue_eq_ok_iff {H : Sha256} {v : PyVal F} {d : Str} :
    digestValue H v = .ok d ↔
      ∃ bytes, encodeUtf8 (canonicalJson v) = some bytes ∧ d = H.hexdigest bytes := by
  unfold digestValue
  cases encodeUtf8 (canonicalJson v) with
  | none => simp
  | some bytes => simp [eq_comm]

/-- A digest depends on the canonical text alone. -/
theorem digestValue_congr {H : Sha256} {v w : PyVal F} (h : canonicalJson v = canonicalJson w) :
    digestValue H v = digestValue H w := by
  rw [digestValue, digestValue, h]

theorem Sha256.hexdigest_ne_nil (H : Sha256) (m : List UInt8) : H.hexdigest m ≠ [] := by
  intro h
  have := H.length_hexdigest m
  rw [h] at this
  simp at this

/-! ### Values read back from JSON -/

mutual
/-- The Python value a JSON value is. -/
def PyVal.ofJson : Json F → PyVal F
  | .null => .none
  | .bool b => .bool b
  | .int i => .int i
  | .float x => .float x
  | .str s => .str s
  | .arr xs => .list (PyVal.ofJsonItems xs)
  | .obj kvs => .dict (PyVal.ofJsonMembers kvs)

def PyVal.ofJsonItems : List (Json F) → List (PyVal F)
  | [] => []
  | x :: xs => PyVal.ofJson x :: PyVal.ofJsonItems xs

def PyVal.ofJsonMembers : List (Str × Json F) → List (PyKey F × PyVal F)
  | [] => []
  | (k, v) :: kvs => (.str k, PyVal.ofJson v) :: PyVal.ofJsonMembers kvs
end

omit [PyFloat F] in
theorem PyVal.ofJsonItems_eq_map (xs : List (Json F)) :
    PyVal.ofJsonItems xs = xs.map PyVal.ofJson := by
  induction xs with
  | nil => rfl
  | cons x xs ih => simp [PyVal.ofJsonItems, ih]

omit [PyFloat F] in
theorem PyVal.ofJsonMembers_eq_map (kvs : List (Str × Json F)) :
    PyVal.ofJsonMembers kvs = kvs.map fun p => (.str p.1, PyVal.ofJson p.2) := by
  induction kvs with
  | nil => rfl
  | cons p kvs ih => simp [PyVal.ofJsonMembers, ih]

mutual
/-- The floats that are not finite, written as strings. -/
def Json.nameFloats : Json F → Json F
  | .null => .null
  | .bool b => .bool b
  | .int i => .int i
  | .float x => x.jsonable
  | .str s => .str s
  | .arr xs => .arr (Json.nameFloatsItems xs)
  | .obj kvs => .obj (Json.nameFloatsMembers kvs)

def Json.nameFloatsItems : List (Json F) → List (Json F)
  | [] => []
  | x :: xs => Json.nameFloats x :: Json.nameFloatsItems xs

def Json.nameFloatsMembers : List (Str × Json F) → List (Str × Json F)
  | [] => []
  | (k, v) :: kvs => (k, Json.nameFloats v) :: Json.nameFloatsMembers kvs
end

@[simp] theorem Json.nameFloats_arr (xs : List (Json F)) :
    Json.nameFloats (.arr xs) = .arr (xs.map Json.nameFloats) := by
  have : Json.nameFloatsItems xs = xs.map Json.nameFloats := by
    induction xs with
    | nil => rfl
    | cons x xs ih => simp [Json.nameFloatsItems, ih]
  rw [Json.nameFloats, this]

@[simp] theorem Json.nameFloats_obj (kvs : List (Str × Json F)) :
    Json.nameFloats (.obj kvs) = .obj (kvs.map fun p => (p.1, p.2.nameFloats)) := by
  have : Json.nameFloatsMembers kvs = kvs.map fun p => (p.1, p.2.nameFloats) := by
    induction kvs with
    | nil => rfl
    | cons p kvs ih => simp [Json.nameFloatsMembers, ih]
  rw [Json.nameFloats, this]

theorem Json.Clean.nameFloats {j : Json F} (h : j.Clean) : j.nameFloats = j := by
  induction h with
  | arr _ ih =>
    rw [Json.nameFloats_arr]
    exact congrArg _ ((List.map_congr_left ih).trans (List.map_id _))
  | obj _ _ ih =>
    rw [Json.nameFloats_obj]
    refine congrArg _ ((List.map_congr_left fun p hp => ?_).trans (List.map_id _))
    exact Prod.ext rfl (ih p hp)
  | _ => rfl

/-- Converting a value read back from JSON sorts its keys and names its
floats, and nothing else. -/
theorem toJsonable_ofJson {j : Json F} (h : j.Distinct) :
    toJsonable (PyVal.ofJson j) = j.nameFloats.sortKeys := by
  induction h with
  | arr _ ih =>
    rw [Json.nameFloats_arr, Json.sortKeys_arr, List.map_map, PyVal.ofJson, toJsonable,
      PyVal.ofJsonItems_eq_map, toJsonableAll_eq_map, List.map_map]
    exact congrArg _ (List.map_congr_left ih)
  | @obj kvs hnd _ ih =>
    have hitems : toJsonableItems (PyVal.ofJsonMembers kvs) =
        kvs.map fun p => (p.1, p.2.nameFloats.sortKeys) := by
      rw [PyVal.ofJsonMembers_eq_map, toJsonableItems_eq_map, List.map_map]
      exact List.map_congr_left fun p hp => Prod.ext rfl (ih p hp)
    rw [PyVal.ofJson, toJsonable, hitems, Json.nameFloats_obj, Json.sortKeys_obj,
      sortByKey_map_snd (f := fun v : Json F => v.nameFloats.sortKeys),
      sortByKey_map_snd (f := Json.nameFloats), List.map_map, dictOf_of_nodup]
    · rfl
    · rw [List.map_map]
      exact nodup_keys_sortByKey.mpr hnd
  | float x => cases x <;> rfl
  | _ => rfl

theorem canonicalJson_ofJson {j : Json F} (h : j.Distinct) :
    canonicalJson (PyVal.ofJson j) = j.nameFloats.sortKeys.render := by
  rw [canonicalJson, toJsonable_ofJson h, Json.sortKeys_sortKeys]

/-- Storing the canonical text and reading it back changes no later text. -/
theorem canonicalJson_loads {v : PyVal F} {j : Json F}
    (h : Json.loads (canonicalJson v) = some j) :
    canonicalJson (PyVal.ofJson j) = canonicalJson v := by
  rw [loads_canonicalJson] at h
  cases h
  have hclean := (toJsonable_clean v).sortKeys
  rw [canonicalJson_ofJson hclean.distinct, hclean.nameFloats, Json.sortKeys_sortKeys,
    canonicalJson]

end

end AgentRoi
