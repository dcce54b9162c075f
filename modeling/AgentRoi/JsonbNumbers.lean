/-
What a `jsonb` column makes of the numbers in a JSON document.

PostgreSQL keeps a number as an exact decimal, which knows no negative zero,
and prints it without an exponent; the driver reads a number without a
fraction as an integer and any other as a float.

* `DecimalLiteral`, `literalOf` — a number as a literal writes it;
* `storedFloat` — the number a float comes back as;
* `Exact`, `storedFloat_eq_iff` — the floats that come back as they were:
  those whose literal has a fraction when written without an exponent, except
  negative zero;
* `Json.stored`, `Json.Survives`, `nameFloats_stored_iff` — the same for
  documents;
* `KeepsDocuments` — what is assumed of the server and its driver.
-/
import AgentRoi.IdempotencyStore
import AgentRoi.JsonPlaces
import AgentRoi.PolicyValidation

namespace AgentRoi

variable {F : Type}

/-! ### Numbers -/

/-- The number ±mantissa · 10 ^ (-scale), written with that many decimals. -/
structure DecimalLiteral where
  negative : Bool
  mantissa : ℕ
  scale : Int
  deriving DecidableEq

/-- The exponent behind the `e`. -/
def exponentOf : Str → Int
  | 45 :: digits => -(ofDigits digits : Int)
  | 43 :: digits => ofDigits digits
  | digits => ofDigits digits

/-- The literal of the text of a float. -/
def literalOf (text : Str) : DecimalLiteral :=
  let unsigned := if text.head? = some 45 then text.drop 1 else text
  let significand := unsigned.takeWhile fun c => c ≠ 101
  let whole := significand.takeWhile fun c => c ≠ 46
  let fraction := significand.drop (whole.length + 1)
  { negative := text.head? = some 45
    mantissa := ofDigits (whole ++ fraction)
    scale := fraction.length - exponentOf (unsigned.drop (significand.length + 1)) }

/-- As the database keeps it: without the sign of a zero. -/
def DecimalLiteral.numeric (d : DecimalLiteral) : DecimalLiteral :=
  { d with negative := d.negative && d.mantissa ≠ 0 }

/-- The integer, of a number without decimals. -/
def DecimalLiteral.toInt (d : DecimalLiteral) : Int :=
  (if d.negative then -1 else 1) * (d.mantissa * 10 ^ (-d.scale).toNat : ℕ)

/-- `float` of a number written without an exponent.  It is the float whose
`repr` is the shortest text for it, and a float has the sign of its number. -/
class PyDecimalFloat (F : Type) [PyFloat F] where
  ofDecimal : DecimalLiteral → FloatVal F
  ofDecimal_repr : ∀ f, ofDecimal (literalOf (PyFloat.repr f)) = .finite f
  ofDecimal_sign : ∀ d f, ofDecimal d = .finite f →
    (literalOf (PyFloat.repr f)).negative = d.negative

/-- The number is `p / q`, without its sign. -/
def DecimalLiteral.isRatio (d : DecimalLiteral) (p q : ℕ) : Bool :=
  d.mantissa * q * 10 ^ (-d.scale).toNat = p * 10 ^ d.scale.toNat

/-- The four floats, each read from the decimals that are equal to it. -/
instance : PyDecimalFloat SmallFloat where
  ofDecimal d :=
    if d.negative then .nan else if d.isRatio 0 1 then .finite .zero
    else if d.isRatio 1 2 then .finite .half else if d.isRatio 1 1 then .finite .one
    else if d.isRatio (10 ^ 16) 1 then .finite .huge else .nan
  ofDecimal_repr f := by cases f <;> decide
  ofDecimal_sign d f h := by
    have hplus : d.negative = false := by
      cases hsign : d.negative with
      | false => rfl
      | true =>
        rw [if_pos hsign] at h
        cases h
    rw [hplus]
    cases f <;> decide

section

variable [PyFloat F] [PyDecimalFloat F]

/-- What the driver reads, of a number without an exponent. -/
def readNumber (d : DecimalLiteral) : Json F :=
  if d.scale ≤ 0 then .int d.toInt else .float (PyDecimalFloat.ofDecimal d)

/-- What a `jsonb` column gives back for a float. -/
def storedFloat : FloatVal F → Json F
  | .finite f => readNumber (literalOf (PyFloat.repr f)).numeric
  | x => .float x

omit [PyDecimalFloat F] in
variable (F) in
/-- A float with decimals that is not the negative zero. -/
def Exact (f : F) : Prop :=
  0 < (literalOf (PyFloat.repr f)).scale ∧
    ¬ ((literalOf (PyFloat.repr f)).negative = true ∧ (literalOf (PyFloat.repr f)).mantissa = 0)

instance instDecidableExact (f : F) : Decidable (Exact F f) := inferInstanceAs (Decidable (_ ∧ _))

omit [PyFloat F] [PyDecimalFloat F] in
theorem DecimalLiteral.numeric_of_not_zero {d : DecimalLiteral}
    (h : ¬ (d.negative = true ∧ d.mantissa = 0)) : d.numeric = d := by
  obtain ⟨negative, mantissa, scale⟩ := d
  cases negative with
  | false => rfl
  | true =>
    have hne : mantissa ≠ 0 := fun hzero => h ⟨rfl, hzero⟩
    simp [DecimalLiteral.numeric, hne]

/-- The exact floats come back as they were. -/
theorem storedFloat_of_exact {f : F} (h : Exact F f) :
    storedFloat (.finite f) = .float (.finite f) := by
  rw [storedFloat, DecimalLiteral.numeric_of_not_zero h.2, readNumber, if_neg (not_le.mpr h.1),
    PyDecimalFloat.ofDecimal_repr]

/-- The others do not: they come back as an integer, or with another sign. -/
theorem exact_of_storedFloat {f : F} (h : storedFloat (.finite f) = .float (.finite f)) :
    Exact F f := by
  by_cases hscale : (literalOf (PyFloat.repr f)).numeric.scale ≤ 0
  · rw [storedFloat, readNumber, if_pos hscale] at h
    cases h
  · rw [storedFloat, readNumber, if_neg hscale] at h
    have hsign := PyDecimalFloat.ofDecimal_sign _ f (Json.float.inj h)
    refine ⟨not_le.mp hscale, fun ⟨hnegative, hzero⟩ => ?_⟩
    rw [DecimalLiteral.numeric, hnegative, hzero] at hsign
    cases hsign

/-! ### Documents -/

namespace Json

mutual
/-- What a `jsonb` column gives back, up to the order of the members. -/
def stored : Json F → Json F
  | .null => .null
  | .bool b => .bool b
  | .int i => .int i
  | .float x => storedFloat x
  | .str s => .str s
  | .arr xs => .arr (storedItems xs)
  | .obj kvs => .obj (storedMembers kvs)

def storedItems : List (Json F) → List (Json F)
  | [] => []
  | x :: xs => stored x :: storedItems xs

def storedMembers : List (Str × Json F) → List (Str × Json F)
  | [] => []
  | (k, v) :: kvs => (k, stored v) :: storedMembers kvs
end

@[simp] theorem stored_arr (xs : List (Json F)) : stored (.arr xs) = .arr (xs.map stored) := by
  have hitems : storedItems xs = xs.map stored := by
    induction xs with
    | nil => rfl
    | cons x xs ih => simp [storedItems, ih]
  rw [stored, hitems]

@[simp] theorem stored_obj (kvs : List (Str × Json F)) :
    stored (.obj kvs) = .obj (kvs.map fun p => (p.1, p.2.stored)) := by
  have hmembers : storedMembers kvs = kvs.map fun p => (p.1, p.2.stored) := by
    induction kvs with
    | nil => rfl
    | cons p kvs ih => simp [storedMembers, ih]
  rw [stored, hmembers]

omit [PyDecimalFloat F] in
/-- Every float in the document is exact. -/
inductive Survives : Json F → Prop
  | null : Survives .null
  | bool (b : Bool) : Survives (.bool b)
  | int (i : Int) : Survives (.int i)
  | float {f : F} : Exact F f → Survives (.float (.finite f))
  | str (s : Str) : Survives (.str s)
  | arr {xs : List (Json F)} : (∀ x ∈ xs, Survives x) → Survives (.arr xs)
  | obj {kvs : List (Str × Json F)} : (∀ p ∈ kvs, Survives p.2) → Survives (.obj kvs)

theorem sortKeys_stored (j : Json F) : j.stored.sortKeys = j.sortKeys.stored := by
  induction j using Json.induct with
  | float x =>
    cases x with
    | finite f =>
      show (readNumber _).sortKeys = readNumber _
      unfold readNumber
      split <;> rfl
    | _ => rfl
  | arr xs ih =>
    rw [stored_arr, sortKeys_arr, sortKeys_arr, stored_arr, List.map_map, List.map_map]
    exact congrArg _ (List.map_congr_left ih)
  | obj kvs ih =>
    rw [stored_obj, sortKeys_obj, sortKeys_obj, stored_obj, sortByKey_map_snd (f := stored),
      List.map_map, List.map_map]
    exact congrArg _ (List.map_congr_left fun p hp => Prod.ext rfl (ih p (mem_sortByKey.mp hp)))
  | _ => rfl

theorem Distinct.stored {j : Json F} (h : j.Distinct) : j.stored.Distinct := by
  induction h with
  | float x =>
    cases x with
    | finite f =>
      show (readNumber _).Distinct
      unfold readNumber
      split
      · exact .int _
      · exact .float _
    | _ => exact .float _
  | arr _ ih =>
    rw [stored_arr]
    refine .arr fun y hy => ?_
    obtain ⟨x, hx, rfl⟩ := List.mem_map.mp hy
    exact ih x hx
  | obj hnd _ ih =>
    rw [stored_obj]
    refine .obj ?_ fun q hq => ?_
    · rw [List.map_map]
      exact hnd
    · obtain ⟨p, hp, rfl⟩ := List.mem_map.mp hq
      exact ih p hp
  | _ => constructor

omit [PyDecimalFloat F] in
theorem survives_arr {xs : List (Json F)} :
    (Json.arr xs).Survives ↔ ∀ x ∈ xs, x.Survives := by
  constructor
  · intro h
    cases h with
    | arr hall => exact hall
  · exact .arr

omit [PyDecimalFloat F] in
theorem survives_obj {kvs : List (Str × Json F)} :
    (Json.obj kvs).Survives ↔ ∀ p ∈ kvs, p.2.Survives := by
  constructor
  · intro h
    cases h with
    | obj hall => exact hall
  · exact .obj

omit [PyDecimalFloat F] in
theorem survives_sortKeys {j : Json F} : j.sortKeys.Survives ↔ j.Survives := by
  induction j using Json.induct with
  | arr xs ih =>
    rw [sortKeys_arr, survives_arr, survives_arr, List.forall_mem_map]
    exact forall₂_congr ih
  | obj kvs ih =>
    rw [sortKeys_obj, survives_obj, survives_obj, List.forall_mem_map]
    constructor
    · exact fun h p hp => (ih p hp).mp (h p (mem_sortByKey.mpr hp))
    · exact fun h p hp => (ih p (mem_sortByKey.mp hp)).mpr (h p (mem_sortByKey.mp hp))
  | _ => rfl

omit [PyFloat F] [PyDecimalFloat F] in
theorem map_eq_self_iff {α : Type} {f : α → α} {xs : List α} :
    xs.map f = xs ↔ ∀ x ∈ xs, f x = x := by
  have hid : xs = xs.map id := (List.map_id xs).symm
  conv_lhs => rhs; rw [hid]
  exact List.map_inj_left

/-- A printed document comes back as it was exactly when it survives. -/
theorem nameFloats_stored_iff {j : Json F} (h : j.Clean) :
    j.stored.nameFloats = j ↔ j.Survives := by
  induction h with
  | null => exact ⟨fun _ => .null, fun _ => rfl⟩
  | bool b => exact ⟨fun _ => .bool b, fun _ => rfl⟩
  | int i => exact ⟨fun _ => .int i, fun _ => rfl⟩
  | str s => exact ⟨fun _ => .str s, fun _ => rfl⟩
  | float f =>
    constructor
    · intro hsame
      refine .float (exact_of_storedFloat ?_)
      have hback : (storedFloat (.finite f)).nameFloats = .float (.finite f) := hsame
      cases hread : storedFloat (.finite f : FloatVal F) with
      | float x =>
        rw [hread] at hback
        cases x with
        | finite g => exact hback
        | _ => cases hback
      | arr xs =>
        rw [hread, nameFloats_arr] at hback
        cases hback
      | obj kvs =>
        rw [hread, nameFloats_obj] at hback
        cases hback
      | _ =>
        rw [hread] at hback
        cases hback
    · intro hsurvives
      cases hsurvives with
      | float hexact =>
        rw [stored, storedFloat_of_exact hexact]
        rfl
  | @arr xs _ ih =>
    rw [stored_arr, nameFloats_arr, survives_arr, List.map_map, arr.injEq]
    constructor
    · intro hsame x hx
      exact (ih x hx).mp (map_eq_self_iff.mp hsame x hx)
    · exact fun hall => map_eq_self_iff.mpr fun x hx => (ih x hx).mpr (hall x hx)
  | @obj kvs _ _ ih =>
    rw [stored_obj, nameFloats_obj, survives_obj, List.map_map, obj.injEq]
    constructor
    · intro hsame p hp
      exact (ih p hp).mp (congrArg Prod.snd (map_eq_self_iff.mp hsame p hp))
    · exact fun hall => map_eq_self_iff.mpr fun p hp => Prod.ext rfl ((ih p hp).mpr (hall p hp))

end Json

/-! ### Documents that were canonical texts -/

/-- What is assumed of the server and its driver: a document that is written
comes back with the numbers the column keeps, its members in some order. -/
structure PgDriver.KeepsDocuments (driver : PgDriver F) : Prop where
  reads : ∀ text value, driver.jsonb text = some value →
    ∃ document, Json.loads text = some document ∧ value.Same document.stored
  distinct : ∀ text value, driver.jsonb text = some value → value.Distinct

theorem PgDriver.KeepsDocuments.same {driver : PgDriver F} (h : driver.KeepsDocuments)
    {v : PyVal F} {value : Json F} (hvalue : driver.jsonb (canonicalJson v) = some value) :
    value.Same (toJsonable v).sortKeys.stored := by
  obtain ⟨document, hloads, hsame⟩ := h.reads _ _ hvalue
  rw [loads_canonicalJson] at hloads
  cases hloads
  exact hsame

/-- The canonical text of what comes back. -/
theorem canonicalJson_stored {v : PyVal F} {value : Json F} (hdistinct : value.Distinct)
    (hsame : value.Same (toJsonable v).sortKeys.stored) :
    toJsonable (PyVal.ofJson value) = (toJsonable v).sortKeys.stored.nameFloats := by
  rw [toJsonable_ofJson hdistinct, Json.sortKeys_nameFloats, hsame, Json.sortKeys_stored,
    Json.sortKeys_sortKeys]

/-- It is the text that was written exactly when the document survives. -/
theorem canonicalJson_stored_iff {v : PyVal F} {value : Json F} (hdistinct : value.Distinct)
    (hsame : value.Same (toJsonable v).sortKeys.stored) :
    canonicalJson (PyVal.ofJson value) = canonicalJson v ↔ (toJsonable v).Survives := by
  have hback := canonicalJson_stored hdistinct hsame
  have hsorted : (toJsonable (PyVal.ofJson value)).sortKeys =
      (toJsonable v).sortKeys.stored.nameFloats := by
    rw [hback, Json.sortKeys_nameFloats, Json.sortKeys_stored, Json.sortKeys_sortKeys]
  rw [canonicalJson_eq_iff, Json.Same, hsorted,
    Json.nameFloats_stored_iff (toJsonable_clean v).sortKeys, Json.survives_sortKeys]

end

/-! ### Dictionaries with string keys -/

section

variable [PyFloat F] {d d' : PyDict F}

/-- The text of a dictionary determines the texts of its fields. -/
theorem canonicalJson_field (hd : (d.map Prod.fst).Nodup) (hd' : (d'.map Prod.fst).Nodup)
    (h : canonicalJson (.ofFields d) = canonicalJson (.ofFields d')) {k : Str} {v v' : PyVal F}
    (hv : dictGet k d = some v) (hv' : dictGet k d' = some v') :
    canonicalJson v = canonicalJson v' := by
  have hloads := loads_stableJson hd
  have hloads' := loads_stableJson hd'
  rw [stableJson, h] at hloads
  rw [stableJson, hloads] at hloads'
  have hfields := Json.obj.inj (Option.some.inj hloads')
  have hget := dictGet_storedFields hd k
  rw [hfields, dictGet_storedFields hd' k, hv, hv'] at hget
  rw [canonicalJson_eq_iff]
  exact (Option.some.inj hget).symm

end

end AgentRoi
