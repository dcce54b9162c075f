/-
What the analyzers of `agent_roi.procurement` and `agent_roi.finops` read from
their policies and payloads.

Arithmetic is exact: a float stands for its value.

* `PyAmounts` — the values of floats, `float(text)` and `str.casefold`;
* `pyFloat`, `nonnegativeFloat` — `float(value)` and `_nonnegative_float`;
* `AnalyzerSettings` — what the two constructors keep;
* `AnalyzerSettings.number` — a number the policy sets, or its default;
* `InvoiceFloat` — a few floats.
-/
import AgentRoi.AuditEvent
import AgentRoi.CentAllocation
import AgentRoi.ControlPlaneClients

namespace AgentRoi

variable {F : Type}

/-- `floatText` is `float(text)`; none where it raises. -/
class PyAmounts (F : Type) extends PyValues F where
  value : F → ℚ
  floatText : Str → Option (FloatVal F)
  casefold : Str → Str

/-- The number a float stands for. -/
def FloatVal.value [PyAmounts F] : FloatVal F → FloatVal ℚ
  | .finite f => .finite (PyAmounts.value f)
  | .nan => .nan
  | .inf => .inf
  | .negInf => .negInf

/-- `value > q`. -/
def FloatVal.above (q : ℚ) : FloatVal ℚ → Bool
  | .finite r => q < r
  | .inf => true
  | _ => false

/-- `value < q`. -/
def FloatVal.below (q : ℚ) : FloatVal ℚ → Bool
  | .finite r => r < q
  | .negInf => true
  | _ => false

/-- `round(q * factor, 2)`, for a `q` that is not negative. -/
def roundedTimes (q : ℚ) : FloatVal ℚ → FloatVal ℚ
  | .finite r => .finite (cents (q * r))
  | .nan => .nan
  | .inf => if q = 0 then .nan else .inf
  | .negInf => if q = 0 then .nan else .negInf

/-- `value.get(key, default)`. -/
def Json.getOr (value : Json F) (key : Str) (default : Json F) : Except PyExc (Json F) :=
  match value with
  | .obj members => .ok ((dictGet key members).getD default)
  | _ => .error attributeError

section

variable [PyAmounts F]

/-- `float(value)`. -/
def pyFloat : Json F → Except PyExc (FloatVal ℚ)
  | .int i => (PyFloatOps.ofInt i).elim (.error .overflowError) fun f : F =>
      .ok (FloatVal.finite f).value
  | .float x => .ok x.value
  | .bool true => .ok (.finite 1)
  | .bool false => .ok (.finite 0)
  | .str text => (PyAmounts.floatText text).elim (.error (.valueError [])) fun x : FloatVal F =>
      .ok x.value
  | _ => .error (.typeError [])

/-- The end of `_nonnegative_float`. -/
def checkNonnegative (number : FloatVal ℚ) (fieldName : Str) : Except PyExc ℚ :=
  match number with
  | .finite q =>
    if q < 0 then .error (.valueError (fieldName ++ lit " must be finite and nonnegative"))
    else .ok q
  | _ => .error (.valueError (fieldName ++ lit " must be finite and nonnegative"))

def nonnegativeFloat (value : Json F) (fieldName : Str) : Except PyExc ℚ :=
  match pyFloat value with
  | .error .overflowError => .error .overflowError
  | .error _ => .error (.valueError (fieldName ++ lit " must be numeric"))
  | .ok number => checkNonnegative number fieldName

/-- `_nonnegative_float(record.get(key, 0), …)`. -/
def nonnegativeField (record : List (Str × Json F)) (key fieldName : Str) : Except PyExc ℚ :=
  match dictGet key record with
  | none => .ok 0
  | some value => nonnegativeFloat value fieldName

end

theorem checkNonnegative_eq_ok {number : FloatVal ℚ} {fieldName : Str} {q : ℚ} :
    checkNonnegative number fieldName = .ok q ↔ number = .finite q ∧ 0 ≤ q := by
  unfold checkNonnegative
  split
  · next r =>
    split
    · next hneg =>
      refine ⟨(fun h => by cases h), ?_⟩
      rintro ⟨heq, hq⟩
      cases heq
      exact absurd hneg (not_lt.mpr hq)
    · next hnonneg =>
      constructor
      · intro h
        cases h
        exact ⟨rfl, not_lt.mp hnonneg⟩
      · rintro ⟨heq, -⟩
        cases heq
        rfl
  · next hother =>
    refine ⟨(fun h => by cases h), ?_⟩
    rintro ⟨rfl, -⟩
    exact absurd rfl (hother q)

/-- The name of the field is for messages only. -/
theorem nonnegativeFloat_name [PyAmounts F] {value : Json F} {fieldName : Str} {q : ℚ}
    (h : nonnegativeFloat value fieldName = .ok q) (other : Str) :
    nonnegativeFloat value other = .ok q := by
  unfold nonnegativeFloat at h ⊢
  split at h
  · cases h
  · cases h
  · exact checkNonnegative_eq_ok.mpr (checkNonnegative_eq_ok.mp h)

theorem nonnegativeField_name [PyAmounts F] {record : List (Str × Json F)} {key fieldName : Str}
    {q : ℚ} (h : nonnegativeField record key fieldName = .ok q) (other : Str) :
    nonnegativeField record key other = .ok q := by
  unfold nonnegativeField at h ⊢
  split at h
  · exact h
  · exact nonnegativeFloat_name h other

theorem nonnegativeFloat_nonneg [PyAmounts F] {value : Json F} {fieldName : Str} {q : ℚ}
    (h : nonnegativeFloat value fieldName = .ok q) : 0 ≤ q := by
  unfold nonnegativeFloat at h
  split at h
  · cases h
  · cases h
  · exact (checkNonnegative_eq_ok.mp h).2

theorem nonnegativeField_nonneg [PyAmounts F] {record : List (Str × Json F)} {key fieldName : Str}
    {q : ℚ} (h : nonnegativeField record key fieldName = .ok q) : 0 ≤ q := by
  unfold nonnegativeField at h
  split at h
  · exact (Except.ok.inj h).le
  · exact nonnegativeFloat_nonneg h

/-! ### The analyzers' settings -/

/-- What both constructors keep; `ctx` is the business context. -/
structure AnalyzerSettings (F : Type) where
  ctx : List (Str × Json F)
  thresholds : Json F
  multipliers : Json F
  routing : Json F

namespace AnalyzerSettings

/-- `__init__`, for a policy with these data. -/
def create (data ctx : List (Str × Json F)) : Except PyExc (AnalyzerSettings F) := do
  let thresholds ← (Json.obj data).getOr (lit "thresholds") (.obj [])
  let scoring ← (Json.obj data).getOr (lit "scoring") (.obj [])
  let multipliers ← scoring.getOr (lit "savings_multipliers") (.obj [])
  let routing ← (Json.obj data).getOr (lit "approval_routing") (.obj [])
  return ⟨ctx, thresholds, multipliers, routing⟩

variable [PyAmounts F]

/-- `float(section.get(key, default))`. -/
def number (section' : Json F) (key : Str) (default : ℚ) : Except PyExc (FloatVal ℚ) :=
  match section' with
  | .obj members =>
    match dictGet key members with
    | none => .ok (.finite default)
    | some value => pyFloat value
  | _ => .error attributeError

def multiplier (a : AnalyzerSettings F) (action : Str) (default : ℚ) : Except PyExc (FloatVal ℚ) :=
  number a.multipliers action default

/-- `float(self.thresholds.get(name, {}).get(key, default))`. -/
def threshold (a : AnalyzerSettings F) (name key : Str) (default : ℚ) :
    Except PyExc (FloatVal ℚ) := do
  number (← a.thresholds.getOr name (.obj [])) key default

end AnalyzerSettings

/-! ### A few floats -/

/-- Zero, one and an amount that is not in whole cents, to run the definitions
on. -/
inductive InvoiceFloat where
  | zero
  | one
  | uneven
  deriving DecidableEq

def InvoiceFloat.text : InvoiceFloat → Str
  | .zero => lit "0.0"
  | .one => lit "1.0"
  | .uneven => lit "2000.0078125"

def InvoiceFloat.rational : InvoiceFloat → ℚ
  | .zero => 0
  | .one => 1
  | .uneven => 256001 / 128

def InvoiceFloat.ofText (t : Str) : FloatVal InvoiceFloat :=
  if t = lit "0.0" then .finite .zero else if t = lit "1.0" then .finite .one
  else if t = lit "2000.0078125" then .finite .uneven else .nan

theorem InvoiceFloat.repr_isFloatText (f : InvoiceFloat) : IsFloatText f.text :=
  match f with
  | .zero => ⟨false, [48], [46, 48], [], rfl, .inl rfl, .inr ⟨[48], rfl, by decide, by decide⟩,
      .inl rfl, .inl (by decide)⟩
  | .one => ⟨false, [49], [46, 48], [], rfl, .inr ⟨49, [], rfl, by decide, by decide, by simp⟩,
      .inr ⟨[48], rfl, by decide, by decide⟩, .inl rfl, .inl (by decide)⟩
  | .uneven => ⟨false, [50, 48, 48, 48], [46, 48, 48, 55, 56, 49, 50, 53], [], rfl,
      .inr ⟨50, [48, 48, 48], rfl, by decide, by decide, by decide⟩,
      .inr ⟨[48, 48, 55, 56, 49, 50, 53], rfl, by decide, by decide⟩, .inl rfl,
      .inl (by decide)⟩

instance : PyFloatOps InvoiceFloat where
  repr := InvoiceFloat.text
  ofText := InvoiceFloat.ofText
  repr_isFloatText := InvoiceFloat.repr_isFloatText
  ofText_repr f := by cases f <;> decide
  ofInt i := if i = 0 then some .zero else if i = 1 then some .one else none
  trunc f := if f = .uneven then 2000 else if f = .one then 1 else 0
  isInteger f := f ≠ .uneven
  le a b := decide (a.rational ≤ b.rational)
  add a b := if a = .zero then .finite b else if b = .zero then .finite a else .inf
  zero := .zero
  one := .one

instance : PyValues InvoiceFloat where
  floatTruthy x := x ≠ .zero
  strOf := Json.repr
  intOf _ := none
  dictOf _ := none

instance : PyAmounts InvoiceFloat where
  value := InvoiceFloat.rational
  floatText t := if t = lit "nan" then some .nan else
    match InvoiceFloat.ofText t with
    | .nan => none
    | x => some x
  casefold := lowerAscii

end AgentRoi
