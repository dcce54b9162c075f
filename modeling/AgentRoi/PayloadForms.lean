/-
What the JSON form of a value tells of the value.

`to_jsonable` writes several kinds of value in one way: a `Decimal` as a
string, a set as a list, a key as its text.

* `PyVal.form` — the JSON form, its members in the order of their keys;
* `PyVal.Plain` — the values of kinds that share their forms with no other:
  `None`, booleans, integers, finite floats, strings, bytes, and lists, tuples
  and dictionaries of such, the keys strings other than `__type__`;
* `PyVal.Alike` — equality of such values, where a list and a tuple count as
  the same;
* `Plain.form_eq_iff` — plain values have one form exactly when they are alike;
* `Payload.sameForm_iff` — the same of the arguments of two calls.
-/
import AgentRoi.Serialization

namespace AgentRoi

variable {F : Type}

/-- Two lists with one image under two functions, element by element. -/
theorem exists_zip_of_map_eq {α β γ : Type} {f : α → γ} {g : β → γ} {xs : List α} {ys : List β}
    (h : xs.map f = ys.map g) :
    ∃ ps : List (α × β), ps.map Prod.fst = xs ∧ ps.map Prod.snd = ys ∧ ∀ p ∈ ps, f p.1 = g p.2 := by
  induction xs generalizing ys with
  | nil =>
    rw [List.map_nil, eq_comm, List.map_eq_nil_iff] at h
    exact ⟨[], rfl, h.symm, by simp⟩
  | cons x xs ih =>
    cases ys with
    | nil => cases h
    | cons y ys =>
      rw [List.map_cons, List.map_cons, List.cons.injEq] at h
      obtain ⟨ps, hfst, hsnd, hps⟩ := ih h.2
      refine ⟨(x, y) :: ps, by rw [List.map_cons, hfst], by rw [List.map_cons, hsnd], ?_⟩
      exact List.forall_mem_cons.mpr ⟨h.1, hps⟩

namespace PyVal

/-- The elements of a list or of a tuple. -/
def elements? : PyVal F → Option (List (PyVal F))
  | .list xs => some xs
  | .tuple xs => some xs
  | _ => .none

/-- The value is built from kinds that keep forms of their own. -/
inductive Plain : PyVal F → Prop
  | none : Plain .none
  | bool (b : Bool) : Plain (.bool b)
  | int (i : Int) : Plain (.int i)
  | float (f : F) : Plain (.float (.finite f))
  | str (s : Str) : Plain (.str s)
  | bytes (bs : List UInt8) : Plain (.bytes bs)
  | list {xs : List (PyVal F)} (h : ∀ x ∈ xs, Plain x) : Plain (.list xs)
  | tuple {xs : List (PyVal F)} (h : ∀ x ∈ xs, Plain x) : Plain (.tuple xs)
  | dict {d : PyDict F} (hkeys : (d.map Prod.fst).Nodup) (htype : lit "__type__" ∉ d.map Prod.fst)
      (h : ∀ p ∈ d, Plain p.2) : Plain (.dict (d.map fun p => (.str p.1, p.2)))

/-- The values are equal, if a list and a tuple of the same elements are and
the order of a dictionary does not count. -/
inductive Alike : PyVal F → PyVal F → Prop
  | none : Alike .none .none
  | bool (b : Bool) : Alike (.bool b) (.bool b)
  | int (i : Int) : Alike (.int i) (.int i)
  | float (f : F) : Alike (.float (.finite f)) (.float (.finite f))
  | str (s : Str) : Alike (.str s) (.str s)
  | bytes (bs : List UInt8) : Alike (.bytes bs) (.bytes bs)
  | seq {v w : PyVal F} (ps : List (PyVal F × PyVal F)) (h : ∀ p ∈ ps, Alike p.1 p.2)
      (hv : v.elements? = some (ps.map Prod.fst)) (hw : w.elements? = some (ps.map Prod.snd)) :
      Alike v w
  | dict (ps : List (Str × PyVal F × PyVal F)) {d d' : PyDict F} (hkeys : (ps.map Prod.fst).Nodup)
      (h : ∀ p ∈ ps, Alike p.2.1 p.2.2) (hd : d.Perm (ps.map fun p => (p.1, p.2.1)))
      (hd' : d'.Perm (ps.map fun p => (p.1, p.2.2))) :
      Alike (.dict (d.map fun p => (.str p.1, p.2))) (.dict (d'.map fun p => (.str p.1, p.2)))

variable [PyFloat F] {v w : PyVal F}

/-- The JSON form of the value, its members in the order of their keys. -/
def form (v : PyVal F) : Json F := (toJsonable v).sortKeys

theorem form_seq {xs : List (PyVal F)} (h : v.elements? = some xs) :
    v.form = .arr (xs.map form) := by
  cases v with
  | list ys | tuple ys =>
    cases h
    rw [form, toJsonable, toJsonableAll_eq_map, Json.sortKeys_arr, List.map_map]
    rfl
  | _ => cases h

@[simp] theorem form_none : (PyVal.none : PyVal F).form = .null := rfl

@[simp] theorem form_bool (b : Bool) : (PyVal.bool b : PyVal F).form = .bool b := rfl

@[simp] theorem form_int (i : Int) : (PyVal.int i : PyVal F).form = .int i := rfl

@[simp] theorem form_float (f : F) : (PyVal.float (.finite f)).form = .float (.finite f) := rfl

@[simp] theorem form_str (s : Str) : (PyVal.str s : PyVal F).form = .str s := rfl

@[simp] theorem form_list (xs : List (PyVal F)) : (PyVal.list xs).form = .arr (xs.map form) :=
  form_seq rfl

@[simp] theorem form_tuple (xs : List (PyVal F)) : (PyVal.tuple xs).form = .arr (xs.map form) :=
  form_seq rfl

@[simp] theorem form_bytes (bs : List UInt8) : (PyVal.bytes bs : PyVal F).form =
    .obj [(lit "__type__", .str (lit "bytes")), (lit "base64", .str (base64 bs))] := by
  rw [form, toJsonable, Json.sortKeys_obj]
  rfl

/-- The form of a dictionary lists the forms of its values. -/
theorem form_dict {d : PyDict F} (hkeys : (d.map Prod.fst).Nodup) :
    (PyVal.dict (d.map fun p => (.str p.1, p.2))).form =
      .obj ((sortByKey d).map fun p => (p.1, p.2.form)) := by
  have hitems : toJsonableItems (d.map fun p => (.str p.1, p.2)) =
      d.map fun p => (p.1, toJsonable p.2) := by
    rw [toJsonableItems_eq_map, List.map_map]
    rfl
  have hnodup : ((sortByKey (d.map fun p => (p.1, toJsonable p.2))).map Prod.fst).Nodup := by
    rw [nodup_keys_sortByKey, List.map_map]
    exact hkeys
  rw [form, toJsonable, hitems, dictOf_of_nodup hnodup, Json.sortKeys_obj, sortByKey_sortByKey,
    sortByKey_map_snd, List.map_map]
  rfl

/-- Values that are alike have one form; by induction on the likeness. -/
theorem Alike.form_eq (h : Alike v w) : v.form = w.form := by
  induction h with
  | seq ps _ hv hw ih =>
    rw [form_seq hv, form_seq hw, List.map_map, List.map_map]
    exact congrArg _ (List.map_congr_left ih)
  | dict ps hkeys _ hd hd' ih =>
    have hfst : ∀ f : PyVal F × PyVal F → PyVal F,
        ((ps.map fun p => (p.1, f p.2)).map Prod.fst).Nodup := by
      intro f
      rwa [List.map_map]
    have hnodup := ((hd.map Prod.fst).nodup_iff).mpr (hfst Prod.fst)
    have hnodup' := ((hd'.map Prod.fst).nodup_iff).mpr (hfst Prod.snd)
    rw [form_dict hnodup, form_dict hnodup', sortByKey_eq_of_perm hnodup hd,
      sortByKey_eq_of_perm hnodup' hd', sortByKey_map_snd, sortByKey_map_snd, List.map_map,
      List.map_map]
    exact congrArg _ (List.map_congr_left fun p hp =>
      Prod.ext rfl (ih p (mem_sortByKey.mp hp)))
  | _ => rfl

/-- Sequences of one form whose elements tell themselves apart. -/
theorem alike_of_form_seq {xs ys : List (PyVal F)} (hv : v.elements? = some xs)
    (hw : w.elements? = some ys) (hys : ∀ y ∈ ys, y.Plain)
    (ih : ∀ x ∈ xs, ∀ {w : PyVal F}, w.Plain → x.form = w.form → x.Alike w)
    (h : v.form = w.form) : v.Alike w := by
  rw [form_seq hv, form_seq hw, Json.arr.injEq] at h
  obtain ⟨ps, rfl, rfl, hps⟩ := exists_zip_of_map_eq h
  exact .seq ps (fun p hp => ih p.1 (List.mem_map_of_mem hp) (hys p.2 (List.mem_map_of_mem hp))
    (hps p hp)) hv hw

/-- Dictionaries of one form whose values tell themselves apart. -/
theorem alike_of_form_dict {d d' : PyDict F} (hkeys : (d.map Prod.fst).Nodup)
    (hkeys' : (d'.map Prod.fst).Nodup) (hd' : ∀ p ∈ d', p.2.Plain)
    (ih : ∀ p ∈ d, ∀ {w : PyVal F}, w.Plain → p.2.form = w.form → p.2.Alike w)
    (h : (PyVal.dict (d.map fun p => (.str p.1, p.2))).form =
      (PyVal.dict (d'.map fun p => (.str p.1, p.2))).form) :
    Alike (.dict (d.map fun p => (.str p.1, p.2))) (.dict (d'.map fun p => (.str p.1, p.2))) := by
  rw [form_dict hkeys, form_dict hkeys', Json.obj.injEq] at h
  obtain ⟨ps, hfst, hsnd, hps⟩ := exists_zip_of_map_eq h
  -- an entry of one dictionary and its partner have one key
  have hkey : ∀ p ∈ ps, p.1.1 = p.2.1 := fun p hp => (Prod.mk.inj (hps p hp)).1
  have hmem : ∀ p ∈ ps, p.1 ∈ d ∧ p.2 ∈ d' := fun p hp =>
    ⟨mem_sortByKey.mp (hfst ▸ List.mem_map_of_mem hp),
      mem_sortByKey.mp (hsnd ▸ List.mem_map_of_mem hp)⟩
  have hleft : (ps.map fun p => (p.1.1, p.1.2, p.2.2)).map (fun q => (q.1, q.2.1)) =
      sortByKey d := by
    rw [List.map_map, ← hfst]
    rfl
  have hright : (ps.map fun p => (p.1.1, p.1.2, p.2.2)).map (fun q => (q.1, q.2.2)) =
      sortByKey d' := by
    rw [List.map_map, ← hsnd]
    exact List.map_congr_left fun p hp => Prod.ext (hkey p hp) rfl
  refine .dict (ps.map fun p => (p.1.1, p.1.2, p.2.2)) ?_ ?_
    (hleft ▸ (sortByKey_perm d).symm) (hright ▸ (sortByKey_perm d').symm)
  · have hnodup := nodup_keys_sortByKey.mpr hkeys
    rw [← hleft, List.map_map] at hnodup
    exact hnodup
  · intro q hq
    obtain ⟨p, hp, rfl⟩ := List.mem_map.mp hq
    exact ih p.1 (hmem p hp).1 (hd' p.2 (hmem p hp).2) (Prod.mk.inj (hps p hp)).2

/-- The form of bytes has the member `__type__`, which no plain dictionary has. -/
theorem form_bytes_ne_dict {bs : List UInt8} {d : PyDict F} (hkeys : (d.map Prod.fst).Nodup)
    (htype : lit "__type__" ∉ d.map Prod.fst) :
    (PyVal.bytes bs : PyVal F).form ≠ (PyVal.dict (d.map fun p => (.str p.1, p.2))).form := by
  rw [form_bytes, form_dict hkeys]
  intro h
  have hnames := congrArg (List.map Prod.fst) (Json.obj.inj h)
  rw [List.map_map] at hnames
  have hmem : lit "__type__" ∈ (sortByKey d).map Prod.fst := by
    rw [show (sortByKey d).map Prod.fst = _ from hnames.symm]
    exact List.mem_cons_self
  exact htype (((sortByKey_perm d).map Prod.fst).mem_iff.mp hmem)

/-- Plain values of one form are alike; by induction on the first of them, the
second by its kind. -/
theorem Plain.alike_of_form_eq (hv : v.Plain) (hw : w.Plain) (h : v.form = w.form) :
    v.Alike w := by
  induction hv generalizing w with
  | none =>
    cases hw with
    | none => exact .none
    | dict hkeys => simp [form_dict hkeys] at h
    | _ => simp at h
  | bool b =>
    cases hw with
    | bool c =>
      cases Json.bool.inj h
      exact .bool b
    | dict hkeys => simp [form_dict hkeys] at h
    | _ => simp at h
  | int i =>
    cases hw with
    | int j =>
      cases Json.int.inj h
      exact .int i
    | dict hkeys => simp [form_dict hkeys] at h
    | _ => simp at h
  | float f =>
    cases hw with
    | float g =>
      cases FloatVal.finite.inj (Json.float.inj h)
      exact .float f
    | dict hkeys => simp [form_dict hkeys] at h
    | _ => simp at h
  | str s =>
    cases hw with
    | str t =>
      cases Json.str.inj h
      exact .str s
    | dict hkeys => simp [form_dict hkeys] at h
    | _ => simp at h
  | bytes bs =>
    cases hw with
    | bytes cs =>
      rw [form_bytes, form_bytes] at h
      have htext : base64 bs = base64 cs := by simpa using h
      rw [base64_inj htext]
      exact .bytes cs
    | dict hkeys htype => exact absurd h (form_bytes_ne_dict hkeys htype)
    | _ => simp at h
  | @list xs _ ih | @tuple xs _ ih =>
    cases hw with
    | list hys => exact alike_of_form_seq rfl rfl hys (fun x hx => ih x hx) h
    | tuple hys => exact alike_of_form_seq rfl rfl hys (fun x hx => ih x hx) h
    | dict hkeys => simp [form_dict hkeys] at h
    | _ => simp at h
  | dict hkeys htype _ ih =>
    cases hw with
    | bytes bs => exact absurd h.symm (form_bytes_ne_dict hkeys htype)
    | dict hkeys' htype' hd' => exact alike_of_form_dict hkeys hkeys' hd' (fun p hp => ih p hp) h
    | _ => simp [form_dict hkeys] at h

/-- Plain values have one form exactly when they are alike. -/
theorem Plain.form_eq_iff (hv : v.Plain) (hw : w.Plain) : v.form = w.form ↔ v.Alike w :=
  ⟨hv.alike_of_form_eq hw, Alike.form_eq⟩

end PyVal

/-! ### The arguments of a call -/

/-- The arguments a tool is called with. -/
structure Payload (F : Type) where
  args : List (PyVal F)
  kwargs : PyDict F

namespace Payload

/-- Plain values under distinct names, whatever the names are. -/
structure Plain (p : Payload F) : Prop where
  args : ∀ v ∈ p.args, v.Plain
  keys : (p.kwargs.map Prod.fst).Nodup
  kwargs : ∀ q ∈ p.kwargs, q.2.Plain

/-- The arguments are equal, place by place and name by name. -/
structure Alike (p q : Payload F) : Prop where
  args : (PyVal.tuple p.args).Alike (.tuple q.args)
  kwargs : (PyVal.ofFields p.kwargs).Alike (.ofFields q.kwargs)

variable [PyFloat F] {p q : Payload F}

/-- The arguments have one JSON form. -/
structure SameForm (p q : Payload F) : Prop where
  args : (PyVal.tuple p.args).form = (PyVal.tuple q.args).form
  kwargs : (PyVal.ofFields p.kwargs).form = (PyVal.ofFields q.kwargs).form

theorem Alike.sameForm (h : p.Alike q) : p.SameForm q := ⟨h.args.form_eq, h.kwargs.form_eq⟩

/-- Plain arguments have one form exactly when they are alike.  The names of a
call are the keys of a dictionary in any case, so `__type__` is no exception
among them. -/
theorem sameForm_iff (hp : p.Plain) (hq : q.Plain) : p.SameForm q ↔ p.Alike q := by
  refine ⟨fun h => ⟨?_, ?_⟩, Alike.sameForm⟩
  · exact (PyVal.Plain.tuple hp.args).alike_of_form_eq (.tuple hq.args) h.args
  · exact PyVal.alike_of_form_dict hp.keys hq.keys hq.kwargs
      (fun v hv => (hp.kwargs v hv).alike_of_form_eq) h.kwargs

end Payload

end AgentRoi
