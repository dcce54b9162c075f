/-
`agent_roi.audit.event`: the audit event, and how one is read back.

`PyBuiltins` holds the Python conversions that `_event_from_json` and the
readers of a JSONL file apply to values of a kind the package never writes
there; on the kinds it writes they are spelled out (`Json.pyStr`,
`Json.pyInt`).

* `Json.repr` — what `repr` prints of a value, texts in ASCII;
* `AuditEvent.create`, `toDict` — the two methods of the dataclass;
* `AuditEvent.computedHash` — the hash of everything but the hash;
* `dictGet_storedFields`, `canonicalJson_eraseHash` — an event's stored text
  yields its fields, and hashing what was read is hashing what was written.
-/
import AgentRoi.Serialization

namespace AgentRoi

/-! ### What `repr` prints -/

/-- A number in base sixteen, with so many digits. -/
def hexText (width n : ℕ) : Str :=
  (List.range width).reverse.map fun i =>
    let digit := n / 16 ^ i % 16
    if digit < 10 then 48 + digit else 87 + digit

/-- A character of a text between quotes.  Outside ASCII `repr` escapes only
what cannot be printed; here all of it counts as that. -/
def reprChar (quote c : ℕ) : Str :=
  if c = 92 ∨ c = quote then [92, c]
  else if c = 9 then lit "\\t"
  else if c = 10 then lit "\\n"
  else if c = 13 then lit "\\r"
  else if 32 ≤ c ∧ c < 127 then [c]
  else if c < 0x100 then lit "\\x" ++ hexText 2 c
  else if c < 0x10000 then lit "\\u" ++ hexText 4 c
  else lit "\\U" ++ hexText 8 c

/-- `repr` of a text: double quotes only around a text with a single quote and
no double one. -/
def reprText (s : Str) : Str :=
  let quote := if 39 ∈ s ∧ 34 ∉ s then 34 else 39
  quote :: s.flatMap (reprChar quote) ++ [quote]

namespace Json

variable {F : Type} [PyFloat F]

mutual
/-- `repr(value)`, which for a list or a dictionary is `str(value)`. -/
def repr : Json F → Str
  | .null => lit "None"
  | .bool true => lit "True"
  | .bool false => lit "False"
  | .int i => intText i
  | .float x => x.text
  | .str s => reprText s
  | .arr xs => 91 :: (lit ", ").intercalate (reprItems xs) ++ [93]
  | .obj kvs => 123 :: (lit ", ").intercalate (reprMembers kvs) ++ [125]

def reprItems : List (Json F) → List Str
  | [] => []
  | x :: xs => repr x :: reprItems xs

def reprMembers : List (Str × Json F) → List Str
  | [] => []
  | (k, v) :: kvs => (reprText k ++ lit ": " ++ repr v) :: reprMembers kvs
end

example : (Json.arr [.str (lit "it's"), .int 5, .obj [(lit "a", .null)]] : Json Half).repr =
    lit "[\"it's\", 5, \x7b'a': None\x7d]" := by decide

end Json

/-- What `str`, `int`, `dict` and truth testing do to the values for which the
package does not rely on it. -/
class PyBuiltins (F : Type) extends PyFloat F where
  floatTruthy : F → Bool
  strOf : Json F → Str
  intOf : Json F → Option Int
  dictOf : Json F → Option (List (PyKey F × PyVal F))

instance : PyBuiltins Half where
  floatTruthy _ := true
  strOf := Json.repr
  intOf _ := none
  dictOf _ := none

section

variable {F : Type} [PyBuiltins F]

/-- `bool(value)`. -/
def Json.truthy : Json F → Bool
  | .null => false
  | .bool b => b
  | .int i => i ≠ 0
  | .float (.finite f) => PyBuiltins.floatTruthy f
  | .float _ => true
  | .str s => s ≠ []
  | .arr xs => !xs.isEmpty
  | .obj kvs => !kvs.isEmpty

/-- `str(value)`. -/
def Json.pyStr : Json F → Str
  | .null => lit "None"
  | .bool true => lit "True"
  | .bool false => lit "False"
  | .int i => intText i
  | .float x => x.text
  | .str s => s
  | j => PyBuiltins.strOf j

/-- `int(value)`; none where it raises `TypeError` or `ValueError`. -/
def Json.pyInt : Json F → Option Int
  | .int i => some i
  | .bool b => some (if b then 1 else 0)
  | j => PyBuiltins.intOf j

/-- `dict(value)`; none where it raises `TypeError` or `ValueError`. -/
def Json.pyDict : Json F → Option (List (PyKey F × PyVal F))
  | .obj kvs => some (PyVal.ofJsonMembers kvs)
  | j => PyBuiltins.dictOf j

/-- What a loop over a value runs over; none where it raises. -/
def iterate : Json F → Option (List (Json F))
  | .arr items => some items
  | .str s => some (s.map fun c => .str [c])
  | .obj kvs => some (kvs.map fun p => .str p.1)
  | _ => none

/-- The loop raises a `TypeError`. -/
def notIterable : PyExc := .typeError (lit "object is not iterable")

/-- An `Optional[str]` field; none when the value is of another type. -/
def Json.optStr : Option (Json F) → Option (Option Str)
  | none => some none
  | some .null => some none
  | some (.str s) => some (some s)
  | some _ => none

end

variable {F : Type}

/-- The audit event, its fields of the types the dataclass declares. -/
structure AuditEvent (F : Type) where
  eventId : Str
  correlationId : Str
  runId : Str
  tsEpochMs : Int
  eventType : Str
  payload : List (PyKey F × PyVal F)
  prevHash : Option Str
  hash : Option Str

def PyVal.ofOptStr : Option Str → PyVal F
  | .none => .none
  | .some s => .str s

namespace AuditEvent

/-- What is hashed: every field but the hash. -/
def baseDict (e : AuditEvent F) : PyDict F :=
  [(lit "event_id", .str e.eventId), (lit "correlation_id", .str e.correlationId),
    (lit "run_id", .str e.runId), (lit "ts_epoch_ms", .int e.tsEpochMs),
    (lit "event_type", .str e.eventType), (lit "payload", .dict e.payload),
    (lit "prev_hash", .ofOptStr e.prevHash)]

def toDict (e : AuditEvent F) : PyDict F := e.baseDict ++ [(lit "hash", .ofOptStr e.hash)]

/-- `payload = event.to_dict(); payload.pop("hash")`. -/
theorem dictErase_toDict (e : AuditEvent F) :
    dictErase (lit "hash") e.toDict = e.baseDict := rfl

theorem nodup_keys_toDict (e : AuditEvent F) : (e.toDict.map Prod.fst).Nodup :=
  (by decide : [lit "event_id", lit "correlation_id", lit "run_id", lit "ts_epoch_ms",
    lit "event_type", lit "payload", lit "prev_hash", lit "hash"].Nodup)

theorem nodup_keys_baseDict (e : AuditEvent F) : (e.baseDict.map Prod.fst).Nodup :=
  (by decide : [lit "event_id", lit "correlation_id", lit "run_id", lit "ts_epoch_ms",
    lit "event_type", lit "payload", lit "prev_hash"].Nodup)

end AuditEvent

variable [PyFloat F]

/-- `_stable_json`. -/
def stableJson (d : PyDict F) : Str := canonicalJson (.ofFields d)

/-- `to_jsonable(payload)`, wrapped when it is no dictionary. -/
def safePayload (payload : PyVal F) : List (PyKey F × PyVal F) :=
  match toJsonable payload with
  | .obj kvs => PyVal.ofJsonMembers kvs
  | j => [(.str (lit "value"), PyVal.ofJson j)]

namespace AuditEvent

/-- `hashlib.sha256(_stable_json(base).encode("utf-8")).hexdigest()`. -/
def computedHash (H : Sha256) (e : AuditEvent F) : Except PyExc Str :=
  digestValue H (.ofFields e.baseDict)

/-- `AuditEvent.create`, given the fresh event id and the clock. -/
def create (H : Sha256) (eventId : Str) (tsEpochMs : Int)
    (correlationId runId eventType : Str) (payload : PyVal F) (prevHash : Option Str)
    (hashChain : Bool) : Except PyExc (AuditEvent F) :=
  let base : AuditEvent F :=
    { eventId, correlationId, runId, tsEpochMs, eventType
      payload := safePayload payload, prevHash, hash := none }
  if hashChain then
    match base.computedHash H with
    | .ok h => .ok { base with hash := some h }
    | .error exc => .error exc
  else .ok base

/-- What a successful `create` returns. -/
theorem create_eq_ok {H : Sha256} {eventId : Str} {ts : Int} {corr run type : Str}
    {payload : PyVal F} {prev : Option Str} {chain : Bool} {e : AuditEvent F}
    (h : create H eventId ts corr run type payload prev chain = .ok e) :
    e.eventId = eventId ∧ e.correlationId = corr ∧ e.runId = run ∧ e.prevHash = prev ∧
      e.payload = safePayload payload ∧
      (if chain then ∃ d, e.hash = some d ∧ e.computedHash H = .ok d else e.hash = none) := by
  unfold create at h
  cases chain with
  | true =>
    simp only [if_true] at h ⊢
    split at h
    · rename_i d hd
      cases h
      exact ⟨rfl, rfl, rfl, rfl, rfl, d, rfl, hd⟩
    · cases h
  | false =>
    simp only [Bool.false_eq_true, if_false, Except.ok.injEq] at h ⊢
    subst h
    exact ⟨rfl, rfl, rfl, rfl, rfl, rfl⟩

end AuditEvent

/-! ### Dictionaries with string keys -/

/-- The converted entries of a dictionary with string keys. -/
theorem toJsonable_ofFields {d : PyDict F} (hd : (d.map Prod.fst).Nodup) :
    toJsonable (.ofFields d) = .obj (sortByKey (d.map fun p => (p.1, toJsonable p.2))) := by
  have hitems : toJsonableItems (d.map fun p => ((.str p.1 : PyKey F), p.2)) =
      d.map fun p => (p.1, toJsonable p.2) := by
    rw [toJsonableItems_eq_map, List.map_map]
    rfl
  rw [PyVal.ofFields, toJsonable, hitems, dictOf_of_nodup]
  rw [nodup_keys_sortByKey, List.map_map]
  exact hd

/-- The members read back from the text of a dictionary with string keys. -/
def storedFields (d : PyDict F) : List (Str × Json F) :=
  sortByKey (d.map fun p => (p.1, (toJsonable p.2).sortKeys))

theorem loads_stableJson {d : PyDict F} (hd : (d.map Prod.fst).Nodup) :
    Json.loads (stableJson d) = some (.obj (storedFields d)) := by
  rw [stableJson, loads_canonicalJson, toJsonable_ofFields hd, Json.sortKeys_obj,
    sortByKey_sortByKey, storedFields,
    sortByKey_map_snd (f := fun v : PyVal F => toJsonable v),
    sortByKey_map_snd (f := fun v : PyVal F => (toJsonable v).sortKeys), List.map_map]
  rfl

theorem nodup_keys_storedFields {d : PyDict F} (hd : (d.map Prod.fst).Nodup) :
    ((storedFields d).map Prod.fst).Nodup := by
  rw [storedFields, nodup_keys_sortByKey, List.map_map]
  exact hd

theorem dictGet_storedFields {d : PyDict F} (hd : (d.map Prod.fst).Nodup) (k : Str) :
    dictGet k (storedFields d) = (dictGet k d).map fun v => (toJsonable v).sortKeys := by
  rw [storedFields, dictGet_sortByKey]
  · exact dictGet_map_snd (f := fun v : PyVal F => (toJsonable v).sortKeys)
  · rw [List.map_map]
    exact hd

/-- Dropping a member of what was read and printing it again is dropping it
before the first print. -/
theorem canonicalJson_dictErase {d : PyDict F} (hd : (d.map Prod.fst).Nodup) (k : Str) :
    canonicalJson (PyVal.ofJson (.obj (dictErase k (storedFields d)))) =
      stableJson (dictErase k d) := by
  have hd' : ((dictErase k d).map Prod.fst).Nodup := nodup_keys_dictErase hd
  have hperm : (dictErase k (storedFields d)).Perm (storedFields (dictErase k d)) := by
    refine ((sortByKey_perm _).filter _).trans (List.Perm.trans ?_ (sortByKey_perm _).symm)
    rw [List.filter_map]
    exact .rfl
  have hclean : (Json.obj (storedFields d)).Clean := by
    have := (toJsonable_clean (PyVal.ofFields d)).sortKeys
    have hl := loads_canonicalJson (PyVal.ofFields d)
    have hs := loads_stableJson hd
    rw [stableJson, hl] at hs
    rwa [Option.some.inj hs] at this
  obtain ⟨hnd, hall⟩ := Json.clean_obj_iff.mp hclean
  have herase : (Json.obj (dictErase k (storedFields d))).Clean :=
    .obj (nodup_keys_dictErase hnd) fun p hp => hall p (List.mem_of_mem_filter hp)
  have hback := canonicalJson_loads (loads_stableJson hd')
  have hclean' : (Json.obj (storedFields (dictErase k d))).Clean := by
    refine .obj (nodup_keys_storedFields hd') fun p hp => ?_
    exact herase |> Json.clean_obj_iff.mp |>.2 p (hperm.mem_iff.mpr hp)
  rw [stableJson, ← hback, canonicalJson_ofJson herase.distinct,
    canonicalJson_ofJson hclean'.distinct, herase.nameFloats, hclean'.nameFloats,
    Json.sortKeys_obj, Json.sortKeys_obj, sortByKey_eq_of_perm _ hperm]
  exact nodup_keys_dictErase hnd

/-- The text of a dictionary depends on the texts of its fields. -/
theorem canonicalJson_ofFields_congr {d d' : PyDict F} (hd : (d.map Prod.fst).Nodup)
    (h : List.Forall₂ (fun p q => p.1 = q.1 ∧ canonicalJson p.2 = canonicalJson q.2) d d') :
    canonicalJson (.ofFields d) = canonicalJson (.ofFields d') := by
  have hkeys : d.map Prod.fst = d'.map Prod.fst := by
    clear hd
    induction h with
    | nil => rfl
    | cons hpq _ ih => rw [List.map_cons, List.map_cons, hpq.1, ih]
  have hvalues : d.map (fun p => (p.1, (toJsonable p.2).sortKeys)) =
      d'.map fun p => (p.1, (toJsonable p.2).sortKeys) := by
    clear hd hkeys
    induction h with
    | nil => rfl
    | cons hpq _ ih =>
      rw [List.map_cons, List.map_cons, hpq.1, canonicalJson_eq_iff.mp hpq.2, ih]
  have hloads := loads_stableJson hd
  have hloads' := loads_stableJson (d := d') (by rwa [← hkeys])
  rw [storedFields, hvalues] at hloads
  rw [stableJson, loads_canonicalJson] at hloads hloads'
  rw [canonicalJson_eq_iff]
  exact Option.some.inj (hloads.trans hloads'.symm)

end AgentRoi
