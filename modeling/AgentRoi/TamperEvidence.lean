/-
Tamper evidence of the JSONL store.

Two files that verify and end one chain in the same hash hold the same chain,
as far as the hash sees it: `verify` hashes the text of an object in which NaN
and the infinities are written as strings.

* `hashedMessages` — the byte strings `verify` hashes; SHA-256 is assumed to
  have no collision among those of the two files;
* `chain_namedSame` — the two chains agree event by event when their floats
  are named, by `ChainLog.chain_determined`;
* `tamper_evident_iff` — they are equal exactly when their numbers that are
  not finite stand at the same places.

`nanFiles_counterexample` is the edit that goes unnoticed.
-/
import AgentRoi.AuditVerify
import AgentRoi.JsonPlaces

namespace AgentRoi

open ChainLog

variable {F : Type} [PyBuiltins F]

namespace JsonlAuditStore

/-- The events of one chain, as parsed objects. -/
def chainOf (F : Type) [PyBuiltins F] (s : JsonlAuditStore) (correlationId : Str) :
    Except PyExc (List (JsonObj F)) := do
  let objects : List (JsonObj F) ← s.objects
  return objects.filter fun obj => correlationOf obj = correlationId

/-- The byte strings `verify` hashes. -/
def hashedMessages (F : Type) [PyBuiltins F] (s : JsonlAuditStore) : Set (List UInt8) :=
  { message | ∃ (objects : List (JsonObj F)) (obj : JsonObj F), s.objects = .ok objects ∧
    obj ∈ objects ∧
    encodeUtf8 (canonicalJson (PyVal.ofJson (.obj (dictErase (lit "hash") obj)))) =
      some message }

theorem readObjects_distinct : ∀ {lines : List Str} {n : Nat} {objects : List (JsonObj F)},
    readObjects n lines = .ok objects → ∀ obj ∈ objects, (Json.obj obj).Distinct
  | [], n, objects, h => by
    cases h
    simp
  | line :: lines, n, objects, h => by
    rw [readObjects] at h
    split_ifs at h with hb
    · exact readObjects_distinct h
    · split at h
      · cases h
      · rename_i kvs hload
        obtain ⟨rest, hrest, hret⟩ := except_bind_eq_ok.mp h
        cases hret
        exact List.forall_mem_cons.mpr ⟨Json.loads_distinct hload, readObjects_distinct hrest⟩
      · cases h

/-- The members of an object with their floats named and their keys sorted. -/
def namedMembers (obj : JsonObj F) : List (Str × Json F) :=
  obj.map fun p => (p.1, p.2.nameFloats.sortKeys)

theorem nameFloats_same_iff {a b : JsonObj F} (ha : (a.map Prod.fst).Nodup) :
    (Json.obj a).nameFloats.Same (Json.obj b).nameFloats ↔
      (namedMembers a).Perm (namedMembers b) := by
  have hnamed : ∀ obj : JsonObj F, (Json.obj obj).nameFloats.sortKeys =
      .obj (sortByKey (namedMembers obj)) := by
    intro obj
    rw [Json.nameFloats_obj, Json.sortKeys_obj, ← sortByKey_map_snd (f := Json.sortKeys),
      List.map_map]
    rfl
  have hkeys : ((namedMembers a).map Prod.fst).Nodup := by
    rw [namedMembers, List.map_map]
    exact ha
  rw [Json.Same, hnamed, hnamed, Json.obj.injEq, sortByKey_eq_iff_perm hkeys]

theorem dictErase_namedMembers (obj : JsonObj F) (k : Str) :
    dictErase k (namedMembers obj) = namedMembers (dictErase k obj) := by
  rw [namedMembers, namedMembers, dictErase, dictErase, List.filter_map]
  rfl

theorem dictGet_namedMembers (obj : JsonObj F) (k : Str) :
    dictGet k (namedMembers obj) = (dictGet k obj).map fun v => v.nameFloats.sortKeys :=
  dictGet_map_snd (f := fun v : Json F => v.nameFloats.sortKeys)

/-- A typed predecessor is kept when floats are named. -/
theorem prevOf_eq_of_named {a b : JsonObj F}
    (ha : (Json.optStr (dictGet (lit "prev_hash") a)).isSome)
    (hb : (Json.optStr (dictGet (lit "prev_hash") b)).isSome)
    (h : (dictGet (lit "prev_hash") a).map (fun v => v.nameFloats.sortKeys) =
      (dictGet (lit "prev_hash") b).map fun v => v.nameFloats.sortKeys) :
    prevOf a = prevOf b := by
  have htyped : ∀ {o : Option (Json F)}, (Json.optStr o).isSome →
      o = none ∨ o = some .null ∨ ∃ s, o = some (.str s) := by
    intro o ho
    match o, ho with
    | none, _ => exact .inl rfl
    | some .null, _ => exact .inr (.inl rfl)
    | some (.str s), _ => exact .inr (.inr ⟨s, rfl⟩)
  rw [prevOf, prevOf]
  rcases htyped ha with ha | ha | ⟨s, ha⟩ <;> rcases htyped hb with hb | hb | ⟨t, hb⟩
  all_goals
    rw [ha, hb] at h
    cases h <;> rw [ha, hb]

/-- Sealed objects with the same hash differ only in how floats are written. -/
theorem named_of_hashOf_eq {H : Sha256} {M : Set (List UInt8)} (hinj : Set.InjOn H.hexdigest M)
    {a b : JsonObj F} (ha : (Json.obj a).Distinct) (hb : (Json.obj b).Distinct)
    (hma : ∀ m, encodeUtf8 (canonicalJson (PyVal.ofJson (.obj (dictErase (lit "hash") a)))) =
      some m → m ∈ M)
    (hmb : ∀ m, encodeUtf8 (canonicalJson (PyVal.ofJson (.obj (dictErase (lit "hash") b)))) =
      some m → m ∈ M)
    (hsa : Sealed H true a) (hsb : Sealed H true b) (hh : hashOf a = hashOf b) :
    (Json.obj a).nameFloats.Same (Json.obj b).nameFloats ∧ prevOf a = prevOf b := by
  obtain ⟨hnda, halla⟩ := Json.distinct_obj_iff.mp ha
  obtain ⟨hndb, hallb⟩ := Json.distinct_obj_iff.mp hb
  obtain ⟨d, hda, hga, hca⟩ := hsa.hashOf_eq
  obtain ⟨d', hdb, hgb, hcb⟩ := hsb.hashOf_eq
  obtain rfl : d = d' := by
    rw [hda, hdb] at hh
    exact Option.some.inj hh
  obtain ⟨ma, hea, hdma⟩ := digestValue_eq_ok_iff.mp hca
  obtain ⟨mb, heb, hdmb⟩ := digestValue_eq_ok_iff.mp hcb
  -- equal digests, hence equal messages, hence equal texts
  have hm : ma = mb := hinj (hma ma hea) (hmb mb heb) (hdma.symm.trans hdmb)
  rw [← hm] at heb
  have htext := encodeUtf8_inj hea heb
  have hdista : (Json.obj (dictErase (lit "hash") a)).Distinct :=
    .obj (nodup_keys_dictErase hnda) fun p hp => halla p (List.mem_of_mem_filter hp)
  have hdistb : (Json.obj (dictErase (lit "hash") b)).Distinct :=
    .obj (nodup_keys_dictErase hndb) fun p hp => hallb p (List.mem_of_mem_filter hp)
  rw [canonicalJson_eq_iff, toJsonable_ofJson hdista, toJsonable_ofJson hdistb] at htext
  have herase := (nameFloats_same_iff (nodup_keys_dictErase hnda)).mp
    ((Json.same_sortKeys _).symm.trans (htext.trans (Json.same_sortKeys _)))
  rw [← dictErase_namedMembers, ← dictErase_namedMembers] at herase
  have hkeys : ∀ {obj : JsonObj F}, (obj.map Prod.fst).Nodup →
      ((namedMembers obj).map Prod.fst).Nodup := by
    intro obj h
    rw [namedMembers, List.map_map]
    exact h
  have hget : dictGet (lit "hash") (namedMembers a) = dictGet (lit "hash") (namedMembers b) := by
    rw [dictGet_namedMembers, dictGet_namedMembers, hga, hgb]
  have hperm := perm_of_dictErase_perm (hkeys hnda) (hkeys hndb) hget herase
  refine ⟨(nameFloats_same_iff hnda).mpr hperm, ?_⟩
  refine prevOf_eq_of_named hsa.prev_typed hsb.prev_typed ?_
  rw [← dictGet_namedMembers, ← dictGet_namedMembers]
  exact dictGet_eq_of_perm (hkeys hnda) hperm

/-- What a file that verifies is known to hold. -/
theorem chainOf_of_verify {H : Sha256} {s : JsonlAuditStore} {n : Nat} (correlationId : Str)
    (hchain : s.hashChain = true) (hv : s.verify F H = .ok n) :
    ∃ objects : List (JsonObj F), s.objects = .ok objects ∧
      Linked correlationOf prevOf hashOf objects ∧
      (∀ obj ∈ objects, Sealed H true obj ∧ (Json.obj obj).Distinct) ∧
      s.chainOf F correlationId = .ok (chain correlationOf correlationId objects) ∧
      s.lastHash F correlationId = .ok (tails correlationOf hashOf objects correlationId) := by
  obtain ⟨objects, ho, ⟨hl, hall⟩, -⟩ := verify_eq_ok_iff.mp hv
  rw [hchain] at hall
  refine ⟨objects, ho, hl, fun obj hobj => ⟨(hall obj hobj).2, ?_⟩, ?_, ?_⟩
  · exact readObjects_distinct ho obj hobj
  · exact except_bind_eq_ok.mpr ⟨objects, ho, rfl⟩
  · rw [lastHash, ho, ← lastHashFromObjects_eq_tails fun obj hobj => (hall obj hobj).2]
    rfl

/-- Two files that verify and end a chain in the same hash hold the same
chain, exactly when its numbers that are not finite stand at the same places
in both. -/
theorem tamper_evident_iff {H : Sha256} {s t : JsonlAuditStore}
    (hinj : Set.InjOn H.hexdigest (s.hashedMessages F ∪ t.hashedMessages F))
    (hs : s.hashChain = true) (ht : t.hashChain = true) {m n : Nat}
    (hvs : s.verify F H = .ok m) (hvt : t.verify F H = .ok n) {correlationId tail : Str}
    (hls : s.lastHash F correlationId = .ok (some tail))
    (hlt : t.lastHash F correlationId = .ok (some tail)) :
    ∃ xs ys : List (JsonObj F), s.chainOf F correlationId = .ok xs ∧
      t.chainOf F correlationId = .ok ys ∧
      (List.Forall₂ (fun a b => (Json.obj a).Same (.obj b)) xs ys ↔
        ∀ (i : Nat) (a b : JsonObj F), xs[i]? = some a → ys[i]? = some b →
          ∀ path, (Json.obj a).NonFiniteAt path ↔ (Json.obj b).NonFiniteAt path) := by
  obtain ⟨xs, hos, hlinks, halls, hcs, hts⟩ :=
    chainOf_of_verify correlationId hs hvs
  obtain ⟨ys, hot, hlinkt, hallt, hct, htt⟩ :=
    chainOf_of_verify correlationId ht hvt
  refine ⟨_, _, hcs, hct, ?_⟩
  rw [hls, Except.ok.injEq] at hts
  rw [hlt, Except.ok.injEq] at htt
  have hsealed : ∀ {objects : List (JsonObj F)},
      (∀ obj ∈ objects, Sealed H true obj ∧ (Json.obj obj).Distinct) →
      ∀ obj ∈ objects, hashOf obj ≠ none := by
    intro objects h obj hobj
    obtain ⟨d, hd, -⟩ := (h obj hobj).1.hashOf_eq
    rw [hd]
    exact Option.some_ne_none d
  -- equal tails make equal chains, up to the names of numbers that are not finite
  have hnamed := chain_determined hlinks hlinkt (hsealed halls) (hsealed hallt)
    (R := fun a b => (Json.obj a).nameFloats.Same (Json.obj b).nameFloats)
    (fun a ha b hb hh => named_of_hashOf_eq hinj (halls a ha).2 (hallt b hb).2
      (fun message hm => .inl ⟨xs, a, hos, ha, hm⟩) (fun message hm => .inr ⟨ys, b, hot, hb, hm⟩)
      (halls a ha).1 (hallt b hb).1 hh) (hts.symm.trans htt)
  rw [List.forall₂_iff_get] at hnamed ⊢
  obtain ⟨hlen, hnamed⟩ := hnamed
  -- and at those, by their places
  have hiff : ∀ i hi hi', (Json.obj ((chain correlationOf correlationId xs).get ⟨i, hi⟩)).Same
      (.obj ((chain correlationOf correlationId ys).get ⟨i, hi'⟩)) ↔ _ := fun i hi hi' =>
    Json.same_iff_nonFiniteAt (halls _ (List.mem_of_mem_filter (List.get_mem _ ⟨i, hi⟩))).2
      (hallt _ (List.mem_of_mem_filter (List.get_mem _ ⟨i, hi'⟩))).2 (hnamed i hi hi')
  constructor
  · rintro ⟨-, hsame⟩ i a b ha hb
    obtain ⟨hi, rfl⟩ := List.getElem?_eq_some_iff.mp ha
    obtain ⟨hi', rfl⟩ := List.getElem?_eq_some_iff.mp hb
    exact (hiff i hi hi').mp (hsame i hi hi')
  · intro h
    exact ⟨hlen, fun i hi hi' => (hiff i hi hi').mpr
      (h i _ _ (List.getElem?_eq_getElem hi) (List.getElem?_eq_getElem hi'))⟩

/-- A file of one event of chain `c`, with `value` written as its member `x`. -/
def oneEventFile (value : String) : JsonlAuditStore where
  hashChain := true
  content := lit "\x7b\"correlation_id\":\"c\",\"hash\":\"" ++ List.replicate 64 48 ++
    lit "\",\"x\":" ++ lit value ++ lit "\x7d\n"

theorem hashedMessages_subset {s : JsonlAuditStore} {message : List UInt8}
    (h : (s.objects : Except PyExc (List (JsonObj F))).map (List.map fun obj =>
      encodeUtf8 (canonicalJson (PyVal.ofJson (.obj (dictErase (lit "hash") obj))))) =
        .ok [some message]) : s.hashedMessages F ⊆ {message} := by
  rintro m ⟨objects, obj, ho, hobj, hm⟩
  rw [ho] at h
  have hmem := List.mem_map_of_mem hobj (f := fun obj =>
    encodeUtf8 (canonicalJson (PyVal.ofJson (.obj (dictErase (lit "hash") obj)))))
  rw [Except.ok.inj h, hm] at hmem
  simpa using hmem

/-- The two files hash the same text. -/
theorem nanFiles_injOn : Set.InjOn (default : Sha256).hexdigest
    ((oneEventFile "NaN").hashedMessages Half ∪
      (oneEventFile "\"nan\"").hashedMessages Half) := by
  have hnan : (oneEventFile "NaN").hashedMessages Half ⊆
      {(lit "\x7b\"correlation_id\":\"c\",\"x\":\"nan\"\x7d").map UInt8.ofNat} :=
    hashedMessages_subset (by decide +kernel)
  have hstr : (oneEventFile "\"nan\"").hashedMessages Half ⊆
      {(lit "\x7b\"correlation_id\":\"c\",\"x\":\"nan\"\x7d").map UInt8.ofNat} :=
    hashedMessages_subset (by decide +kernel)
  exact (Set.subsingleton_singleton.anti (Set.union_subset hnan hstr)).injOn _

theorem nanFiles_verify : (oneEventFile "NaN").verify Half default = .ok 1 ∧
    (oneEventFile "\"nan\"").verify Half default = .ok 1 ∧
    (oneEventFile "NaN").lastHash Half (lit "c") = .ok (some (List.replicate 64 48)) ∧
    (oneEventFile "\"nan\"").lastHash Half (lit "c") = .ok (some (List.replicate 64 48)) := by
  decide +kernel

theorem tamper_evident_nanFiles : ∃ xs ys : List (JsonObj Half),
    (oneEventFile "NaN").chainOf Half (lit "c") = .ok xs ∧
    (oneEventFile "\"nan\"").chainOf Half (lit "c") = .ok ys ∧
    (List.Forall₂ (fun a b => (Json.obj a).Same (.obj b)) xs ys ↔
      ∀ (i : Nat) (a b : JsonObj Half), xs[i]? = some a → ys[i]? = some b →
        ∀ path, (Json.obj a).NonFiniteAt path ↔ (Json.obj b).NonFiniteAt path) :=
  tamper_evident_iff nanFiles_injOn rfl rfl nanFiles_verify.1 nanFiles_verify.2.1
    nanFiles_verify.2.2.1 nanFiles_verify.2.2.2

/-- Two files that verify and end the chain in one hash, with different events
in it. -/
theorem nanFiles_counterexample :
    (oneEventFile "NaN").verify Half default = .ok 1 ∧
      (oneEventFile "\"nan\"").verify Half default = .ok 1 ∧
      (oneEventFile "NaN").lastHash Half (lit "c") = .ok (some (List.replicate 64 48)) ∧
      (oneEventFile "\"nan\"").lastHash Half (lit "c") = .ok (some (List.replicate 64 48)) ∧
      Set.InjOn (default : Sha256).hexdigest ((oneEventFile "NaN").hashedMessages Half ∪
        (oneEventFile "\"nan\"").hashedMessages Half) ∧
      ∀ xs ys : List (JsonObj Half), (oneEventFile "NaN").chainOf Half (lit "c") = .ok xs →
        (oneEventFile "\"nan\"").chainOf Half (lit "c") = .ok ys →
        ¬ List.Forall₂ (fun a b => (Json.obj a).Same (.obj b)) xs ys := by
  obtain ⟨h₁, h₂, h₃, h₄⟩ := nanFiles_verify
  refine ⟨h₁, h₂, h₃, h₄, nanFiles_injOn, fun xs ys hx hy hsame => ?_⟩
  have htext : xs.map (fun a => (Json.obj a).sortKeys.render) =
      ys.map fun b => (Json.obj b).sortKeys.render := by
    rw [← List.forall₂_eq_eq_eq, List.forall₂_map_left_iff, List.forall₂_map_right_iff]
    exact hsame.imp fun a b h => congrArg Json.render h
  have hdiff : ((oneEventFile "NaN").chainOf Half (lit "c")).map
      (List.map fun a => (Json.obj a).sortKeys.render) ≠
      ((oneEventFile "\"nan\"").chainOf Half (lit "c")).map
        (List.map fun a => (Json.obj a).sortKeys.render) := by
    decide +kernel
  rw [hx, hy] at hdiff
  exact hdiff (congrArg Except.ok htext)

end JsonlAuditStore

end AgentRoi
