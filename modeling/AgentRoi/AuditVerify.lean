/-
What the three `verify` methods accept, as statements about logs.

Each store keeps a log of entries, and `verify` accepts it when every entry
names the tail of its chain (`ChainLog.Linked`) and carries the right hash:

* `InMemoryAuditStore.verify_eq_ok_iff`, `JsonlAuditStore.verify_eq_ok_iff`,
  `SqliteAuditStore.verify_eq_ok_iff`;
* `cacheOf_eq_tails`, `lastHashFromObjects_eq_tails`, `previousHash_eq_tails` —
  on such a log the three ways to look up a predecessor find the tail;
* `storedObj`, `readBack` — the entry that comes back after writing an event.
-/
import AgentRoi.AuditStore

namespace AgentRoi

open ChainLog

variable {F : Type}

/-! ### The loop -/

/-- Without hashes no chain ever gets a tail. -/
def TableFor (hashChain : Bool) (last : Str → Option Str) : Prop :=
  hashChain = false → last = fun _ => none

theorem tableFor_empty (hashChain : Bool) : TableFor hashChain fun _ => none := fun _ => rfl

theorem TableFor.update {hashChain : Bool} {last : Str → Option Str}
    (h : TableFor hashChain last) {k : Str} {d : Option Str}
    (hd : hashChain = false → d = none) : TableFor hashChain (Function.update last k d) := by
  intro hc
  rw [h hc, hd hc]
  exact Function.update_eq_self k _

/-- A loop whose body checks the predecessor and something about the entry
alone accepts the linked logs of good entries. -/
theorem verifyLoop_eq_ok_iff {E : Type} {hashChain : Bool}
    {check : Nat → (Str → Option Str) → E → Except PyExc (Str → Option Str)}
    {key : E → Str} {prev hash : E → Option Str} {Good : E → Prop}
    (hcheck : ∀ i last e last', TableFor hashChain last →
      (check i last e = .ok last' ↔ prev e = last (key e) ∧ Good e ∧
        last' = Function.update last (key e) (hash e)))
    (hgood : ∀ e, Good e → hashChain = false → hash e = none) :
    ∀ {log : List E} {i : Nat} {last : Str → Option Str}, TableFor hashChain last →
      (verifyLoop check i last log = .ok () ↔
        LinkedFrom key prev hash last log ∧ ∀ e ∈ log, Good e)
  | [], _, _, _ => by simp [verifyLoop, LinkedFrom]
  | e :: log, i, last, hlast => by
    rw [verifyLoop, except_bind_eq_ok, LinkedFrom, List.forall_mem_cons]
    constructor
    · rintro ⟨last', hc, hrest⟩
      obtain ⟨hprev, hg, rfl⟩ := (hcheck _ _ _ _ hlast).mp hc
      have hnext := hlast.update (k := key e) (hgood e hg)
      obtain ⟨hlinked, hall⟩ := (verifyLoop_eq_ok_iff hcheck hgood hnext).mp hrest
      exact ⟨⟨hprev, hlinked⟩, hg, hall⟩
    · rintro ⟨⟨hprev, hlinked⟩, hg, hall⟩
      have hnext := hlast.update (k := key e) (hgood e hg)
      exact ⟨_, (hcheck _ _ _ _ hlast).mpr ⟨hprev, hg, rfl⟩,
        (verifyLoop_eq_ok_iff hcheck hgood hnext).mpr ⟨hlinked, hall⟩⟩

/-! ### Logs of events -/

section

variable [PyFloat F]

/-- The hash an event should carry in a store with this setting. -/
def AuditEvent.Sealed (H : Sha256) (hashChain : Bool) (e : AuditEvent F) : Prop :=
  if hashChain then ∃ d, e.hash = some d ∧ e.computedHash H = .ok d else e.hash = none

theorem AuditEvent.computedHash_ne_nil {H : Sha256} {e : AuditEvent F} {d : Str}
    (h : e.computedHash H = .ok d) : d ≠ [] := by
  obtain ⟨bytes, -, rfl⟩ := digestValue_eq_ok_iff.mp h
  exact H.hexdigest_ne_nil bytes

theorem AuditEvent.Sealed.hash_eq_none {H : Sha256} {hashChain : Bool} {e : AuditEvent F}
    (h : e.Sealed H hashChain) (hc : hashChain = false) : e.hash = none := by
  subst hc
  exact h

/-- The log of a store that verifies. -/
structure VerifiedLog (H : Sha256) (hashChain : Bool) (log : List (AuditEvent F)) : Prop where
  linked : Linked AuditEvent.correlationId AuditEvent.prevHash AuditEvent.hash log
  sealed : ∀ e ∈ log, e.Sealed H hashChain

/-- The hash the chain of `correlationId` ends in. -/
def chainTail (log : List (AuditEvent F)) (correlationId : Str) : Option Str :=
  tails AuditEvent.correlationId AuditEvent.hash log correlationId

theorem verifiedLog_nil (H : Sha256) (hashChain : Bool) :
    VerifiedLog H hashChain ([] : List (AuditEvent F)) :=
  ⟨linked_nil, by simp⟩

theorem verifiedLog_concat {H : Sha256} {hashChain : Bool} {log : List (AuditEvent F)}
    {e : AuditEvent F} :
    VerifiedLog H hashChain (log ++ [e]) ↔ VerifiedLog H hashChain log ∧
      e.prevHash = chainTail log e.correlationId ∧ e.Sealed H hashChain := by
  constructor
  · rintro ⟨hl, hs⟩
    obtain ⟨hl', hp⟩ := (linked_concat log e).mp hl
    exact ⟨⟨hl', fun f hf => hs f (by simp [hf])⟩, hp, hs e (by simp)⟩
  · rintro ⟨⟨hl, hs⟩, hp, he⟩
    refine ⟨(linked_concat log e).mpr ⟨hl, hp⟩, fun f hf => ?_⟩
    rcases List.mem_append.mp hf with hf | hf
    · exact hs f hf
    · rwa [List.mem_singleton.mp hf]

omit [PyFloat F] in
theorem chainTail_concat (log : List (AuditEvent F)) (e : AuditEvent F) :
    chainTail (log ++ [e]) = Function.update (chainTail log) e.correlationId e.hash :=
  tails_concat log e

omit [PyFloat F] in
theorem chainTail_eq_none {log : List (AuditEvent F)} (h : ∀ e ∈ log, e.hash = none) :
    chainTail log = fun _ => none := by
  induction log using List.reverseRecOn with
  | nil => rfl
  | append_singleton log e ih =>
    rw [chainTail_concat, ih fun f hf => h f (by simp [hf]), h e (by simp)]
    exact Function.update_eq_self e.correlationId _

/-- The cache of the in-memory store holds the tails. -/
theorem cacheOf_eq_tails {H : Sha256} {hashChain : Bool} {log : List (AuditEvent F)}
    (h : ∀ e ∈ log, e.Sealed H hashChain) : cacheOf log = chainTail log := by
  induction log using List.reverseRecOn with
  | nil => rfl
  | append_singleton log e ih =>
    have hstep : cacheOf (log ++ [e]) = cacheHash (cacheOf log) e := by
      rw [cacheOf, List.foldl_append]
      rfl
    have hlog : ∀ f ∈ log, f.Sealed H hashChain := fun f hf => h f (by simp [hf])
    have he : e.Sealed H hashChain := h e (by simp)
    rw [hstep, ih hlog, chainTail_concat]
    cases hashChain with
    | true =>
      obtain ⟨d, hd, hc⟩ := he
      obtain ⟨c, d, rfl⟩ := List.exists_cons_of_ne_nil (AuditEvent.computedHash_ne_nil hc)
      rw [cacheHash, hd]
    | false =>
      have hnone : e.hash = none := he
      rw [cacheHash, hnone, chainTail_eq_none fun f hf => (hlog f hf).hash_eq_none rfl]
      exact (Function.update_eq_self e.correlationId _).symm

end

/-! ### The in-memory store -/

namespace InMemoryAuditStore

variable [PyFloat F]

theorem check_eq_ok_iff {H : Sha256} {hashChain : Bool} {i : Nat} {last last' : Str → Option Str}
    {e : AuditEvent F} (hlast : TableFor hashChain last) :
    check H hashChain i last e = .ok last' ↔ e.prevHash = last e.correlationId ∧
      e.Sealed H hashChain ∧ last' = Function.update last e.correlationId e.hash := by
  unfold check
  by_cases hprev : e.prevHash = last e.correlationId
  · rw [if_neg (not_not.mpr hprev)]
    cases hashChain with
    | true =>
      rw [if_pos rfl]
      cases hcomp : e.computedHash H with
      | error exc => simp [AuditEvent.Sealed, hcomp]
      | ok computed =>
        by_cases hh : e.hash = some computed
        · simp [AuditEvent.Sealed, hcomp, hh, hprev, eq_comm]
        · simp [AuditEvent.Sealed, hcomp, hh]
    | false =>
      rw [if_neg Bool.false_ne_true, hlast rfl]
      by_cases hh : e.hash = none
      · simp [AuditEvent.Sealed, hh, hprev, hlast rfl, eq_comm]
      · simp [AuditEvent.Sealed, hh]
  · simp [hprev]

theorem verify_eq_ok_iff {H : Sha256} {s : InMemoryAuditStore F} {n : Nat} :
    s.verify H = .ok n ↔ VerifiedLog H s.hashChain s.events ∧ n = s.events.length := by
  have hloop : verifyLoop (check H s.hashChain) 1 (fun _ => none) s.events = .ok () ↔
      Linked AuditEvent.correlationId AuditEvent.prevHash AuditEvent.hash s.events ∧
        ∀ e ∈ s.events, e.Sealed H s.hashChain :=
    verifyLoop_eq_ok_iff (fun _ _ _ _ h => check_eq_ok_iff h)
      (fun _ h => h.hash_eq_none) (tableFor_empty s.hashChain)
  rw [verify, except_bind_eq_ok]
  constructor
  · rintro ⟨⟨⟩, hv, hn⟩
    cases hn
    obtain ⟨hl, hs⟩ := hloop.mp hv
    exact ⟨⟨hl, hs⟩, rfl⟩
  · rintro ⟨⟨hl, hs⟩, rfl⟩
    exact ⟨(), hloop.mpr ⟨hl, hs⟩, rfl⟩

end InMemoryAuditStore

/-! ### The JSONL store -/

namespace JsonlAuditStore

variable [PyBuiltins F]

/-- The predecessor an object names, when it is a string or null. -/
def prevOf (obj : JsonObj F) : Option Str :=
  (Json.optStr (dictGet (lit "prev_hash") obj)).getD none

/-- The hash of an object, when it is a non-empty string. -/
def hashOf (obj : JsonObj F) : Option Str :=
  match dictGet (lit "hash") obj with
  | some (.str (c :: h)) => some (c :: h)
  | _ => none

/-- What `verify` asks of one object besides its place in the chain. -/
structure Sealed (H : Sha256) (hashChain : Bool) (obj : JsonObj F) : Prop where
  prev_typed : (Json.optStr (dictGet (lit "prev_hash") obj)).isSome
  hash_right : if hashChain then
      ∃ d, dictGet (lit "hash") obj = some (.str d) ∧ objectHash H obj = .ok d
    else dictGet (lit "hash") obj = none ∨ dictGet (lit "hash") obj = some .null

theorem objectHash_ne_nil {H : Sha256} {obj : JsonObj F} {d : Str}
    (h : objectHash H obj = .ok d) : d ≠ [] := by
  obtain ⟨bytes, -, rfl⟩ := digestValue_eq_ok_iff.mp h
  exact H.hexdigest_ne_nil bytes

theorem Sealed.hashOf_eq_none {H : Sha256} {hashChain : Bool} {obj : JsonObj F}
    (h : Sealed H hashChain obj) (hc : hashChain = false) : hashOf obj = none := by
  subst hc
  rcases h.hash_right with hh | hh <;> rw [hashOf, hh]

/-- The hash of a sealed object in a chained store. -/
theorem Sealed.hashOf_eq {H : Sha256} {obj : JsonObj F} (h : Sealed H true obj) :
    ∃ d, hashOf obj = some d ∧ dictGet (lit "hash") obj = some (.str d) ∧
      objectHash H obj = .ok d := by
  obtain ⟨d, hd, hc⟩ := h.hash_right
  obtain ⟨c, d, rfl⟩ := List.exists_cons_of_ne_nil (objectHash_ne_nil hc)
  exact ⟨c :: d, by rw [hashOf, hd], hd, hc⟩

omit [PyBuiltins F] in
theorem prevMatches_iff {obj : JsonObj F} {expected : Option Str} :
    prevMatches obj expected = true ↔
      (Json.optStr (dictGet (lit "prev_hash") obj)).isSome ∧ prevOf obj = expected := by
  rw [prevMatches, prevOf]
  cases Json.optStr (dictGet (lit "prev_hash") obj) <;> simp

theorem check_eq_ok_iff {H : Sha256} {hashChain : Bool} {i : Nat} {last last' : Str → Option Str}
    {obj : JsonObj F} (hlast : TableFor hashChain last) :
    check H hashChain i last obj = .ok last' ↔ prevOf obj = last (correlationOf obj) ∧
      (correlationOf obj ≠ [] ∧ Sealed H hashChain obj) ∧
        last' = Function.update last (correlationOf obj) (hashOf obj) := by
  unfold check
  by_cases hcorr : correlationOf obj = []
  · simp [hcorr]
  rw [if_neg hcorr]
  cases hprev : prevMatches obj (last (correlationOf obj)) with
  | false =>
    have hnot : ¬((Json.optStr (dictGet (lit "prev_hash") obj)).isSome ∧
        prevOf obj = last (correlationOf obj)) := by
      rw [← prevMatches_iff, hprev]
      exact Bool.false_ne_true
    rw [if_pos (by rfl)]
    constructor
    · intro h
      cases h
    · rintro ⟨hp, ⟨-, hs⟩, -⟩
      exact absurd ⟨hs.prev_typed, hp⟩ hnot
  | true =>
    obtain ⟨htyped, hp⟩ := prevMatches_iff.mp hprev
    rw [if_neg (by simp)]
    cases hashChain with
    | true =>
      rw [if_pos rfl]
      constructor
      · intro h
        split at h
        · rename_i c d hget
          split at h
          · cases h
          · rename_i computed hcomp
            split at h
            · cases h
            · rename_i heq
              cases h
              have heq : computed = c :: d := not_not.mp heq
              exact ⟨hp, ⟨hcorr, htyped, c :: d, hget, heq ▸ hcomp⟩, by rw [hashOf, hget]⟩
        · cases h
      · rintro ⟨-, ⟨-, hs⟩, rfl⟩
        obtain ⟨d, hhash, hget, hcomp⟩ := hs.hashOf_eq
        obtain ⟨c, d, rfl⟩ := List.exists_cons_of_ne_nil (objectHash_ne_nil hcomp)
        simp [hget, hcomp, hhash]
    | false =>
      have hupd : hashOf obj = none →
          Function.update last (correlationOf obj) (hashOf obj) = last := by
        intro h
        rw [h, hlast rfl]
        exact Function.update_eq_self (correlationOf obj) _
      rw [if_neg Bool.false_ne_true]
      constructor
      · intro h
        split at h
        · rename_i hget
          cases h
          exact ⟨hp, ⟨hcorr, htyped, .inl hget⟩, (hupd (by rw [hashOf, hget])).symm⟩
        · rename_i hget
          cases h
          exact ⟨hp, ⟨hcorr, htyped, .inr hget⟩, (hupd (by rw [hashOf, hget])).symm⟩
        · cases h
      · rintro ⟨-, ⟨-, hs⟩, rfl⟩
        rw [hupd (hs.hashOf_eq_none rfl)]
        rcases hs.hash_right with hget | hget <;> rw [hget]

theorem verifyLoop_iff {H : Sha256} {hashChain : Bool} {objects : List (JsonObj F)} :
    verifyLoop (check H hashChain) 1 (fun _ => none) objects = .ok () ↔
      Linked correlationOf prevOf hashOf objects ∧
        ∀ obj ∈ objects, correlationOf obj ≠ [] ∧ Sealed H hashChain obj :=
  verifyLoop_eq_ok_iff (fun _ _ _ _ h => check_eq_ok_iff h)
    (fun _ h => h.2.hashOf_eq_none) (tableFor_empty hashChain)

theorem verify_eq_ok_iff {H : Sha256} {s : JsonlAuditStore} {n : Nat} :
    s.verify F H = .ok n ↔ ∃ objects : List (JsonObj F), s.objects = .ok objects ∧
      (Linked correlationOf prevOf hashOf objects ∧
        ∀ obj ∈ objects, correlationOf obj ≠ [] ∧ Sealed H s.hashChain obj) ∧
      n = objects.length := by
  rw [verify, except_bind_eq_ok]
  constructor
  · rintro ⟨objects, ho, hv⟩
    obtain ⟨⟨⟩, hloop, hn⟩ := except_bind_eq_ok.mp hv
    cases hn
    exact ⟨objects, ho, verifyLoop_iff.mp hloop, rfl⟩
  · rintro ⟨objects, ho, hv, rfl⟩
    exact ⟨objects, ho, except_bind_eq_ok.mpr ⟨(), verifyLoop_iff.mpr hv, rfl⟩⟩

theorem truthyHash_eq_hashOf {H : Sha256} {hashChain : Bool} {obj : JsonObj F}
    (h : Sealed H hashChain obj) : truthyHash obj = hashOf obj := by
  cases hashChain with
  | true =>
    obtain ⟨d, hhash, hget, hc⟩ := h.hashOf_eq
    rw [truthyHash, hget, hhash]
    simp [Json.truthy, objectHash_ne_nil hc, Json.pyStr]
  | false =>
    rw [h.hashOf_eq_none rfl, truthyHash]
    rcases h.hash_right with hget | hget <;> rw [hget]
    rfl

/-- The scan for the predecessor finds the tail. -/
theorem lastHashFromObjects_eq_tails {H : Sha256} {hashChain : Bool}
    {objects : List (JsonObj F)} (h : ∀ obj ∈ objects, Sealed H hashChain obj)
    (correlationId : Str) :
    lastHashFromObjects objects correlationId = tails correlationOf hashOf objects correlationId := by
  induction objects using List.reverseRecOn with
  | nil => rfl
  | append_singleton objects obj ih =>
    have hobj : Sealed H hashChain obj := h obj (by simp)
    have hrest : ∀ o ∈ objects, Sealed H hashChain o := fun o ho => h o (by simp [ho])
    have hstep : lastHashFromObjects (objects ++ [obj]) correlationId =
        if correlationOf obj = correlationId then
          (truthyHash obj).or (lastHashFromObjects objects correlationId)
        else lastHashFromObjects objects correlationId := by
      rw [lastHashFromObjects, List.foldl_append]
      rfl
    rw [hstep, ih hrest, tails_concat, truthyHash_eq_hashOf hobj]
    by_cases hc : correlationOf obj = correlationId
    · rw [if_pos hc, hc, Function.update_self]
      cases hashChain with
      | true =>
        obtain ⟨d, hd, -⟩ := hobj.hashOf_eq
        rw [hd, Option.some_or]
      | false =>
        have hnone : tails correlationOf hashOf objects correlationId = none := by
          rw [tails_eq_getLast]
          cases hl : (chain correlationOf correlationId objects).getLast? with
          | none => rfl
          | some o =>
            have ho : o ∈ chain correlationOf correlationId objects := List.mem_of_getLast? hl
            exact (hrest o (List.mem_of_mem_filter ho)).hashOf_eq_none rfl
        rw [hnone, hobj.hashOf_eq_none rfl, Option.none_or]
    · rw [if_neg hc, Function.update_of_ne (Ne.symm hc)]

/-! What is read back after an event is written. -/

/-- The object an event is stored as. -/
def storedObj (e : AuditEvent F) : JsonObj F := storedFields e.toDict

theorem dictGet_storedObj (e : AuditEvent F) (key : Str) :
    dictGet key (storedObj e) = (dictGet key e.toDict).map fun v => (toJsonable v).sortKeys :=
  dictGet_storedFields e.nodup_keys_toDict key

theorem correlationOf_storedObj (e : AuditEvent F) :
    correlationOf (storedObj e) = e.correlationId := by
  rw [correlationOf, dictGet_storedObj]
  rfl

theorem optStr_prev_storedObj (e : AuditEvent F) :
    Json.optStr (dictGet (lit "prev_hash") (storedObj e)) = some e.prevHash := by
  have hget : dictGet (lit "prev_hash") e.toDict = some (.ofOptStr e.prevHash) := rfl
  rw [dictGet_storedObj, hget]
  cases e.prevHash <;> rfl

theorem dictGet_hash_storedObj (e : AuditEvent F) :
    dictGet (lit "hash") (storedObj e) = some (e.hash.elim .null .str) := by
  have hget : dictGet (lit "hash") e.toDict = some (.ofOptStr e.hash) := rfl
  rw [dictGet_storedObj, hget]
  cases e.hash <;> rfl

theorem objectHash_storedObj {H : Sha256} (e : AuditEvent F) :
    objectHash H (storedObj e) = e.computedHash H :=
  digestValue_congr (canonicalJson_dictErase e.nodup_keys_toDict (lit "hash"))

theorem sealed_storedObj_iff {H : Sha256} {hashChain : Bool} {e : AuditEvent F} :
    Sealed H hashChain (storedObj e) ↔ e.Sealed H hashChain := by
  have htyped : (Json.optStr (dictGet (lit "prev_hash") (storedObj e))).isSome := by
    rw [optStr_prev_storedObj]
    rfl
  have hright : (Sealed H hashChain (storedObj e)) ↔ _ := ⟨Sealed.hash_right, .mk htyped⟩
  rw [hright, AuditEvent.Sealed, dictGet_hash_storedObj, objectHash_storedObj]
  cases hashChain <;> cases e.hash <;> simp

theorem prevOf_storedObj (e : AuditEvent F) : prevOf (storedObj e) = e.prevHash := by
  rw [prevOf, optStr_prev_storedObj]
  rfl

theorem hashOf_storedObj {H : Sha256} {hashChain : Bool} {e : AuditEvent F}
    (h : e.Sealed H hashChain) : hashOf (storedObj e) = e.hash := by
  rw [hashOf, dictGet_hash_storedObj]
  cases hashChain with
  | true =>
    obtain ⟨d, hd, hc⟩ := h
    obtain ⟨c, d, rfl⟩ := List.exists_cons_of_ne_nil (AuditEvent.computedHash_ne_nil hc)
    rw [hd]
    rfl
  | false =>
    rw [h.hash_eq_none rfl]
    rfl

/-! Writing one more line. -/

theorem readObjects_concat {line : Str} {obj : JsonObj F} (hblank : isBlank line = false)
    (hload : Json.loads line = some (.obj obj)) : ∀ {lines : List Str} {n : Nat}
    {objects : List (JsonObj F)}, readObjects n lines = .ok objects →
      readObjects n (lines ++ [line]) = .ok (objects ++ [obj])
  | [], n, objects, h => by
    cases h
    simp [readObjects, hblank, hload, bind, Except.bind, pure, Except.pure]
  | l :: lines, n, objects, h => by
    rw [readObjects] at h
    rw [List.cons_append, readObjects]
    split_ifs at h ⊢ with hb
    · exact readObjects_concat hblank hload h
    · split at h
      · cases h
      · rename_i kvs _
        obtain ⟨rest, hrest, hret⟩ := except_bind_eq_ok.mp h
        cases hret
        exact except_bind_eq_ok.mpr ⟨_, readObjects_concat hblank hload hrest, rfl⟩
      · cases h

theorem loads_stored (e : AuditEvent F) :
    Json.loads (stableJson e.toDict) = some (.obj (storedObj e)) :=
  loads_stableJson e.nodup_keys_toDict

theorem stableJson_not_blank {d : PyDict F} (hd : (d.map Prod.fst).Nodup) :
    isBlank (stableJson d) = false := by
  rw [stableJson, canonicalJson, toJsonable_ofFields hd, Json.sortKeys_obj]
  cases (sortByKey (sortByKey (d.map fun p => (p.1, toJsonable p.2)))) with
  | nil => rfl
  | cons p rest => rfl

/-- A file that takes one more event. -/
theorem objects_write {s s' : JsonlAuditStore} {e : AuditEvent F} {objects : List (JsonObj F)}
    (hend : EndsLine s.content) (ho : s.objects = .ok objects)
    (hw : write (stableJson e.toDict) s = (.ok (), s')) :
    s'.hashChain = s.hashChain ∧ EndsLine s'.content ∧
      s'.objects = .ok (objects ++ [storedObj e]) := by
  rw [write] at hw
  cases hb : encodeUtf8 (stableJson e.toDict) with
  | none =>
    rw [hb] at hw
    cases hw
  | some bytes =>
    rw [hb] at hw
    cases hw
    refine ⟨rfl, .inr (by simp), ?_⟩
    have hprint : ∀ c ∈ stableJson e.toDict, 32 ≤ c := Json.render_printable _
    rw [JsonlAuditStore.objects, fileLines_concat hend hprint]
    exact readObjects_concat (stableJson_not_blank e.nodup_keys_toDict) (loads_stored e) ho

end JsonlAuditStore

/-! ### The SQLite store -/

namespace SqliteAuditStore

variable [PyBuiltins F]

/-- An event after its payload has gone through the stored text. -/
def readBack (e : AuditEvent F) : AuditEvent F :=
  { e with payload := match (toJsonable (.dict e.payload)).sortKeys with
      | .obj kvs => PyVal.ofJsonMembers kvs
      | _ => [] }

theorem pyVal_payload_readBack (e : AuditEvent F) :
    (.dict (readBack e).payload : PyVal F) =
      PyVal.ofJson (toJsonable (.dict e.payload)).sortKeys := by
  rw [readBack, toJsonable, Json.sortKeys_obj]
  rfl

theorem dictGet_payload_storedObj (e : AuditEvent F) :
    (dictGet (lit "payload") (JsonlAuditStore.storedObj e)).bind Json.pyDict =
      some (readBack e).payload := by
  have hget : dictGet (lit "payload") e.toDict = some (.dict e.payload) := rfl
  obtain ⟨kvs, hk⟩ : ∃ kvs, (toJsonable (.dict e.payload)).sortKeys = .obj kvs :=
    ⟨_, by rw [toJsonable, Json.sortKeys_obj]⟩
  rw [JsonlAuditStore.dictGet_storedObj, hget, Option.map_some, Option.bind_some, readBack, hk]
  rfl

/-- The stored text yields the event, its payload in stored form. -/
theorem eventFromJson_stableJson (e : AuditEvent F) :
    eventFromJson (stableJson e.toDict) = .ok (readBack e) := by
  have hfield : ∀ {α : Type} (key : String) (f : Json F → Option α) (v : PyVal F) (a : α),
      dictGet (lit key) e.toDict = some v → f (toJsonable v).sortKeys = some a →
      field (JsonlAuditStore.storedObj e) key f = .ok a := by
    intro α key f v a hv ha
    rw [field, JsonlAuditStore.dictGet_storedObj, hv, Option.map_some, Option.bind_some, ha]
  have hpayload : field (JsonlAuditStore.storedObj e) "payload" Json.pyDict =
      .ok (readBack e).payload := by
    rw [field, dictGet_payload_storedObj]
  have hprev := JsonlAuditStore.optStr_prev_storedObj e
  have hhash : Json.optStr (dictGet (lit "hash") (JsonlAuditStore.storedObj e)) = some e.hash := by
    rw [JsonlAuditStore.dictGet_hash_storedObj]
    cases e.hash <;> rfl
  rw [eventFromJson, JsonlAuditStore.loads_stored]
  simp only [hfield "event_id" (fun j => some j.pyStr) (.str e.eventId) e.eventId rfl rfl,
    hfield "correlation_id" (fun j => some j.pyStr) (.str e.correlationId) e.correlationId rfl rfl,
    hfield "run_id" (fun j => some j.pyStr) (.str e.runId) e.runId rfl rfl,
    hfield "ts_epoch_ms" Json.pyInt (.int e.tsEpochMs) e.tsEpochMs rfl rfl,
    hfield "event_type" (fun j => some j.pyStr) (.str e.eventType) e.eventType rfl rfl, hpayload, hprev, hhash]
  rfl

theorem matchesRow_readBack (e : AuditEvent F) : matchesRow (rowOf e) (readBack e) = true := by
  simp [matchesRow, rowOf, readBack]

theorem canonicalJson_payload_readBack (e : AuditEvent F) :
    canonicalJson (.dict (readBack e).payload : PyVal F) = canonicalJson (.dict e.payload) := by
  have hclean := (toJsonable_clean (.dict e.payload : PyVal F)).sortKeys
  rw [canonicalJson_eq_iff, Json.Same, pyVal_payload_readBack, toJsonable_ofJson hclean.distinct,
    hclean.nameFloats, Json.sortKeys_sortKeys, Json.sortKeys_sortKeys]

/-- Reading back changes no text. -/
theorem sameFields_readBack (e : AuditEvent F) : List.Forall₂
    (fun p q => p.1 = q.1 ∧ canonicalJson p.2 = canonicalJson q.2)
      (readBack e).baseDict e.baseDict := by
  have hpayload := canonicalJson_payload_readBack e
  simp only [AuditEvent.baseDict, List.forall₂_cons, List.forall₂_nil_left_iff, and_true,
    true_and, hpayload]
  exact ⟨rfl, rfl, rfl, rfl, rfl, rfl⟩

theorem stableJson_readBack (e : AuditEvent F) :
    stableJson (readBack e).toDict = stableJson e.toDict := by
  refine canonicalJson_ofFields_congr (readBack e).nodup_keys_toDict ?_
  exact List.rel_append (sameFields_readBack e) (.cons ⟨rfl, rfl⟩ .nil)

/-- Reading back changes no hash. -/
theorem computedHash_readBack {H : Sha256} (e : AuditEvent F) :
    (readBack e).computedHash H = e.computedHash H :=
  digestValue_congr
    (canonicalJson_ofFields_congr (readBack e).nodup_keys_baseDict (sameFields_readBack e))

theorem sealed_readBack_iff {H : Sha256} {hashChain : Bool} {e : AuditEvent F} :
    (readBack e).Sealed H hashChain ↔ e.Sealed H hashChain := by
  rw [AuditEvent.Sealed, AuditEvent.Sealed, computedHash_readBack]
  rfl

theorem check_eq_ok_iff {H : Sha256} {hashChain : Bool} {i : Nat} {last last' : Str → Option Str}
    {e : AuditEvent F} (hlast : TableFor hashChain last) :
    check H hashChain i last e = .ok last' ↔ e.prevHash = last e.correlationId ∧
      e.Sealed H hashChain ∧ last' = Function.update last e.correlationId e.hash := by
  rw [← InMemoryAuditStore.check_eq_ok_iff (i := i) hlast]
  unfold check InMemoryAuditStore.check
  by_cases hprev : e.prevHash = last e.correlationId
  · rw [if_neg (not_not.mpr hprev), if_neg (not_not.mpr hprev)]
    cases hashChain with
    | false => rfl
    | true =>
      rw [if_pos rfl, if_pos rfl]
      cases hcomp : e.computedHash H with
      | error exc =>
        split <;> simp
      | ok computed =>
        have hne := AuditEvent.computedHash_ne_nil hcomp
        split
        · rename_i c h hh
          by_cases heq : computed = c :: h
          · simp [hh, heq]
          · simp [hh, heq, eq_comm]
        · rename_i hnone
          have : e.hash ≠ some computed := by
            intro hh
            obtain ⟨c, h, rfl⟩ := List.exists_cons_of_ne_nil hne
            exact hnone c h hh
          simp [this]
  · rw [if_pos hprev, if_pos hprev]

/-- A row and the event read from it. -/
def RowEvent (row : AuditRow) (e : AuditEvent F) : Prop :=
  eventFromJson row.eventJson = .ok e ∧ matchesRow row e = true

theorem events_eq_ok_iff : ∀ {rows : List AuditRow} {n : Nat} {es : List (AuditEvent F)},
    events n rows = .ok es ↔ List.Forall₂ RowEvent rows es
  | [], n, es => by
    rw [List.forall₂_nil_left_iff, events]
    exact ⟨fun h => by cases h; rfl, fun h => by rw [h]⟩
  | row :: rows, n, es => by
    rw [events, except_bind_eq_ok]
    constructor
    · rintro ⟨e, he, h⟩
      split_ifs at h with hm
      obtain ⟨rest, hrest, hret⟩ := except_bind_eq_ok.mp h
      cases hret
      exact .cons ⟨he, by simpa using hm⟩ (events_eq_ok_iff.mp hrest)
    · intro h
      cases h with
      | @cons _ e _ rest hrow hrest =>
        refine ⟨e, hrow.1, ?_⟩
        rw [if_neg (by simp [hrow.2])]
        exact except_bind_eq_ok.mpr ⟨rest, events_eq_ok_iff.mpr hrest, rfl⟩

theorem verify_eq_ok_iff {H : Sha256} {s : SqliteAuditStore} {n : Nat} :
    s.verify F H = .ok n ↔ ∃ es : List (AuditEvent F), List.Forall₂ RowEvent s.rows es ∧
      VerifiedLog H s.hashChain es ∧ n = es.length := by
  have hloop : ∀ es : List (AuditEvent F),
      verifyLoop (check H s.hashChain) 1 (fun _ => none) es = .ok () ↔
        Linked AuditEvent.correlationId AuditEvent.prevHash AuditEvent.hash es ∧
          ∀ e ∈ es, e.Sealed H s.hashChain := fun es =>
    verifyLoop_eq_ok_iff (fun _ _ _ _ h => check_eq_ok_iff h)
      (fun _ h => h.hash_eq_none) (tableFor_empty s.hashChain)
  rw [verify, except_bind_eq_ok]
  constructor
  · rintro ⟨es, he, hv⟩
    obtain ⟨⟨⟩, hrun, hn⟩ := except_bind_eq_ok.mp hv
    cases hn
    obtain ⟨hl, hs⟩ := (hloop es).mp hrun
    exact ⟨es, events_eq_ok_iff.mp he, ⟨hl, hs⟩, rfl⟩
  · rintro ⟨es, he, ⟨hl, hs⟩, rfl⟩
    exact ⟨es, events_eq_ok_iff.mpr he, except_bind_eq_ok.mpr ⟨(), (hloop es).mpr ⟨hl, hs⟩, rfl⟩⟩

theorem RowEvent.correlationId_eq {row : AuditRow} {e : AuditEvent F} (h : RowEvent row e) :
    row.correlationId = e.correlationId := by
  have hm := h.2
  simp only [matchesRow, Bool.and_eq_true, beq_iff_eq] at hm
  exact hm.1.1.1.2.symm

omit [PyBuiltins F] in
theorem rel_getLast? {R : AuditRow → AuditEvent F → Prop} {rows : List AuditRow}
    {es : List (AuditEvent F)} (h : List.Forall₂ R rows es) :
    Option.Rel R rows.getLast? es.getLast? := by
  induction h with
  | nil => exact .none
  | @cons row e rows es hre _ ih =>
    rw [List.getLast?_cons, List.getLast?_cons]
    generalize rows.getLast? = last, es.getLast? = last' at ih ⊢
    cases ih with
    | none => exact .some hre
    | some h => exact .some h

/-- The select for the predecessor finds the tail. -/
theorem previousHash_eq_tails {rows : List AuditRow} {es : List (AuditEvent F)}
    (h : List.Forall₂ RowEvent rows es) {correlationId : Str}
    (hc : (encodeUtf8 correlationId).isSome) :
    previousHash F rows correlationId = .ok (chainTail es correlationId) := by
  have hfilter : List.Forall₂ RowEvent (rows.filter fun r => r.correlationId = correlationId)
      (chain AuditEvent.correlationId correlationId es) :=
    List.rel_filter (fun row e hre => by simp [hre.correlationId_eq]) h
  have hlast := rel_getLast? hfilter
  rw [previousHash, bindText, if_pos hc, chainTail, tails_eq_getLast, lastRow]
  generalize (rows.filter fun r => r.correlationId = correlationId).getLast? = row,
    (chain AuditEvent.correlationId correlationId es).getLast? = e at hlast ⊢
  cases hlast with
  | none => rfl
  | some hre =>
    refine except_bind_eq_ok.mpr ⟨(), rfl, ?_⟩
    exact except_bind_eq_ok.mpr ⟨_, hre.1, rfl⟩

theorem previousHash_of_not_encodable {rows : List AuditRow} {correlationId : Str}
    (hc : encodeUtf8 correlationId = none) :
    previousHash F rows correlationId = .error .unicodeEncodeError := by
  rw [previousHash, bindText, if_neg (by simp [hc])]
  rfl

theorem rowEvent_rowOf (e : AuditEvent F) : RowEvent (rowOf e) (readBack e) :=
  ⟨eventFromJson_stableJson e, matchesRow_readBack e⟩

/-- One more row is one more event. -/
theorem forall₂_concat_rowOf {rows : List AuditRow} {es : List (AuditEvent F)}
    (h : List.Forall₂ RowEvent rows es) (e : AuditEvent F) :
    List.Forall₂ RowEvent (rows ++ [rowOf e]) (es ++ [readBack e]) :=
  List.rel_append h (.cons (rowEvent_rowOf e) .nil)

end SqliteAuditStore

end AgentRoi
