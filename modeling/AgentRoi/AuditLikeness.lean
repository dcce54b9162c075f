/-
Audit stores that cannot be told apart by the texts they hold.

Two events are alike when they differ in nothing but the order of the members
of their payloads, which no stored text and no hash depends on.

* `AuditEvent.SameText` — such events; `create_alike` makes them from such
  payloads;
* `AuditStore.Like` — two stores of one kind with alike events;
* `record_like`, `append_like`, `verify_like`, `lastHash_like` — no method
  tells two such stores apart, and each leaves two such stores behind.
-/
import AgentRoi.AuditAppend

namespace AgentRoi

open ChainLog

variable {F : Type}

/-- Two calls end alike: with related results, or with one exception. -/
def Outcomes {α β : Type} (R : α → β → Prop) : Except PyExc α → Except PyExc β → Prop
  | .ok a, .ok b => R a b
  | .error exc, .error exc' => exc = exc'
  | _, _ => False

section

variable [PyBuiltins F]

/-- The two events print alike. -/
structure AuditEvent.SameText (e e' : AuditEvent F) : Prop where
  eventId : e.eventId = e'.eventId
  correlationId : e.correlationId = e'.correlationId
  runId : e.runId = e'.runId
  tsEpochMs : e.tsEpochMs = e'.tsEpochMs
  eventType : e.eventType = e'.eventType
  payload : canonicalJson (.dict e.payload) = canonicalJson (.dict e'.payload)
  prevHash : e.prevHash = e'.prevHash
  hash : e.hash = e'.hash

namespace AuditEvent.SameText

theorem refl (e : AuditEvent F) : e.SameText e := ⟨rfl, rfl, rfl, rfl, rfl, rfl, rfl, rfl⟩

variable {e e' e'' : AuditEvent F}

theorem symm (h : e.SameText e') : e'.SameText e :=
  ⟨h.1.symm, h.2.symm, h.3.symm, h.4.symm, h.5.symm, h.6.symm, h.7.symm, h.8.symm⟩

theorem trans (h : e.SameText e') (h' : e'.SameText e'') : e.SameText e'' :=
  ⟨h.1.trans h'.1, h.2.trans h'.2, h.3.trans h'.3, h.4.trans h'.4, h.5.trans h'.5,
    h.6.trans h'.6, h.7.trans h'.7, h.8.trans h'.8⟩

theorem baseDict (h : e.SameText e') : List.Forall₂
    (fun p q => p.1 = q.1 ∧ canonicalJson p.2 = canonicalJson q.2) e.baseDict e'.baseDict := by
  simp only [AuditEvent.baseDict, List.forall₂_cons, List.forall₂_nil_left_iff, and_true, true_and,
    h.eventId, h.correlationId, h.runId, h.tsEpochMs, h.eventType, h.prevHash]
  exact h.payload

/-- The stored texts are equal. -/
theorem stableJson (h : e.SameText e') :
    AgentRoi.stableJson e.toDict = AgentRoi.stableJson e'.toDict := by
  refine canonicalJson_ofFields_congr e.nodup_keys_toDict ?_
  refine List.rel_append h.baseDict (.cons ⟨rfl, ?_⟩ .nil)
  rw [h.hash]

/-- The hashes of the fields are equal. -/
theorem computedHash (h : e.SameText e') (H : Sha256) : e.computedHash H = e'.computedHash H :=
  digestValue_congr (canonicalJson_ofFields_congr e.nodup_keys_baseDict h.baseDict)

theorem rowOf (h : e.SameText e') : SqliteAuditStore.rowOf e = SqliteAuditStore.rowOf e' := by
  simp only [SqliteAuditStore.rowOf, h.eventId, h.correlationId, h.runId, h.eventType, h.hash,
    h.stableJson]

end AuditEvent.SameText

/-- What a payload is stored as prints as the payload does. -/
theorem canonicalJson_safePayload (payload : List (PyKey F × PyVal F)) :
    canonicalJson (.dict (safePayload (.dict payload)) : PyVal F) =
      canonicalJson (.dict payload) := by
  obtain ⟨kvs, hk⟩ : ∃ kvs, toJsonable (.dict payload : PyVal F) = .obj kvs := ⟨_, rfl⟩
  have hclean := toJsonable_clean (.dict payload : PyVal F)
  have hsafe : (.dict (safePayload (.dict payload)) : PyVal F) =
      PyVal.ofJson (toJsonable (.dict payload)) := by
    rw [safePayload, hk]
    rfl
  rw [hsafe, canonicalJson_ofJson hclean.distinct, hclean.nameFloats]
  rfl

/-! ### Calls of `record` that differ in the order of a payload -/

/-- Two calls of `record` whose payloads print alike. -/
structure RecordCall.Alike (call call' : RecordCall F) : Prop where
  eventId : call.eventId = call'.eventId
  tsEpochMs : call.tsEpochMs = call'.tsEpochMs
  correlationId : call.correlationId = call'.correlationId
  runId : call.runId = call'.runId
  eventType : call.eventType = call'.eventType
  payload : canonicalJson (.dict call.payload) = canonicalJson (.dict call'.payload)

/-- The event of a call, before it is hashed. -/
def RecordCall.unhashed (call : RecordCall F) (previous : Option Str) : AuditEvent F where
  eventId := call.eventId
  correlationId := call.correlationId
  runId := call.runId
  tsEpochMs := call.tsEpochMs
  eventType := call.eventType
  payload := safePayload (.dict call.payload)
  prevHash := previous
  hash := none

theorem RecordCall.create_true (call : RecordCall F) (H : Sha256) (previous : Option Str) :
    call.create H previous true = (call.unhashed previous).computedHash H >>= fun d =>
      .ok { call.unhashed previous with hash := some d } := by
  rw [RecordCall.create, AuditEvent.create, if_pos rfl]
  cases hd : (call.unhashed previous).computedHash H with
  | error exc =>
    rw [RecordCall.unhashed] at hd
    rw [hd]
    rfl
  | ok d =>
    rw [RecordCall.unhashed] at hd
    rw [hd]
    rfl

theorem RecordCall.create_false (call : RecordCall F) (H : Sha256) (previous : Option Str) :
    call.create H previous false = .ok (call.unhashed previous) := rfl

/-- They make events that print alike, or fail alike. -/
theorem RecordCall.create_alike {call call' : RecordCall F} (h : call.Alike call') (H : Sha256)
    (previous : Option Str) (hashChain : Bool) :
    Outcomes AuditEvent.SameText (call.create H previous hashChain)
      (call'.create H previous hashChain) := by
  have hbase : (call.unhashed previous).SameText (call'.unhashed previous) := by
    refine ⟨h.eventId, h.correlationId, h.runId, h.tsEpochMs, h.eventType, ?_, rfl, rfl⟩
    show canonicalJson (.dict (safePayload (.dict call.payload)) : PyVal F) =
      canonicalJson (.dict (safePayload (.dict call'.payload)))
    rw [canonicalJson_safePayload, canonicalJson_safePayload, h.payload]
  cases hashChain with
  | false => exact hbase
  | true =>
    rw [call.create_true, call'.create_true, hbase.computedHash H]
    cases (call'.unhashed previous).computedHash H with
    | error exc => exact rfl
    | ok d => exact { hbase with hash := rfl }

/-! ### Steps that end alike -/

/-- Two methods end alike: their results and the states they leave. -/
structure StepsAlike {σ τ α β : Type} (S : σ → τ → Prop) (R : α → β → Prop)
    (p : Except PyExc α × σ) (q : Except PyExc β × τ) : Prop where
  results : Outcomes R p.1 q.1
  states : S p.2 q.2

section

variable {σ τ σ' τ' α β α' β' : Type} {S : σ → τ → Prop} {R : α → β → Prop} {R' : α' → β' → Prop}

theorem stepsAlike_ofExcept_bind {r : Except PyExc α} {r' : Except PyExc β} {f : α → PyM σ α'}
    {g : β → PyM τ β'} {s : σ} {t : τ} (hr : Outcomes R r r') (hst : S s t)
    (hfg : ∀ a b, R a b → StepsAlike S R' (f a s) (g b t)) :
    StepsAlike S R' ((PyM.ofExcept r >>= f) s) ((PyM.ofExcept r' >>= g) t) := by
  cases r with
  | ok a =>
    cases r' with
    | ok b => exact hfg a b hr
    | error exc' => exact hr.elim
  | error exc =>
    cases r' with
    | ok b => exact hr.elim
    | error exc' => exact ⟨hr, hst⟩

theorem stepsAlike_bind {x : PyM σ α} {y : PyM τ β} {f : α → PyM σ α'} {g : β → PyM τ β'}
    {s : σ} {t : τ} (hxy : StepsAlike S R (x s) (y t))
    (hfg : ∀ a b s' t', R a b → S s' t' → StepsAlike S R' (f a s') (g b t')) :
    StepsAlike S R' ((x >>= f) s) ((y >>= g) t) := by
  rw [PyM.bind_apply, PyM.bind_apply]
  generalize x s = p at hxy ⊢
  generalize y t = q at hxy ⊢
  obtain ⟨hresults, hstates⟩ := hxy
  rcases p with ⟨exc | a, s'⟩
  · rcases q with ⟨exc' | b, t'⟩
    · exact ⟨hresults, hstates⟩
    · exact hresults.elim
  · rcases q with ⟨exc' | b, t'⟩
    · exact hresults.elim
    · exact hfg a b s' t' hresults hstates

theorem stepsAlike_transaction {x : PyM σ α} {y : PyM τ β} {s : σ} {t : τ} (hst : S s t)
    (hxy : StepsAlike S R (x s) (y t)) :
    StepsAlike S R (PyM.transaction x s) (PyM.transaction y t) := by
  rw [PyM.transaction, PyM.transaction]
  generalize x s = p at hxy ⊢
  generalize y t = q at hxy ⊢
  obtain ⟨hresults, hstates⟩ := hxy
  rcases p with ⟨exc | a, s'⟩
  · rcases q with ⟨exc' | b, t'⟩
    · exact ⟨hresults, hst⟩
    · exact hresults.elim
  · rcases q with ⟨exc' | b, t'⟩
    · exact hresults.elim
    · exact ⟨hresults, hstates⟩

theorem stepsAlike_embed {S' : σ' → τ' → Prop} {f : σ → σ'} {g : τ → τ'} {x : PyM σ α}
    {y : PyM τ β} {s : σ} {t : τ} (hxy : StepsAlike S R (x s) (y t))
    (hS : ∀ s' t', S s' t' → S' (f s') (g t')) :
    StepsAlike S' R (PyM.embed f x s) (PyM.embed g y t) :=
  ⟨hxy.results, hS _ _ hxy.states⟩

/-- A method ends as itself. -/
theorem stepsAlike_self (x : PyM σ α) (s : σ) : StepsAlike Eq Eq (x s) (x s) := by
  refine ⟨?_, rfl⟩
  rcases x s with ⟨exc | a, s'⟩ <;> exact rfl

end

/-! ### Stores that are alike -/

theorem cacheOf_congr {es es' : List (AuditEvent F)}
    (h : List.Forall₂ AuditEvent.SameText es es') : cacheOf es = cacheOf es' := by
  suffices ∀ cache, es.foldl cacheHash cache = es'.foldl cacheHash cache from this _
  induction h with
  | nil => intro cache; rfl
  | cons he _ ih =>
    intro cache
    rw [List.foldl_cons, List.foldl_cons, ih, cacheHash, cacheHash, he.hash, he.correlationId]

namespace AuditStore

/-- Two lists of events, alike one by one. -/
def InMemoryAlike (s t : InMemoryAuditStore F) : Prop :=
  s.hashChain = t.hashChain ∧ List.Forall₂ AuditEvent.SameText s.events t.events

/-- One kind of store, with alike events. -/
def Like : AuditStore F → AuditStore F → Prop
  | .inMemory s, .inMemory t => InMemoryAlike s t
  | .jsonl s, .jsonl t => s = t
  | .sqlite s, .sqlite t => s = t
  | _, _ => False

theorem like_refl (s : AuditStore F) : Like s s := by
  cases s with
  | inMemory s => exact ⟨rfl, List.forall₂_same.mpr fun e _ => .refl e⟩
  | jsonl s => exact rfl
  | sqlite s => exact rfl

/-- What the caches of alike in-memory stores hold. -/
theorem lastHashCache_eq_of_like {s t : InMemoryAuditStore F}
    (h : List.Forall₂ AuditEvent.SameText s.events t.events) :
    s.lastHashCache = t.lastHashCache := by
  rw [s.cache_sync, t.cache_sync, cacheOf_congr h]

/-- `record` tells alike stores apart no more than alike payloads. -/
theorem record_like {H : Sha256} {call call' : RecordCall F} {s t : AuditStore F}
    (hcall : call.Alike call') (h : Like s t) :
    StepsAlike Like AuditEvent.SameText (record H call s) (record H call' t) := by
  cases s with
  | inMemory s =>
    cases t with
    | inMemory t =>
      refine stepsAlike_embed (S := InMemoryAlike) ?_ fun _ _ hst => hst
      have hcreate := call.create_alike hcall H (s.lastHashCache call.correlationId) s.hashChain
      rw [InMemoryAuditStore.record, InMemoryAuditStore.record, PyM.get_bind, PyM.get_bind,
        ← lastHashCache_eq_of_like h.2, ← h.1, ← hcall.correlationId]
      refine stepsAlike_ofExcept_bind hcreate h fun e e' he => ?_
      exact ⟨he, h.1, List.rel_append h.2 (.cons he .nil)⟩
    | jsonl t => exact h.elim
    | sqlite t => exact h.elim
  | jsonl s =>
    cases t with
    | jsonl t =>
      -- alike files are the same file
      obtain rfl : s = t := h
      refine stepsAlike_embed (S := Eq) ?_ fun _ _ hst => hst
      rw [JsonlAuditStore.record, JsonlAuditStore.record, PyM.get_bind, PyM.get_bind]
      refine stepsAlike_ofExcept_bind (R := Eq) ?_ rfl fun objects _ ho => ?_
      · cases (s.objects : Except PyExc (List (JsonObj F))) <;> exact rfl
      subst ho
      have hcreate := call.create_alike hcall H
        (JsonlAuditStore.lastHashFromObjects objects call.correlationId) s.hashChain
      rw [← hcall.correlationId]
      refine stepsAlike_ofExcept_bind hcreate rfl fun e e' he => ?_
      rw [he.stableJson]
      exact stepsAlike_bind (stepsAlike_self _ s) fun _ _ s' t' _ hst => ⟨he, hst⟩
    | inMemory t => exact h.elim
    | sqlite t => exact h.elim
  | sqlite s =>
    cases t with
    | sqlite t =>
      obtain rfl : s = t := h
      refine stepsAlike_embed (S := Eq) ?_ fun _ _ hst => hst
      -- the hash before is read within the transaction that writes
      refine stepsAlike_transaction rfl ?_
      rw [PyM.get_bind, PyM.get_bind]
      refine stepsAlike_ofExcept_bind (R := Eq) ?_ rfl fun previous _ hp => ?_
      · rw [hcall.correlationId]
        cases SqliteAuditStore.previousHash F s.rows call'.correlationId <;> exact rfl
      subst hp
      refine stepsAlike_ofExcept_bind (call.create_alike hcall H previous s.hashChain) rfl
        fun e e' he => ?_
      rw [he.rowOf]
      exact stepsAlike_bind (stepsAlike_self _ s) fun _ _ s' t' _ hst => ⟨he, hst⟩
    | inMemory t => exact h.elim
    | jsonl t => exact h.elim

/-- `append` tells alike stores and alike events apart no more. -/
theorem append_like {e e' : AuditEvent F} {s t : AuditStore F} (he : e.SameText e')
    (h : Like s t) : StepsAlike Like Eq (append e s) (append e' t) := by
  cases s with
  | inMemory s =>
    cases t with
    | inMemory t =>
      refine stepsAlike_embed (S := InMemoryAlike) ?_ fun _ _ hst => hst
      rw [InMemoryAuditStore.append, InMemoryAuditStore.append, PyM.get_bind, PyM.get_bind,
        ← lastHashCache_eq_of_like h.2, ← he.correlationId, ← he.prevHash]
      split_ifs with hp
      · exact ⟨rfl, h⟩
      · exact ⟨rfl, h.1, List.rel_append h.2 (.cons he .nil)⟩
    | jsonl t => exact h.elim
    | sqlite t => exact h.elim
  | jsonl s =>
    cases t with
    | jsonl t =>
      obtain rfl : s = t := h
      refine stepsAlike_embed (S := Eq) ?_ fun _ _ hst => hst
      rw [JsonlAuditStore.append, JsonlAuditStore.append, he.stableJson, he.correlationId,
        he.prevHash]
      exact stepsAlike_self _ s
    | inMemory t => exact h.elim
    | sqlite t => exact h.elim
  | sqlite s =>
    cases t with
    | sqlite t =>
      obtain rfl : s = t := h
      refine stepsAlike_embed (S := Eq) ?_ fun _ _ hst => hst
      rw [SqliteAuditStore.append, SqliteAuditStore.append, he.rowOf, he.correlationId,
        he.prevHash]
      exact stepsAlike_self _ s
    | inMemory t => exact h.elim
    | jsonl t => exact h.elim

theorem lastHash_like {s t : AuditStore F} (h : Like s t) (correlationId : Str) :
    s.lastHash correlationId = t.lastHash correlationId := by
  cases s <;> cases t <;> first | exact h.elim | skip
  · exact congrArg Except.ok (congrFun (lastHashCache_eq_of_like h.2) correlationId)
  · rw [show _ = _ from h]
  · rw [show _ = _ from h]

theorem verifyLoop_like {H : Sha256} {hashChain : Bool}
    {es es' : List (AuditEvent F)} (h : List.Forall₂ AuditEvent.SameText es es') :
    ∀ index last, verifyLoop (InMemoryAuditStore.check H hashChain) index last es =
      verifyLoop (InMemoryAuditStore.check H hashChain) index last es' := by
  induction h with
  | nil => intro index last; rfl
  | @cons e e' es es' he _ ih =>
    intro index last
    have hcheck : InMemoryAuditStore.check H hashChain index last e =
        InMemoryAuditStore.check H hashChain index last e' := by
      rw [InMemoryAuditStore.check, InMemoryAuditStore.check, he.prevHash, he.correlationId,
        he.hash, he.computedHash H]
    rw [verifyLoop, verifyLoop, hcheck]
    cases InMemoryAuditStore.check H hashChain index last e' with
    | error exc => rfl
    | ok last' => exact ih (index + 1) last'

theorem verify_like {H : Sha256} {s t : AuditStore F} (h : Like s t) :
    s.verify H = t.verify H := by
  cases s with
  | inMemory s =>
    cases t with
    | inMemory t =>
      show InMemoryAuditStore.verify H s = InMemoryAuditStore.verify H t
      rw [InMemoryAuditStore.verify, InMemoryAuditStore.verify, h.1,
        verifyLoop_like h.2, h.2.length_eq]
    | jsonl t => exact h.elim
    | sqlite t => exact h.elim
  | jsonl s => cases t <;> first | exact h.elim | rw [show _ = _ from h]
  | sqlite s => cases t <;> first | exact h.elim | rw [show _ = _ from h]

end AuditStore

end

end AgentRoi
