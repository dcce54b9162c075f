/-
Policies through outages: `CachedControlPlaneClient` over whole runs.

* `CachedAccess` — the arguments of a client and of its cache;
* `OutageStep`, `runCached` — requests of others, outages and retrievals, in
  any order, with what each retrieval returned;
* `Memory`, `runRecalled` — the same with a memory of what was last read, in
  the process of the service;
* `Mirrors` — the files of the cache hold what the memory does;
* `retrieval_recalled` — one retrieval;
* `outage_run_recalled` — a run with the client is a run with the memory.
-/
import AgentRoi.CacheFallback
import AgentRoi.PolicyDelivery

namespace AgentRoi

variable {F V T W X Y O : Type}

/-! ### The clients -/

structure CachedAccess (W : Type) where
  baseUrl : Str
  bearerToken : Str
  signer : PolicySigner W
  utcNow : PyM W Str
  clock : PyM W Int
  maxStaleSeconds : ℕ
  allowStaleOnError : Bool

/-- A client with a cache, on a disk that works. -/
def PolicyServer.cachedClient [LE Y] [PyFloatOps F] (server : PolicyServer F V T W X Y O)
    (access : CachedAccess W) : CachedControlPlaneClient (PolicyWire F V T W X Y O) where
  client := server.client access.baseUrl access.bearerToken access.signer access.utcNow
  cache := {
    hash := server.api.service.hash
    signer := access.signer.wired
    maxStaleSeconds := access.maxStaleSeconds
    clock := outsideWire access.clock
    utcNow := outsideWire access.utcNow
    replace := fun _ _ => return () }
  allowStaleOnError := access.allowStaleOnError

/-- What the client has of the world outside: a clock that shows `time`, and a
signer that only looks. -/
structure CachedAccess.Looks (access : CachedAccess W) (time : W → ℤ) : Prop where
  clock : ∀ o, access.clock o = (.ok (time o), o)
  utcNow : ∀ o, ∃ text, access.utcNow o = (.ok text, o)
  verify : ∀ payload signature o, (access.signer.verify payload signature o).2 = o

/-! ### Runs -/

/-- What happens around a client. -/
inductive OutageStep (F V T W X Y O : Type) where
  | request (moment : Moment) (principal : Principal) (request : ApiRequest F V T W X Y O)
  | outside (o : W)
  | reachable (b : Bool)
  | retrieve (request : PolicyRead)

section

variable [LE Y] [PyValues F] [PyDecimalFloat F] (server : PolicyServer F V T W X Y O)

/-- The wire after what the client has no part in. -/
def OutageStep.move (v : PolicyWire F V T W X Y O) :
    OutageStep F V T W X Y O → PolicyWire F V T W X Y O
  | .request moment principal r =>
    { v with api := (server.api.handle moment principal r v.api).2 }
  | .outside o => v.setOutside o
  | .reachable b => { v with reachable := b }
  | .retrieve _ => v

/-- What the retrievals of a run return, none where one raises. -/
def runCached (access : CachedAccess W) : List (OutageStep F V T W X Y O) →
    ClientWorld (PolicyWire F V T W X Y O) →
    List (Option (PolicyBundle F)) × ClientWorld (PolicyWire F V T W X Y O)
  | [], w => ([], w)
  | .retrieve request :: steps, w =>
    let r := (server.cachedClient access).get request.key request.agent w
    let rest := runCached access steps r.2
    (r.1.toOption :: rest.1, rest.2)
  | step :: steps, w =>
    runCached access steps { w with outside := OutageStep.move server w.outside step }

/-- A bundle, and when it was read. -/
structure Remembered (F : Type) where
  bundle : PolicyBundle F
  savedAt : ℤ

/-- What was last read of a policy for an agent. -/
abbrev Memory (F : Type) := PolicyKey × Str → Option (Remembered F)

/-- What was remembered may be used: it is not too old, or may be stale. -/
def CachedAccess.mayUse (access : CachedAccess W) (now savedAt : ℤ) : Bool :=
  match ageSeconds now savedAt with
  | .ok age => access.allowStaleOnError || decide (age ≤ access.maxStaleSeconds)
  | .error _ => false

theorem CachedAccess.mayUse_iff (access : CachedAccess W) {now savedAt : ℤ} {age : ℚ}
    (h : ageSeconds now savedAt = .ok age) : access.mayUse now savedAt = true ↔
      ¬ (access.maxStaleSeconds < age ∧ access.allowStaleOnError = false) := by
  unfold mayUse
  generalize ageSeconds now savedAt = r at h ⊢
  subst h
  show (access.allowStaleOnError || decide (age ≤ access.maxStaleSeconds)) = true ↔ _
  rw [Bool.or_eq_true, decide_eq_true_eq, not_and_or, not_lt, Bool.not_eq_false]
  exact or_comm

theorem CachedAccess.mayUse_of_error (access : CachedAccess W) {now savedAt : ℤ} {e : PyExc}
    (h : ageSeconds now savedAt = .error e) : access.mayUse now savedAt = false := by
  unfold mayUse
  rw [h]

/-- A policy and an agent, the empty text where there is none. -/
def PolicyRead.place (request : PolicyRead) : PolicyKey × Str :=
  (request.key, request.agent.getD [])

/-- A read in the process of the service, and what is remembered where it
yields nothing the signer has the key of. -/
def readOrRecall (access : CachedAccess W) (time : W → ℤ) (request : PolicyRead)
    (v : PolicyWire F V T W X Y O) (memory : Memory F) :
    Option (PolicyBundle F) × PolicyWire F V T W X Y O × Memory F :=
  let r := server.asked (ControlPlaneClient.headers access.bearerToken) request v
  let now := time r.2.api.service.outside
  match r.1.toOption.filter fun bundle => bundle.signerKeyId = access.signer.keyId with
  | some bundle => (some bundle, r.2, Function.update memory request.place (some ⟨bundle, now⟩))
  | none => (((memory request.place).filter fun m => access.mayUse now m.savedAt).map
      Remembered.bundle, r.2, memory)

/-- A run without a client. -/
def runRecalled (access : CachedAccess W) (time : W → ℤ) : List (OutageStep F V T W X Y O) →
    PolicyWire F V T W X Y O → Memory F →
    List (Option (PolicyBundle F)) × PolicyWire F V T W X Y O
  | [], v, _ => ([], v)
  | .retrieve request :: steps, v, memory =>
    let r := readOrRecall server access time request v memory
    let rest := runRecalled access time steps r.2.1 r.2.2
    (r.1 :: rest.1, rest.2)
  | step :: steps, v, memory => runRecalled access time steps (OutageStep.move server v step) memory

end

/-! ### Files of the cache -/

namespace PolicyBundle

/-- What a file of the cache holds. -/
def cachedJson (savedAt : ℤ) (bundle : PolicyBundle F) : Json F :=
  .obj [(lit "cached_at_epoch_ms", .int savedAt), (lit "bundle", .obj bundle.document)]

def cachedText [PyFloat F] (savedAt : ℤ) (bundle : PolicyBundle F) : Str :=
  (bundle.cachedJson savedAt).sortKeys.render

section

variable [PyFloat F] {bundle : PolicyBundle F} {savedAt : ℤ}

theorem IsStored.clean_cachedJson (h : bundle.IsStored) : (bundle.cachedJson savedAt).Clean := by
  have hdocument : (Json.obj (bundle.document ++ [])).Clean := h.clean_document (by
    rw [List.append_nil]
    exact bundle.nodup_keys_document) fun p hp => absurd hp List.not_mem_nil
  rw [List.append_nil] at hdocument
  refine .obj (by decide : [lit "cached_at_epoch_ms", lit "bundle"].Nodup) fun p hp => ?_
  rcases List.mem_pair.mp hp with rfl | rfl
  · exact .int savedAt
  · exact hdocument

theorem IsStored.scalars_cachedText (h : bundle.IsStored) :
    Scalars (bundle.cachedText savedAt) := by
  have hdocument : Scalars (Json.obj (bundle.document ++ [])).render :=
    h.scalars_document fun p hp => absurd hp List.not_mem_nil
  rw [List.append_nil] at hdocument
  rw [cachedText, Json.scalars_render_sortKeys, cachedJson, Json.scalars_render_obj]
  intro p hp
  rcases List.mem_pair.mp hp with rfl | rfl
  · exact ⟨scalars_of_lt (by decide : ∀ c ∈ lit "cached_at_epoch_ms", c < 0xD800),
      scalars_intText savedAt⟩
  · exact ⟨scalars_of_lt (by decide : ∀ c ∈ lit "bundle", c < 0xD800), hdocument⟩

theorem IsStored.loads_cachedText (h : bundle.IsStored) :
    loadsText (bundle.cachedText savedAt) = .ok (bundle.cachedJson savedAt).sortKeys := by
  rw [loadsText, cachedText, Json.loads_render h.clean_cachedJson.sortKeys]
  rfl

/-- `save` writes this text. -/
theorem IsStored.cachedText_eq (h : bundle.IsStored) {fields : PyDict F}
    (hfields : PyVal.ofFields fields = PyVal.ofJson (.obj bundle.document)) :
    canonicalJson (.ofFields [(lit "cached_at_epoch_ms", .int savedAt),
      (lit "bundle", .ofFields fields)]) = bundle.cachedText savedAt := by
  have hjson : PyVal.ofFields [(lit "cached_at_epoch_ms", .int savedAt),
      (lit "bundle", .ofFields fields)] = PyVal.ofJson (bundle.cachedJson savedAt) := by
    rw [hfields]
    rfl
  have hclean : (bundle.cachedJson savedAt).Clean := h.clean_cachedJson
  rw [hjson, canonicalJson_ofJson hclean.distinct, hclean.nameFloats]
  rfl

omit [PyFloat F] in
/-- `load` reads these items. -/
theorem item_cachedJson {p : Str × Json F} (hp : p ∈ [(lit "cached_at_epoch_ms", .int savedAt),
    (lit "bundle", .obj bundle.document)]) :
    (bundle.cachedJson savedAt).sortKeys.item p.1 = .ok p.2.sortKeys := by
  have hkeys : ([((lit "cached_at_epoch_ms", .int savedAt) : Str × Json F),
      (lit "bundle", .obj bundle.document)].map Prod.fst).Nodup :=
    (by decide : [lit "cached_at_epoch_ms", lit "bundle"].Nodup)
  rw [cachedJson, Json.sortKeys_obj, Json.item, dictGet_map_snd, dictGet_sortByKey hkeys,
    (dictGet_eq_some_iff hkeys).mpr hp]
  rfl

end

end PolicyBundle

/-! ### The cache -/

/-- What `load` finds in a file that was saved. -/
theorem PolicyBundleCache.document_of_text [PyValues F] {cache : PolicyBundleCache W}
    {key : PolicyKey} {agentId file text : Str} {allowStale : Bool} {w : ClientWorld W}
    {data document : Json F} {now savedAt : ℤ} {age : Except PyExc ℚ}
    (hfile : cache.path F key agentId = .ok file)
    (htext : w.files file = some (.ok text)) (hloads : loadsText text = .ok data)
    (hclock : cache.clock w.outside = (.ok now, w.outside))
    (hsaved : data.item (lit "cached_at_epoch_ms") = .ok (.int savedAt))
    (hitem : data.item (lit "bundle") = .ok document) (hage : ageSeconds now savedAt = age) :
    cache.document key agentId allowStale w = (do
      let age ← age
      if cache.maxStaleSeconds < age ∧ allowStale = false then
        .error (controlPlaneError (lit "Cached policy bundle is stale"))
      else return document, w) := by
  have hread : readFile file w = (.ok text, w) := by
    refine (PyM.get_bind _ _).trans ?_
    show ((w.files file).elim (.error (.keyError [lit "No cached policy bundle"])) id, w) = _
    rw [htext]
    rfl
  have hnow : beyond cache.clock w = (.ok now, w) := beyond_eq.mpr ⟨_, hclock, rfl⟩
  have hcheck : cache.checkAge data now allowStale = (do
      let age ← age
      if cache.maxStaleSeconds < age ∧ allowStale = false then
        .error (controlPlaneError (lit "Cached policy bundle is stale"))
      else return ()) := by
    rw [checkAge, hsaved, ← hage]
    rfl
  unfold PolicyBundleCache.document
  rw [hfile]
  refine (PyM.bind_of_ok hread).trans ?_
  rw [hloads]
  refine (PyM.bind_of_ok hnow).trans ?_
  rw [hcheck, hitem]
  cases age with
  | error e => rfl
  | ok age =>
    show (PyM.ofExcept (if _ then _ else _) >>= fun _ => _) w = (if _ then _ else _, w)
    split <;> rfl

/-- A read that has a URL has a file. -/
theorem PolicyBundleCache.exists_path [PyValues F] (cache : PolicyBundleCache W)
    {request : PolicyRead} (h : request.Routable) :
    ∃ file, cache.path F request.place.1 request.place.2 = .ok file := by
  have hagent : Scalars request.place.2 := by
    cases hagent : request.agent with
    | none =>
      rw [PolicyRead.place, hagent]
      exact scalars_of_lt fun c hc => absurd hc List.not_mem_nil
    | some agentId =>
      rw [PolicyRead.place, hagent]
      exact h.agent agentId hagent
  -- the name of the file is the digest of the place that is read
  let place : Json F := .obj [(lit "organization_id", .str request.key.organizationId),
    (lit "name", .str request.key.name), (lit "environment", .str request.key.environment),
    (lit "agent_id", .str request.place.2)]
  have hclean : place.Clean := by
    refine .obj (by decide : [lit "organization_id", lit "name", lit "environment",
      lit "agent_id"].Nodup) fun p hp => ?_
    simp only [List.mem_cons, List.not_mem_nil, or_false] at hp
    rcases hp with rfl | rfl | rfl | rfl <;> exact .str _
  have hscalars : Scalars (canonicalJson (PyVal.ofJson place)) := by
    rw [canonicalJson_ofJson hclean.distinct, hclean.nameFloats, Json.scalars_render_sortKeys,
      Json.scalars_render_obj]
    intro p hp
    simp only [List.mem_cons, List.not_mem_nil, or_false] at hp
    have hkeys : ∀ key ∈ [lit "organization_id", lit "name", lit "environment", lit "agent_id"],
        Scalars key := fun key hkey => scalars_of_lt ((by decide : ∀ key ∈ [lit "organization_id",
      lit "name", lit "environment", lit "agent_id"], ∀ c ∈ key, c < 0xD800) key hkey)
    simp only [List.forall_mem_cons] at hkeys
    obtain ⟨horganization, hname, henvironment, hagentId, -⟩ := hkeys
    rcases hp with rfl | rfl | rfl | rfl
    · exact ⟨horganization, Json.scalars_quote.mpr h.organizationId.scalars⟩
    · exact ⟨hname, Json.scalars_quote.mpr h.name.scalars⟩
    · exact ⟨henvironment, Json.scalars_quote.mpr h.environment.scalars⟩
    · exact ⟨hagentId, Json.scalars_quote.mpr hagent⟩
  obtain ⟨bytes, hbytes⟩ := Option.isSome_iff_exists.mp (encodeUtf8_isSome_iff.mpr hscalars)
  exact ⟨_, except_bind_eq_ok.mpr ⟨_, digestValue_eq_ok_iff.mpr ⟨bytes, hbytes, rfl⟩, rfl⟩⟩

/-! ### The client with a cache -/

section

variable [PyValues F] {cached : CachedControlPlaneClient W} {key : PolicyKey} {agent : Option Str}
  {w w' : ClientWorld W} {bundle : PolicyBundle F} {o : W}

/-- What is fetched and saved is returned. -/
theorem CachedControlPlaneClient.get_of_saved
    (hget : cached.client.get key agent w.outside = (.ok bundle, o))
    (hsave : cached.cache.save bundle (agent.getD []) { w with outside := o } = (.ok (), w')) :
    cached.get key agent w = (.ok bundle, w') := by
  have hfetched : beyond (cached.client.get key agent) w = (.ok bundle, { w with outside := o }) :=
    beyond_eq.mpr ⟨o, hget, rfl⟩
  rw [get_eq]
  refine PyM.tryExcept_of_ok ?_
  unfold fetch
  rw [PyM.bind_of_ok hfetched, PyM.bind_of_ok hsave]
  rfl

/-- What cannot be fetched is loaded. -/
theorem CachedControlPlaneClient.get_of_failed {e : PyExc} {r : Except PyExc (PolicyBundle F)}
    (he : e.isException = true)
    (hget : cached.client.get (F := F) key agent w.outside = (.error e, o))
    (hload : cached.cache.load key (agent.getD []) cached.allowStaleOnError
      { w with outside := o } = (r, w')) : cached.get key agent w = (r, w') := by
  have hfetched : beyond (cached.client.get (F := F) key agent) w =
      (.error e, { w with outside := o }) := beyond_eq.mpr ⟨o, hget, rfl⟩
  have hfetch : cached.fetch (cached.client.get (F := F) key agent) (agent.getD []) w =
      (.error e, { w with outside := o }) := PyM.bind_of_error hfetched
  rw [get_eq, PyM.tryExcept_of_error hfetch, fallBack, if_pos he]
  exact hload

end

namespace PolicyServer

variable [LE Y] [PyValues F] {server : PolicyServer F Str Str W X Y O} {access : CachedAccess W}
  {time : W → ℤ} {v : PolicyWire F Str Str W X Y O} {bundle : PolicyBundle F}
  {files : Str → Option (Except PyExc Str)} {agentId file : Str}

theorem verify_looks (htrusts : access.signer.Trusts server.api.service)
    (hlooks : access.Looks time) (hgives : server.api.service.Gives bundle)
    (hkey : bundle.signerKeyId = access.signer.keyId) :
    bundle.verify server.api.service.hash access.signer.wired v = (.ok (), v) := by
  obtain ⟨payload, hverify⟩ := verify_wired hgives htrusts hkey v
  rw [hverify, hlooks.verify]
  rfl

theorem clock_looks (hlooks : access.Looks time) :
    (server.cachedClient access).cache.clock v = (.ok (time v.api.service.outside), v) :=
  outsideWire_of_ok (hlooks.clock _)

/-- A bundle of the service is saved. -/
theorem save_of_gives (hsqlite : server.api.service.store = sqliteStore)
    (htrusts : access.signer.Trusts server.api.service) (hlooks : access.Looks time)
    (hgives : server.api.service.Gives bundle) (hkey : bundle.signerKeyId = access.signer.keyId)
    (hfile : (server.cachedClient access).cache.path F bundle.key agentId = .ok file) :
    (server.cachedClient access).cache.save bundle agentId ⟨files, v⟩ =
      (.ok (), ⟨Function.update files file
        (some (.ok (bundle.cachedText (time v.api.service.outside)))), v⟩) := by
  have hstored := hgives.isStored hsqlite
  obtain ⟨fields, hfields, hsent⟩ := PolicyBundle.toDict_eq hstored.mapping
  have hdocument := hsent []
  rw [List.map_nil, List.append_nil, List.append_nil] at hdocument
  have hverified : beyond (bundle.verify (server.cachedClient access).cache.hash
      (server.cachedClient access).cache.signer) ⟨files, v⟩ = (.ok (), ⟨files, v⟩) :=
    beyond_eq.mpr ⟨v, verify_looks htrusts hlooks hgives hkey, rfl⟩
  have hnow : beyond (server.cachedClient access).cache.clock ⟨files, v⟩ =
      (.ok (time v.api.service.outside), ⟨files, v⟩) :=
    beyond_eq.mpr ⟨v, clock_looks hlooks, rfl⟩
  have hbind : bindText (bundle.cachedText (time v.api.service.outside)) = .ok () :=
    bindText_of_isSome (encodeUtf8_isSome_iff.mpr hstored.scalars_cachedText)
  unfold PolicyBundleCache.save
  rw [PyM.bind_of_ok hverified, hfile]
  refine (PyM.bind_of_ok hnow).trans ?_
  rw [hfields]
  show (server.cachedClient access).cache.writeFile file
    (canonicalJson (.ofFields [(lit "cached_at_epoch_ms", .int (time v.api.service.outside)),
      (lit "bundle", .ofFields fields)])) ⟨files, v⟩ = _
  rw [hstored.cachedText_eq hdocument, PolicyBundleCache.writeFile, hbind]
  rfl

/-- What was saved is loaded, if it is not too old. -/
theorem load_of_saved (hsqlite : server.api.service.store = sqliteStore)
    (htrusts : access.signer.Trusts server.api.service) (hlooks : access.Looks time)
    (hgives : server.api.service.Gives bundle) (hkey : bundle.signerKeyId = access.signer.keyId)
    {key : PolicyKey} {savedAt : ℤ}
    (hfile : (server.cachedClient access).cache.path F key agentId = .ok file)
    (htext : files file = some (.ok (bundle.cachedText savedAt))) :
    ∃ r, (server.cachedClient access).cache.load key agentId access.allowStaleOnError ⟨files, v⟩ =
        (r, ⟨files, v⟩) ∧
      r.toOption =
        if access.mayUse (time v.api.service.outside) savedAt then some bundle else none := by
  have hstored := hgives.isStored hsqlite
  have hitem : (bundle.cachedJson savedAt).sortKeys.item (lit "bundle") =
      .ok (Json.obj bundle.document).sortKeys :=
    PolicyBundle.item_cachedJson (List.mem_cons_of_mem _ List.mem_cons_self)
  have htext : (⟨files, v⟩ : ClientWorld (PolicyWire F Str Str W X Y O)).files file =
      some (.ok (bundle.cachedText savedAt)) := htext
  have hreceive : (server.cachedClient access).cache.receive (Json.obj bundle.document).sortKeys
      ⟨files, v⟩ = (.ok bundle, ⟨files, v⟩) := by
    obtain ⟨text, hutc⟩ := hlooks.utcNow v.api.service.outside
    exact PolicyBundleCache.receive_eq_ok.mpr ⟨v, v, PolicyBundle.fromDict_carried hstored.mapping
      (PolicyBundle.carriedBy_sortKeys hstored.sorted) (outsideWire_of_ok hutc),
      verify_looks htrusts hlooks hgives hkey, rfl⟩
  unfold PolicyBundleCache.load
  generalize hseconds : ageSeconds (time v.api.service.outside) savedAt = seconds
  have hdocument := @PolicyBundleCache.document_of_text F _ _ _ _ _ _ _ access.allowStaleOnError _
    _ _ _ _ _ hfile htext hstored.loads_cachedText (clock_looks hlooks)
    (PolicyBundle.item_cachedJson List.mem_cons_self) hitem hseconds
  cases seconds with
  | error e =>
    refine ⟨_, PyM.bind_of_error hdocument, ?_⟩
    rw [access.mayUse_of_error hseconds]
    rfl
  | ok age =>
    have huse := access.mayUse_iff hseconds
    -- `age_seconds > self.max_stale_seconds and not allow_stale`
    by_cases hold : access.maxStaleSeconds < age ∧ access.allowStaleOnError = false
    · replace hdocument := hdocument.trans (congrArg (·, _) (if_pos hold))
      refine ⟨_, PyM.bind_of_error hdocument, ?_⟩
      rw [if_neg fun h => huse.mp h hold]
      rfl
    · replace hdocument := hdocument.trans (congrArg (·, _) (if_neg hold))
      refine ⟨_, (PyM.bind_of_ok hdocument).trans hreceive, ?_⟩
      rw [if_pos (huse.mpr hold)]
      rfl

theorem load_of_missing {cache : PolicyBundleCache O} {key : PolicyKey} {allowStale : Bool}
    {w : ClientWorld O} (hfile : cache.path F key agentId = .ok file)
    (hmissing : w.files file = none) : cache.load (F := F) key agentId allowStale w =
      (.error (.keyError [lit "No cached policy bundle"]), w) := by
  have hread : PolicyBundleCache.readFile file w =
      (.error (.keyError [lit "No cached policy bundle"]), w) := by
    refine (PyM.get_bind _ _).trans ?_
    show ((w.files file).elim (.error (.keyError [lit "No cached policy bundle"])) id, w) = _
    rw [hmissing]
    rfl
  have hdocument : cache.document (F := F) key agentId allowStale w =
      (.error (.keyError [lit "No cached policy bundle"]), w) := by
    unfold PolicyBundleCache.document
    rw [hfile]
    exact (PyM.bind_of_error hread).trans rfl
  exact PyM.bind_of_error hdocument

/-! ### Files and memory -/

/-- The files of the places hold what the memory does. -/
structure Mirrors (server : PolicyServer F Str Str W X Y O) (access : CachedAccess W)
    (places : Set (PolicyKey × Str)) (files : Str → Option (Except PyExc Str))
    (memory : Memory F) : Prop where
  saved : ∀ p ∈ places, ∀ file, (server.cachedClient access).cache.path F p.1 p.2 = .ok file →
    files file = (memory p).map fun m => .ok (m.bundle.cachedText m.savedAt)
  gives : ∀ p m, memory p = some m →
    server.api.service.Gives m.bundle ∧ m.bundle.signerKeyId = access.signer.keyId

/-- No two of the places share a file. -/
def DistinctFiles (server : PolicyServer F Str Str W X Y O) (access : CachedAccess W)
    (places : Set (PolicyKey × Str)) : Prop :=
  ∀ p ∈ places, ∀ q ∈ places, ∀ file, (server.cachedClient access).cache.path F p.1 p.2 = .ok file →
    (server.cachedClient access).cache.path F q.1 q.2 = .ok file → p = q

variable {places : Set (PolicyKey × Str)} {memory : Memory F} {request : PolicyRead}

theorem mirrors_new : Mirrors server access places (fun _ => none) fun _ => none where
  saved _ _ _ _ := rfl
  gives _ _ h := by cases h

/-- What is saved is remembered. -/
theorem Mirrors.save (h : Mirrors server access places files memory)
    (hfiles : DistinctFiles server access places) {p : PolicyKey × Str} (hp : p ∈ places)
    (hfile : (server.cachedClient access).cache.path F p.1 p.2 = .ok file) {m : Remembered F}
    (hgives : server.api.service.Gives m.bundle)
    (hkey : m.bundle.signerKeyId = access.signer.keyId) :
    Mirrors server access places
      (Function.update files file (some (.ok (m.bundle.cachedText m.savedAt))))
      (Function.update memory p (some m)) where
  saved q hq other hother := by
    by_cases hsame : q = p
    · subst hsame
      obtain rfl : file = other := Except.ok.inj (hfile.symm.trans hother)
      rw [Function.update_self, Function.update_self]
      rfl
    · have hne : other ≠ file := by
        rintro rfl
        exact hsame (hfiles q hq p hp _ hother hfile)
      rw [Function.update_of_ne hne, Function.update_of_ne hsame]
      exact h.saved q hq other hother
  gives q m' hm := by
    by_cases hsame : q = p
    · subst hsame
      rw [Function.update_self] at hm
      obtain rfl := Option.some.inj hm
      exact ⟨hgives, hkey⟩
    · rw [Function.update_of_ne hsame] at hm
      exact h.gives q m' hm

/-- What `load` finds is what is remembered. -/
theorem Mirrors.load (hsqlite : server.api.service.store = sqliteStore)
    (htrusts : access.signer.Trusts server.api.service) (hlooks : access.Looks time)
    (h : Mirrors server access places files memory) (hroutable : request.Routable)
    (hplace : request.place ∈ places) :
    ∃ r, (server.cachedClient access).cache.load request.key (request.agent.getD [])
        access.allowStaleOnError ⟨files, v⟩ = (r, ⟨files, v⟩) ∧
      r.toOption = ((memory request.place).filter fun m =>
        access.mayUse (time v.api.service.outside) m.savedAt).map Remembered.bundle := by
  obtain ⟨file, hfile⟩ :=
    PolicyBundleCache.exists_path (F := F) (server.cachedClient access).cache hroutable
  have hsaved := h.saved request.place hplace file hfile
  cases hm : memory request.place with
  | none =>
    rw [hm] at hsaved
    exact ⟨_, load_of_missing hfile hsaved, rfl⟩
  | some m =>
    rw [hm] at hsaved
    obtain ⟨hgives, hkey⟩ := h.gives _ m hm
    obtain ⟨r, hload, hr⟩ := load_of_saved hsqlite htrusts hlooks hgives hkey hfile hsaved
    refine ⟨r, hload, hr.trans ?_⟩
    rw [Option.filter_some]
    split <;> rfl

/-! ### Retrievals -/

theorem readOrRecall_of_some {r : Except PyExc (PolicyBundle F)} {v' : PolicyWire F Str Str W X Y O}
    (hasked : server.asked (ControlPlaneClient.headers access.bearerToken) request v = (r, v'))
    (h : r.toOption.filter (fun bundle => bundle.signerKeyId = access.signer.keyId) =
      some bundle) : readOrRecall server access time request v memory =
      (some bundle, v', Function.update memory request.place
        (some ⟨bundle, time v'.api.service.outside⟩)) := by
  unfold readOrRecall
  simp only [hasked, h]

theorem readOrRecall_of_none {r : Except PyExc (PolicyBundle F)} {v' : PolicyWire F Str Str W X Y O}
    (hasked : server.asked (ControlPlaneClient.headers access.bearerToken) request v = (r, v'))
    (h : r.toOption.filter (fun bundle => bundle.signerKeyId = access.signer.keyId) = none) :
    readOrRecall server access time request v memory =
      (((memory request.place).filter fun m =>
        access.mayUse (time v'.api.service.outside) m.savedAt).map Remembered.bundle, v', memory) := by
  unfold readOrRecall
  simp only [hasked, h]

/-- A retrieval of a client whose files hold what the memory does returns what
the read with the memory does, and leaves them so. -/
theorem retrieval_recalled (hweb : PolicyWeb access.baseUrl server)
    (hsqlite : server.api.service.store = sqliteStore)
    (htrusts : access.signer.Trusts server.api.service) (hlooks : access.Looks time)
    (hfiles : DistinctFiles server access places)
    (hstock : server.api.service.Stocked v.api.service)
    (hroutable : request.Routable) (hplace : request.place ∈ places)
    (hmirrors : Mirrors server access places files memory) :
    ∃ r files', (server.cachedClient access).get request.key request.agent ⟨files, v⟩ =
        (r, ⟨files', (readOrRecall server access time request v memory).2.1⟩) ∧
      r.toOption = (readOrRecall server access time request v memory).1 ∧
      Mirrors server access places files'
        (readOrRecall server access time request v memory).2.2 := by
  have hclock : ∀ o, ∃ text o', access.utcNow o = (.ok text, o') := fun o =>
    (hlooks.utcNow o).imp fun text htext => ⟨o, htext⟩
  rcases get_cases access.bearerToken access.signer hweb hsqlite hclock hstock hroutable with
    ⟨bundle, v', now, o', hasked, hgives, hbundle, hnow, hget⟩ | ⟨e, v', message, hasked, hget⟩
  · obtain ⟨text, hsame⟩ := hlooks.utcNow v'.api.service.outside
    obtain rfl : v'.api.service.outside = o' := congrArg Prod.snd (hsame.symm.trans hnow)
    have hwire : v'.setOutside v'.api.service.outside = v' := rfl
    rw [hwire] at hget
    by_cases hkey : bundle.signerKeyId = access.signer.keyId
    · -- the bundle that was asked for is returned, and replaces what was saved
      rw [PyM.bind_of_ok (verify_looks htrusts hlooks hgives hkey)] at hget
      obtain ⟨file, hfile⟩ :=
        PolicyBundleCache.exists_path (F := F) (server.cachedClient access).cache hroutable
      have hsame : (server.cachedClient access).cache.path F bundle.key (request.agent.getD []) =
          .ok file := by
        rw [hbundle]
        exact hfile
      have hsaved : (server.cachedClient access).cache.save bundle (request.agent.getD [])
          ⟨files, v'⟩ = _ := save_of_gives hsqlite htrusts hlooks hgives hkey hsame
      have hnext := hmirrors.save hfiles hplace hfile
        (m := ⟨bundle, time v'.api.service.outside⟩) hgives hkey
      rw [readOrRecall_of_some hasked (by
        show Option.filter _ (some bundle) = _
        rw [Option.filter_some, if_pos (decide_eq_true hkey)])]
      exact ⟨_, _, CachedControlPlaneClient.get_of_saved hget hsaved, rfl, hnext⟩
    · -- the client raises on a bundle of another key id, and the cache answers
      have hdiffers : (access.signer.wired : PolicySigner (PolicyWire F Str Str W X Y O)).keyId ≠
          bundle.signerKeyId := Ne.symm hkey
      rw [PyM.bind_of_error (hgives.verify_other hdiffers v')] at hget
      obtain ⟨r, hload, hr⟩ := hmirrors.load hsqlite htrusts hlooks hroutable hplace
      rw [readOrRecall_of_none hasked (by
        show Option.filter _ (some bundle) = _
        rw [Option.filter_some, if_neg (mt of_decide_eq_true hkey)])]
      exact ⟨r, files, CachedControlPlaneClient.get_of_failed rfl hget hload, hr, hmirrors⟩
  · -- refused, or out of reach
    obtain ⟨r, hload, hr⟩ := hmirrors.load hsqlite htrusts hlooks hroutable hplace
    rw [readOrRecall_of_none hasked rfl]
    exact ⟨r, files, CachedControlPlaneClient.get_of_failed rfl hget hload, hr, hmirrors⟩

/-! ### Runs -/

/-- Reads add no bundle. -/
theorem stocked_asked {headers : List (Str × Str)} (h : server.api.service.Stocked v.api.service) :
    server.api.service.Stocked (server.asked headers request v).2.api.service := by
  obtain ⟨w, reachable⟩ := v
  cases reachable with
  | false => exact h
  | true =>
    refine h.keeps (?_ : server.api.Keeps w (server.ask headers request w).2)
    rw [ask_eq]
    cases server.authenticate headers w with
    | none => exact .refl _
    | some principal =>
      refine PyM.moves_bind .trans (ControlPlaneApi.moves_require fun _ => .refl _) (fun _ => ?_) w
      exact ControlPlaneApi.keeps_onService fun s => .of_store (ControlPlaneService.sameStore_read s)

theorem stocked_move [PyDecimalFloat F] (h : server.api.service.Stocked v.api.service)
    (step : OutageStep F Str Str W X Y O) :
    server.api.service.Stocked (OutageStep.move server v step).api.service := by
  cases step with
  | request moment principal r => exact h.keeps (ControlPlaneApi.keeps_handle r _)
  | outside o => exact h
  | reachable b => exact h
  | retrieve r => exact h

omit [LE Y] [PyValues F] in
/-- Where a run looks. -/
def placesOf (steps : List (OutageStep F Str Str W X Y O)) : Set (PolicyKey × Str) :=
  { p | ∃ request, OutageStep.retrieve request ∈ steps ∧ request.place = p }

/-- A run of a client whose files hold what the memory does. -/
theorem run_recalled [PyDecimalFloat F] (hweb : PolicyWeb access.baseUrl server)
    (hsqlite : server.api.service.store = sqliteStore)
    (htrusts : access.signer.Trusts server.api.service) (hlooks : access.Looks time)
    (hfiles : DistinctFiles server access places) {steps : List (OutageStep F Str Str W X Y O)}
    (hroutable : ∀ request, .retrieve request ∈ steps → request.Routable ∧ request.place ∈ places)
    (hstock : server.api.service.Stocked v.api.service)
    (hmirrors : Mirrors server access places files memory) :
    (runCached server access steps ⟨files, v⟩).1 =
        (runRecalled server access time steps v memory).1 ∧
      (runCached server access steps ⟨files, v⟩).2.outside =
        (runRecalled server access time steps v memory).2 := by
  -- `Mirrors` and `Stocked` carry the induction; only a retrieval changes files
  induction steps generalizing files v memory with
  | nil => exact ⟨rfl, rfl⟩
  | cons step steps ih =>
    have hrest : ∀ request, .retrieve request ∈ steps →
        request.Routable ∧ request.place ∈ places :=
      fun request hrequest => hroutable request (List.mem_cons_of_mem step hrequest)
    cases step with
    | retrieve request =>
      obtain ⟨hroute, hplace⟩ := hroutable request List.mem_cons_self
      obtain ⟨r, files', hget, hr, hmirrors'⟩ := retrieval_recalled hweb hsqlite htrusts hlooks
        hfiles hstock hroute hplace hmirrors
      have hwire : (readOrRecall server access time request v memory).2.1 =
          (server.asked (ControlPlaneClient.headers access.bearerToken) request v).2 := by
        rcases hasked : server.asked (ControlPlaneClient.headers access.bearerToken) request v with
          ⟨answer, v'⟩
        cases hfound : answer.toOption.filter
            (fun bundle => bundle.signerKeyId = access.signer.keyId) with
        | none => rw [readOrRecall_of_none hasked hfound]
        | some bundle => rw [readOrRecall_of_some hasked hfound]
      obtain ⟨hreturned, hleft⟩ := ih hrest (hwire ▸ stocked_asked hstock) hmirrors'
      rw [runCached, runRecalled, hget, hr]
      exact ⟨congrArg _ hreturned, hleft⟩
    | request moment principal q =>
      exact ih hrest (stocked_move hstock (.request moment principal q)) hmirrors
    | outside o => exact ih hrest hstock hmirrors
    | reachable b => exact ih hrest hstock hmirrors

/-- Through requests of others and outages, in any order, a client with a cache
returns what a read in the process of the service yields, or else what was last
read of that policy for that agent while it may be used. -/
theorem outage_run_recalled [PyDecimalFloat F] (hweb : PolicyWeb access.baseUrl server)
    (hsqlite : server.api.service.store = sqliteStore)
    (htrusts : access.signer.Trusts server.api.service) (hlooks : access.Looks time)
    {w₀ : ApiWorld F Str Str W X Y O} (hnew : PolicyStore.NewStore w₀.service.store)
    (hserves : ApiServes server.api w₀ v.api) {steps : List (OutageStep F Str Str W X Y O)}
    (hroutable : ∀ request, .retrieve request ∈ steps → request.Routable)
    (hfiles : DistinctFiles server access (placesOf steps)) :
    (runCached server access steps ⟨fun _ => none, v⟩).1 =
      (runRecalled server access time steps v fun _ => none).1 :=
  (run_recalled hweb hsqlite htrusts hlooks hfiles
    (fun request hrequest => ⟨hroutable request hrequest, request, hrequest, rfl⟩)
    (hserves.stocked (ControlPlaneService.stocked_new hnew)) mirrors_new).1

end PolicyServer

namespace PolicyFramework

/-! ### An outage -/

/-- A client that may use what is no more than a minute old, with a clock that
stands still. -/
def access : CachedAccess Unit where
  baseUrl := lit "https://control"
  bearerToken := []
  signer := clientSigner
  utcNow := utcNow
  clock := return 0
  maxStaleSeconds := 60
  allowStaleOnError := false

theorem looks_access : access.Looks fun _ => 0 where
  clock _ := rfl
  utcNow _ := ⟨_, rfl⟩
  verify _ _ _ := rfl

/-- A retrieval, and one more while the control plane cannot be reached. -/
def outage : List (OutageStep SmallFloat Str Str Unit Str Str Unit) :=
  [.retrieve activeRead, .reachable false, .retrieve activeRead]

theorem retrieved_outage {request : PolicyRead} (h : .retrieve request ∈ outage) :
    request = activeRead := by
  simp only [outage, List.mem_cons, List.not_mem_nil, or_false, OutageStep.retrieve.injEq,
    reduceCtorEq, false_or, or_self] at h
  exact h

theorem distinctFiles_outage :
    PolicyServer.DistinctFiles sampleServer access (PolicyServer.placesOf outage) := by
  rintro p ⟨request, hrequest, rfl⟩ q ⟨other, hother, rfl⟩ file - -
  rw [retrieved_outage hrequest, retrieved_outage hother]

/-- Both retrievals return version 1. -/
theorem outage_run_recalled_sample :
    (runCached sampleServer access outage ⟨fun _ => none, wire⟩).1 =
      (runRecalled sampleServer access (fun _ => 0) outage wire fun _ => none).1 ∧
    (runCached sampleServer access outage ⟨fun _ => none, wire⟩).1.map
        (Option.map PolicyBundle.version) = [some (lit "1"), some (lit "1")] := by
  have hnew : PolicyStore.NewStore newApiWorld.service.store := rfl
  have hroutable : ∀ request, .retrieve request ∈ outage → request.Routable := by
    intro request hrequest
    rw [retrieved_outage hrequest]
    exact routable_activeRead
  refine ⟨?_, by decide +kernel⟩
  exact PolicyServer.outage_run_recalled web_sampleServer store_sampleServer trusts_clientSigner
    looks_access hnew serves_wire hroutable distinctFiles_outage

end PolicyFramework

end AgentRoi
