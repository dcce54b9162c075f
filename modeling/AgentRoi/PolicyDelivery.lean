/-
A policy bundle from the service's store to a client over HTTP.

* `PolicyBundle.document`, `CarriedBy` — a bundle as JSON, and the values that
  have all its members;
* `fromDict_carried` — a client reads the bundle that was sent;
* `Gives` — a bundle is what SQLite gives back for one the service made;
* `Gives.verify` — a signer that verifies what the service signs under its key
  id verifies it;
* `policy_delivered` — a client gets a bundle exactly when the service, asked
  in its own process, answers with that bundle.
-/
import AgentRoi.ApiEffects
import AgentRoi.AuditLegibility
import AgentRoi.PolicyFramework

namespace AgentRoi

variable {F V T W X Y O α : Type}

/-! ### Bundles as JSON -/

namespace PolicyBundle

/-- The members of `to_dict`, as JSON. -/
def document (bundle : PolicyBundle F) : List (Str × Json F) := [
  (lit "organization_id", .str bundle.key.organizationId), (lit "name", .str bundle.key.name),
  (lit "environment", .str bundle.key.environment), (lit "version", .str bundle.version),
  (lit "policy", bundle.policy), (lit "digest", .str bundle.digest),
  (lit "signature", .str bundle.signature), (lit "signer_key_id", .str bundle.signerKeyId),
  (lit "status", .str bundle.status), (lit "created_at_utc", .str bundle.createdAtUtc),
  (lit "created_by", .str bundle.createdBy)]

theorem nodup_keys_document (bundle : PolicyBundle F) : (bundle.document.map Prod.fst).Nodup :=
  (by decide : [lit "organization_id", lit "name", lit "environment", lit "version", lit "policy",
    lit "digest", lit "signature", lit "signer_key_id", lit "status", lit "created_at_utc",
    lit "created_by"].Nodup)

/-- A bundle's policy is a mapping of clean values, with its members sorted. -/
structure IsStored [PyFloat F] (bundle : PolicyBundle F) : Prop where
  mapping : ∃ members, bundle.policy = .obj members
  clean : bundle.policy.Clean
  sorted : bundle.policy.sortKeys = bundle.policy
  scalars : ∀ p ∈ bundle.document, Scalars p.2.render

/-- The value has the members of the bundle's document. -/
def CarriedBy (bundle : PolicyBundle F) (value : Json F) : Prop :=
  ∀ p ∈ bundle.document, value.item p.1 = .ok p.2

section

variable {bundle : PolicyBundle F}

theorem toDict_eq (h : ∃ members, bundle.policy = .obj members) :
    ∃ fields, bundle.toDict = .ok fields ∧
    ∀ extra : List (Str × Json F), PyVal.ofFields (fields ++ extra.map fun p => (p.1, .ofJson p.2)) =
      PyVal.ofJson (.obj (bundle.document ++ extra)) := by
  obtain ⟨members, h⟩ := h
  refine ⟨bundle.document.map fun p => (p.1, .ofJson p.2), ?_, fun extra => ?_⟩
  · rw [toDict, document, h]
    rfl
  · rw [PyVal.ofJson, PyVal.ofJsonMembers_eq_map, PyVal.ofFields, ← List.map_append,
      List.map_map]
    rfl

/-- A document with further members after it. -/
theorem carriedBy_append (extra : List (Str × Json F)) :
    bundle.CarriedBy (.obj (bundle.document ++ extra)) := by
  intro p hp
  have hget : dictGet p.1 bundle.document = some p.2 :=
    (dictGet_eq_some_iff bundle.nodup_keys_document).mpr hp
  rw [Json.item, dictGet_append_of_some hget]
  rfl

/-- A document as `canonical_json` writes it. -/
theorem carriedBy_sortKeys (h : bundle.policy.sortKeys = bundle.policy) :
    bundle.CarriedBy (Json.obj bundle.document).sortKeys := by
  intro p hp
  have hget : dictGet p.1 bundle.document = some p.2 :=
    (dictGet_eq_some_iff bundle.nodup_keys_document).mpr hp
  have hvalue : p.2.sortKeys = p.2 := by
    simp only [document, List.mem_cons, List.not_mem_nil, or_false] at hp
    rcases hp with rfl | rfl | rfl | rfl | rfl | rfl | rfl | rfl | rfl | rfl | rfl <;>
      first | exact h | rfl
  rw [Json.sortKeys_obj, Json.item, dictGet_map_snd, dictGet_sortByKey bundle.nodup_keys_document,
    hget, Option.map_some, hvalue]
  rfl

end

/-- What a client reads of a document is the bundle it was written from. -/
theorem fromDict_carried [PyValues F] {bundle : PolicyBundle F} {value : Json F}
    {now : PyM W Str} {o o' : W} {t : Str} (hpolicy : ∃ members, bundle.policy = .obj members)
    (h : bundle.CarriedBy value) (hnow : now o = (.ok t, o')) :
    fromDict now value o = (.ok bundle, o') := by
  obtain ⟨members, hpolicy⟩ := hpolicy
  simp only [CarriedBy, document, List.forall_mem_cons] at h
  obtain ⟨horganization, hname, henvironment, hversion, hitem, hdigest, hsignature, hsigner, hstatus,
    hcreated, hby, -⟩ := h
  have htext : ∀ {key text : Str}, value.item key = .ok (.str text) →
      value.itemText key = .ok text := by
    intro key text hkey
    rw [Json.itemText, hkey]
    rfl
  have hget : ∀ {key text : Str} (default : Str), value.item key = .ok (.str text) →
      value.getText key default = text := by
    intro key text default hkey
    rw [Json.getText, hkey]
    rfl
  unfold fromDict
  rw [htext horganization, htext hname, htext henvironment, htext hversion, hitem, hpolicy,
    htext hdigest, htext hsignature, htext hsigner, hget _ hstatus, hget _ hby]
  refine (PyM.bind_of_ok hnow).trans ?_
  rw [hget t hcreated, ← hpolicy]
  rfl

section

variable [PyFloat F] {bundle : PolicyBundle F}

/-- The document of a stored bundle, and with it the answers that hold it, can
be sent. -/
theorem IsStored.clean_document (h : bundle.IsStored) {extra : List (Str × Json F)}
    (hkeys : ((bundle.document ++ extra).map Prod.fst).Nodup) (hextra : ∀ p ∈ extra, p.2.Clean) :
    (Json.obj (bundle.document ++ extra)).Clean := by
  refine .obj hkeys fun p hp => ?_
  rcases List.mem_append.mp hp with hmem | hmem
  · simp only [document, List.mem_cons, List.not_mem_nil, or_false] at hmem
    rcases hmem with rfl | rfl | rfl | rfl | rfl | rfl | rfl | rfl | rfl | rfl | rfl <;>
      first | exact h.clean | exact .str _
  · exact hextra p hmem

theorem IsStored.scalars_document (h : bundle.IsStored) {extra : List (Str × Json F)}
    (hextra : ∀ p ∈ extra, Scalars p.1 ∧ Scalars p.2.render) :
    Scalars (Json.obj (bundle.document ++ extra)).render := by
  rw [Json.scalars_render_obj]
  intro p hp
  rcases List.mem_append.mp hp with hmem | hmem
  · have hkeys : ∀ key ∈ bundle.document.map Prod.fst, ∀ c ∈ key, c < 0xD800 :=
      (by decide : ∀ key ∈ [lit "organization_id", lit "name", lit "environment", lit "version",
        lit "policy", lit "digest", lit "signature", lit "signer_key_id", lit "status",
        lit "created_at_utc", lit "created_by"], ∀ c ∈ key, c < 0xD800)
    exact ⟨scalars_of_lt (hkeys p.1 (List.mem_map_of_mem hmem)), h.scalars p hmem⟩
  · exact hextra p hmem

/-- SQLite has bound every text of a bundle it gives back. -/
theorem isStored_of_saved {members : List (Str × Json F)} {row : BundleRow Str Str}
    (hpolicy : bundle.policy = .obj members) (hclean : bundle.policy.Clean)
    (h : rowOfBundle sqlitePolicyFormat bundle = .ok row) : bundle.sorted.IsStored := by
  have hbound : ∀ {text : Str} {u : Unit}, sqlitePolicyFormat.bind (F := F) text = .ok u →
      Scalars text := fun hbind => encodeUtf8_isSome_iff.mp (bindText_eq_ok hbind)
  simp only [rowOfBundle, PolicyFormat.bindKey, except_bind_eq_ok] at h
  obtain ⟨_, ⟨_, horganization, _, hname, henvironment⟩, _, hversion, payload, hpayload, _, hdigest,
    _, hsignature, _, hsigner, _, hstatus, created, hcreated, _, hby, -⟩ := h
  obtain ⟨_, hcreated, -⟩ := except_bind_eq_ok.mp hcreated
  obtain ⟨_, hpayload, -⟩ := except_bind_eq_ok.mp hpayload
  have htext : Scalars bundle.policy.sortKeys.render := by
    have hscalars := encodeUtf8_isSome_iff.mp (bindText_eq_ok hpayload)
    rwa [canonicalJson_ofJson hclean.distinct, hclean.nameFloats] at hscalars
  refine ⟨⟨_, (congrArg Json.sortKeys hpolicy).trans sortKeys_obj_eq⟩, hclean.sortKeys,
    Json.sortKeys_sortKeys _, ?_⟩
  intro p hp
  simp only [document, sorted, List.mem_cons, List.not_mem_nil, or_false] at hp
  rcases hp with rfl | rfl | rfl | rfl | rfl | rfl | rfl | rfl | rfl | rfl | rfl
  · exact Json.scalars_quote.mpr (hbound horganization)
  · exact Json.scalars_quote.mpr (hbound hname)
  · exact Json.scalars_quote.mpr (hbound henvironment)
  · exact Json.scalars_quote.mpr (hbound hversion)
  · exact htext
  · exact Json.scalars_quote.mpr (hbound hdigest)
  · exact Json.scalars_quote.mpr (hbound hsignature)
  · exact Json.scalars_quote.mpr (hbound hsigner)
  · exact Json.scalars_quote.mpr (hbound hstatus)
  · exact Json.scalars_quote.mpr (encodeUtf8_isSome_iff.mp (bindText_eq_ok hcreated))
  · exact Json.scalars_quote.mpr (hbound hby)

end

end PolicyBundle

/-! ### What the service answers with -/

/-- The signer verifies what the service signs under its key id. -/
def PolicySigner.Trusts (signer : PolicySigner W) (service : ControlPlaneService F V T W) : Prop :=
  ∀ keyId maker, service.signers keyId = some maker → maker.keyId = signer.keyId →
    ∀ payload signature o o', maker.sign payload o = (.ok signature, o') →
      ∀ v, (signer.verify payload signature v).1 = .ok true

namespace ControlPlaneService

variable [PyFloatOps F] {service : ControlPlaneService F Str Str W}
  {w w' : ServiceWorld F Str Str W} {bundle : PolicyBundle F}

/-- The bundle is what the database gives back for one that the service made. -/
def Gives (service : ControlPlaneService F V T W) (bundle : PolicyBundle F) : Prop :=
  ∃ original row, service.Genuine original ∧
    rowOfBundle service.store.format original = .ok row ∧ bundle = original.sorted

theorem gives_of_found (hsqlite : service.store = sqliteStore) (hstock : service.Stocked w)
    {key : PolicyKey} {version : Str}
    (hfind : service.store.findBundle key version w.store.tables = .ok bundle) :
    service.Gives bundle := by
  obtain ⟨row, hrow, hback⟩ := PolicyStore.findBundle_eq_ok hfind
  obtain ⟨original, hgenuine, hsaved⟩ := hstock key version row hrow
  have hagain := reads_iff.mp (reads_of_row hsqlite hrow hgenuine hsaved)
  rw [hfind] at hagain
  exact ⟨original, row, hgenuine, hsaved, Except.ok.inj hagain⟩

/-- A read answers with a bundle of the store, of the policy asked for. -/
theorem read_found {request : PolicyRead}
    (h : service.read request w = (.ok bundle, w')) :
    w'.store = w.store ∧ bundle.key = request.key ∧
      ∃ version, service.store.findBundle request.key version w.store.tables = .ok bundle := by
  have hstore : w'.store = w.store := by
    have hsame : (service.read request w).2.store = w.store := sameStore_read w
    rwa [h] at hsame
  obtain ⟨version, hfind⟩ : ∃ version,
      service.store.findBundle request.key version w.store.tables = .ok bundle := by
    obtain ⟨key, agent⟩ := request
    cases agent with
    | none =>
      have h : service.activePolicy key w = _ := h
      obtain ⟨found, u, hget, h⟩ := PyM.bind_eq_ok.mp h
      obtain ⟨_, _, -, h⟩ := PyM.bind_eq_ok.mp h
      cases h
      obtain ⟨s, hs, rfl⟩ := onStore_eq.mp hget
      exact (PolicyStore.getActive_found hs).2
    | some agentId =>
      have h : service.policyForAgent key agentId w = _ := h
      obtain ⟨found, u, hget, h⟩ := PyM.bind_eq_ok.mp h
      obtain ⟨_, _, -, h⟩ := PyM.bind_eq_ok.mp h
      cases h
      obtain ⟨s, hs, rfl⟩ := onStore_eq.mp hget
      exact (PolicyStore.resolveActive_found hs).2
  obtain ⟨row, hrow, hbundle⟩ := PolicyStore.findBundle_eq_ok hfind
  exact ⟨hstore, (PolicyStore.bundleOfRow_version hbundle).1.trans
    (ControlPlaneTables.key_of_bundle hrow).1, version, hfind⟩

theorem Gives.isStored (hsqlite : service.store = sqliteStore) (h : service.Gives bundle) :
    bundle.IsStored := by
  obtain ⟨original, row, ⟨_, _, policy, _, _, _, -, -, hpolicy, -⟩, hsaved, rfl⟩ := h
  have hclean : original.policy.Clean := hpolicy ▸ clean_normalized policy
  rw [hsqlite] at hsaved
  exact PolicyBundle.isStored_of_saved hpolicy hclean hsaved

/-- How the bundle was signed. -/
structure SignedAs (service : ControlPlaneService F V T W) (bundle : PolicyBundle F)
    (keyId : Str) (maker : PolicySigner W) (payload : List UInt8) : Prop where
  configured : service.signers keyId = some maker
  keyId_eq : bundle.signerKeyId = maker.keyId
  payload_eq : bundle.signingPayload = .ok payload
  digest : service.hash.hexdigest payload = bundle.digest
  signed : ∃ o o', maker.sign payload o = (.ok bundle.signature, o')
  accepted : ∃ members policy, asDict bundle.policy = .ok members ∧
    policyFromMapping bundle.key.name members = .ok policy

theorem Gives.signedAs (h : service.Gives bundle) :
    ∃ keyId maker payload, service.SignedAs bundle keyId maker payload := by
  obtain ⟨original, row, ⟨keyId, maker, policy, payload, o, o', hconfigured, hkeyId, hpolicy,
    hpayload, hhash, hsign, accepted, haccepted⟩, -, rfl⟩ := h
  have hclean := clean_normalized policy
  have hdict : asDict original.sorted.policy =
      .ok (sortedMembers (PolicyBundle.normalized policy)) := asDict_sorted hpolicy
  obtain ⟨again, hagain⟩ := (policyFromMapping_sortKeys hclean.distinct).mpr ⟨accepted, haccepted⟩
  refine ⟨keyId, maker, payload, hconfigured, hkeyId, ?_, hhash.symm, ⟨o, o', hsign⟩, _, again,
    hdict, hagain⟩
  refine except_bind_eq_ok.mpr ⟨_, hdict, ?_⟩
  show PolicyBundle.envelope original.key original.version _ = _
  rw [envelope_sortedMembers hclean.distinct, hpayload]

/-- Whoever accepts the signature verifies the bundle. -/
theorem Gives.verify {W' : Type} (h : service.Gives bundle) {checker : PolicySigner W'}
    (hkey : checker.keyId = bundle.signerKeyId) {v : W'}
    (haccept : ∀ keyId maker payload o o', service.signers keyId = some maker →
      maker.keyId = checker.keyId → maker.sign payload o = (.ok bundle.signature, o') →
      (checker.verify payload bundle.signature v).1 = .ok true) :
    ∃ payload, bundle.verify service.hash checker v =
      (.ok (), (checker.verify payload bundle.signature v).2) := by
  obtain ⟨keyId, maker, payload, hsigned⟩ := h.signedAs
  obtain ⟨o, o', hsign⟩ := hsigned.signed
  obtain ⟨members, policy, hmembers, hpolicy⟩ := hsigned.accepted
  have hvalid := haccept keyId maker payload o o' hsigned.configured
    (hsigned.keyId_eq.symm.trans hkey.symm) hsign
  exact ⟨payload, PolicyBundle.verify_eq_ok.mpr ⟨payload, members, policy, hsigned.payload_eq,
    hsigned.digest, hkey, Prod.ext hvalid rfl, hmembers, hpolicy⟩⟩

/-- A signer of another key id refuses the bundle without looking at its
signature. -/
theorem Gives.verify_other {W' : Type} (h : service.Gives bundle) {checker : PolicySigner W'}
    (hkey : checker.keyId ≠ bundle.signerKeyId) (v : W') :
    bundle.verify service.hash checker v =
      (.error (policySignatureError (lit "Policy bundle signature is invalid")), v) := by
  obtain ⟨keyId, maker, payload, hsigned⟩ := h.signedAs
  unfold PolicyBundle.verify
  rw [hsigned.payload_eq]
  show (if service.hash.hexdigest payload ≠ bundle.digest then _ else
    if checker.keyId ≠ bundle.signerKeyId then _ else _ : PyM W' Unit) v = _
  rw [if_neg (not_not_intro hsigned.digest), if_pos hkey]
  rfl

/-- A policy that was read has a revision. -/
theorem revision_of_read {key : PolicyKey} (h : service.read ⟨key, none⟩ w = (.ok bundle, w')) :
    ∃ revision, service.store.findActiveRevision key w'.store.tables = .ok revision := by
  have hstore := (read_found h).1
  have h : service.activePolicy key w = _ := h
  obtain ⟨found, u, hget, -⟩ := PyM.bind_eq_ok.mp h
  obtain ⟨s, hs, -⟩ := onStore_eq.mp hget
  obtain ⟨version, s₁, hread, -⟩ := Proc.run_bind_eq_ok.mp hs
  obtain ⟨hfind, -⟩ := PolicyStore.reading_eq_ok.mp hread
  obtain ⟨_, hbind, hfind⟩ := except_bind_eq_ok.mp hfind
  rw [hstore, PolicyStore.findActiveRevision, hbind]
  cases hrow : w.store.tables.activeRow key with
  | none =>
    rw [hrow] at hfind
    cases hfind
  | some row => exact ⟨row.revision, rfl⟩

end ControlPlaneService

/-! ### Answers -/

/-- What a route answers after the document of a bundle. -/
def IsExtra (extra : List (Str × Json F)) : Prop :=
  extra = [] ∨ ∃ revision : ℕ, extra = [(lit "revision", .int revision)]

theorem IsExtra.keys {extra : List (Str × Json F)} (h : IsExtra extra) (bundle : PolicyBundle F) :
    ((bundle.document ++ extra).map Prod.fst).Nodup := by
  rcases h with rfl | ⟨revision, rfl⟩
  · rw [List.append_nil]
    exact bundle.nodup_keys_document
  · exact (by decide : [lit "organization_id", lit "name", lit "environment", lit "version",
      lit "policy", lit "digest", lit "signature", lit "signer_key_id", lit "status",
      lit "created_at_utc", lit "created_by", lit "revision"].Nodup)

theorem IsExtra.clean [PyFloat F] {extra : List (Str × Json F)} (h : IsExtra extra) :
    ∀ p ∈ extra, p.2.Clean := by
  rcases h with rfl | ⟨revision, rfl⟩
  · exact fun p hp => absurd hp List.not_mem_nil
  · intro p hp
    obtain rfl := List.mem_singleton.mp hp
    exact .int _

theorem IsExtra.scalars [PyFloat F] {extra : List (Str × Json F)} (h : IsExtra extra) :
    ∀ p ∈ extra, Scalars p.1 ∧ Scalars p.2.render := by
  rcases h with rfl | ⟨revision, rfl⟩
  · exact fun p hp => absurd hp List.not_mem_nil
  · intro p hp
    obtain rfl := List.mem_singleton.mp hp
    exact ⟨scalars_of_lt (by decide : ∀ c ∈ lit "revision", c < 0xD800), scalars_intText _⟩

namespace ControlPlaneApi

variable [LE Y] [PyFloatOps F] {api : ControlPlaneApi F Str Str W X Y O} {principal : Principal}
  {request : PolicyRead} {w : ApiWorld F Str Str W X Y O} {bundle : PolicyBundle F}

/-- A route that finds a bundle answers with its document. -/
theorem answerRead_of_ok {s : ServiceWorld F Str Str W} {fields : PyDict F}
    (hrequire : api.require principal (lit "policy.read") request.key.name request.key.environment
      request.key.organizationId w = (.ok (), w))
    (hread : api.service.read request w.service = (.ok bundle, s))
    (hfields : bundle.toDict = .ok fields) : ∃ extra, IsExtra extra ∧
      api.answerRead principal request w =
        (.ok (fields ++ extra.map fun p => (p.1, .ofJson p.2)), { w with service := s }) := by
  have hfound : onService (api.service.read request) w = (.ok bundle, { w with service := s }) :=
    PyM.on_eq_ok.mpr ⟨s, hread, rfl⟩
  obtain ⟨key, agent⟩ := request
  cases agent with
  | none =>
    obtain ⟨revision, hrevision⟩ := ControlPlaneService.revision_of_read hread
    refine ⟨[(lit "revision", .int revision)], .inr ⟨revision, rfl⟩, ?_⟩
    refine (PyM.bind_of_ok hrequire).trans (answering_eq_ok.mpr ((PyM.bind_of_ok hfound).trans ?_))
    rw [hfields]
    refine PyM.bind_of_ok (PyM.on_eq_ok.mpr ⟨s, onStore_eq.mpr ⟨s.store, ?_, rfl⟩, rfl⟩)
    exact PolicyStore.reading_eq_ok.mpr ⟨hrevision, rfl⟩
  | some agentId =>
    refine ⟨[], .inl rfl, ?_⟩
    refine (PyM.bind_of_ok hrequire).trans (answering_eq_ok.mpr ((PyM.bind_of_ok hfound).trans ?_))
    rw [hfields, List.map_nil, List.append_nil]
    rfl

/-- A route that finds none raises. -/
theorem answerRead_of_error {s : ServiceWorld F Str Str W} {e : PyExc}
    (hrequire : api.require principal (lit "policy.read") request.key.name request.key.environment
      request.key.organizationId w = (.ok (), w))
    (hread : api.service.read request w.service = (.error e, s)) :
    ∃ e', api.answerRead principal request w = (.error e', { w with service := s }) := by
  have hraised : onService (api.service.read request) w = (.error e, { w with service := s }) := by
    have hrun : onService (api.service.read request) w = ((api.service.read request w.service).1,
      { w with service := (api.service.read request w.service).2 }) := rfl
    rw [hrun, hread]
  exact ⟨_, (PyM.bind_of_ok hrequire).trans (PyM.tryExcept_of_error (PyM.bind_of_error hraised))⟩

end ControlPlaneApi

/-! ### URLs -/

theorem mem_of_mem_splitOn {x c : ℕ} {text part : Str} (hpart : part ∈ text.splitOn x)
    (hc : c ∈ part) : c ∈ text := by
  induction text generalizing part with
  | nil =>
    obtain rfl := List.mem_singleton.mp hpart
    exact absurd hc List.not_mem_nil
  | cons d text ih =>
    rw [List.splitOn_cons_eq_if_modifyHead] at hpart
    split at hpart
    · rcases List.mem_cons.mp hpart with rfl | hrest
      · exact absurd hc List.not_mem_nil
      · exact List.mem_cons_of_mem d (ih hrest hc)
    · obtain ⟨first, rest, hsplit⟩ := List.exists_cons_of_ne_nil (List.splitOn_ne_nil x text)
      rw [hsplit, List.modifyHead_cons] at hpart
      rw [hsplit] at ih
      rcases List.mem_cons.mp hpart with rfl | hrest
      · rcases List.mem_cons.mp hc with rfl | hmem
        · exact List.mem_cons_self
        · exact List.mem_cons_of_mem d (ih List.mem_cons_self hmem)
      · exact List.mem_cons_of_mem d (ih (List.mem_cons_of_mem first hrest) hc)

theorem quotePlus_eq_ok {text : Str} (h : Scalars text) : ∃ quoted, quotePlus text = .ok quoted := by
  have hparts : ∀ parts : List Str, (∀ part ∈ parts, Scalars part) →
      ∃ quoted, parts.mapM quote = .ok quoted := by
    intro parts hscalars
    induction parts with
    | nil => exact ⟨[], rfl⟩
    | cons part parts ih =>
      obtain ⟨hpart, hrest⟩ := List.forall_mem_cons.mp hscalars
      obtain ⟨first, hfirst⟩ := quote_eq_ok hpart
      obtain ⟨rest, hquoted⟩ := ih hrest
      refine ⟨first :: rest, ?_⟩
      rw [List.mapM_cons, hfirst, hquoted]
      rfl
  obtain ⟨quoted, hquoted⟩ := hparts (text.splitOn 32) fun part hpart c hc =>
    h c (mem_of_mem_splitOn hpart hc)
  exact ⟨_, by rw [quotePlus, hquoted]; rfl⟩

/-- The client asks for the URL of a request that has one. -/
theorem PolicyRead.exists_path [PyValues F] {request : PolicyRead} (h : request.Routable) :
    ∃ path, request.path = .ok path ∧ ∀ {W' : Type} (client : ControlPlaneClient W'),
      (client.document request.key request.agent : PyM W' (Json F)) = client.request path := by
  obtain ⟨organizationId, horganization⟩ := quote_eq_ok h.organizationId.scalars
  obtain ⟨environment, henvironment⟩ := quote_eq_ok h.environment.scalars
  obtain ⟨name, hname⟩ := quote_eq_ok h.name.scalars
  obtain ⟨first, hfirst⟩ : ∃ path, ControlPlaneClient.policyPath request.key = .ok path := by
    rw [ControlPlaneClient.policyPath, horganization, henvironment, hname]
    exact ⟨_, rfl⟩
  obtain ⟨key, agent⟩ := request
  cases agent with
  | none =>
    refine ⟨first ++ lit "/active", ?_, fun client => ?_⟩
    · rw [path, hfirst]
      rfl
    · show client.activeDocument key = _
      rw [ControlPlaneClient.activeDocument, hfirst]
      rfl
  | some agentId =>
    obtain ⟨agent, hagent⟩ := quotePlus_eq_ok (h.agent agentId rfl)
    refine ⟨first ++ lit "/resolve?agent_id=" ++ agent, ?_, fun client => ?_⟩
    · rw [path, hfirst]
      show (quotePlus agentId >>= fun agent => _) = _
      rw [hagent]
      rfl
    · show client.agentDocument key agentId = _
      rw [ControlPlaneClient.agentDocument, hfirst, hagent]
      rfl

/-! ### Requests of a client -/

/-- An answer that a client raises on. -/
inductive HttpAnswer.IsRefusal : HttpAnswer → Prop
  | httpError (code detail) : IsRefusal (.httpError code detail)
  | osError : IsRefusal .osError

namespace PolicyServer

variable [LE Y] [PyValues F] {server : PolicyServer F Str Str W X Y O} {request : PolicyRead}
  {w : ApiWorld F Str Str W X Y O} {baseUrl : Str}

omit [PyValues F] in
theorem isRefusal_errorAnswer (e : PyExc) : (server.errorAnswer e).IsRefusal := by
  have hother : (if e.isException then HttpAnswer.httpError 500 (lit "Internal Server Error")
      else .osError).IsRefusal := by
    split
    · exact .httpError _ _
    · exact .osError
  cases e
  case httpException status detail => exact .httpError _ _
  all_goals exact hother

theorem handle_eq {req : HttpRequest} (hparse : server.parse req = some request) :
    server.handle req w = (server.authenticate req.headers w).elim
      (pure (server.errorAnswer (.httpException 401 (lit "Authentication failed"))))
      (fun principal => server.answer principal request) w := by
  rw [handle, hparse]
  refine (PyM.get_bind _ w).trans ?_
  cases server.authenticate req.headers w <;> rfl

theorem ask_eq {headers : List (Str × Str)} : server.ask headers request w =
    ((server.authenticate headers w).elim
      (.raise (.httpException 401 (lit "Authentication failed")))
      (fun principal => server.askAs principal request) : PyM _ (PolicyBundle F)) w := by
  refine (PyM.get_bind _ w).trans ?_
  cases server.authenticate headers w <;> rfl

/-- A read that finds a bundle is answered with a text of it. -/
theorem handle_of_ok (hweb : PolicyWeb baseUrl server) {req : HttpRequest}
    (hparse : server.parse req = some request) {bundle : PolicyBundle F}
    {w' : ApiWorld F Str Str W X Y O} (hask : server.ask req.headers request w = (.ok bundle, w'))
    (hstored : bundle.IsStored) :
    ∃ text extra, server.handle req w = (.ok (.body text), w') ∧
      Json.loads text = some (.obj (bundle.document ++ extra)) := by
  rw [ask_eq] at hask
  rw [handle_eq hparse]
  cases hprincipal : server.authenticate req.headers w with
  | none =>
    rw [hprincipal] at hask
    cases hask
  | some principal =>
    -- the route finds what the read does, and its answer can be printed
    rw [hprincipal] at hask
    obtain ⟨_, v, hrequire, hfound⟩ := PyM.bind_eq_ok.mp hask
    obtain ⟨rfl, -⟩ := ControlPlaneApi.require_eq_ok hrequire
    obtain ⟨s, hread, rfl⟩ := PyM.on_eq_ok.mp hfound
    obtain ⟨fields, hfields, hsent⟩ := PolicyBundle.toDict_eq hstored.mapping
    obtain ⟨extra, hextra, hanswer⟩ := ControlPlaneApi.answerRead_of_ok hrequire hread hfields
    obtain ⟨text, hrespond, hloads⟩ := hweb.respond _
      (hstored.clean_document (hextra.keys bundle) hextra.clean)
      (hstored.scalars_document hextra.scalars)
    rw [← hsent] at hrespond
    refine ⟨text, extra, ?_, hloads⟩
    refine PyM.tryExcept_of_ok ((PyM.bind_of_ok hanswer).trans ?_)
    rw [hrespond]
    rfl

/-- Any other read is refused. -/
theorem handle_of_error {req : HttpRequest} (hparse : server.parse req = some request) {e : PyExc}
    {w' : ApiWorld F Str Str W X Y O} (hask : server.ask req.headers request w = (.error e, w')) :
    ∃ answer, server.handle req w = (.ok answer, w') ∧ answer.IsRefusal := by
  rw [ask_eq] at hask
  rw [handle_eq hparse]
  cases hprincipal : server.authenticate req.headers w with
  | none =>
    rw [hprincipal] at hask
    cases hask
    exact ⟨_, rfl, isRefusal_errorAnswer _⟩
  | some principal =>
    rw [hprincipal] at hask
    -- either the principal may not read, or there is nothing to read
    rcases PyM.bind_eq_error.mp hask with hrefused | ⟨⟨⟩, v, hrequire, hmissing⟩
    · exact ⟨_, PyM.tryExcept_of_error (PyM.bind_of_error (PyM.bind_of_error hrefused)),
        isRefusal_errorAnswer _⟩
    · obtain ⟨rfl, -⟩ := ControlPlaneApi.require_eq_ok hrequire
      rcases hread : server.api.service.read request v.service with ⟨e' | bundle, s⟩
      · obtain ⟨e'', hanswer⟩ := ControlPlaneApi.answerRead_of_error hrequire hread
        have hrun : onService (server.api.service.read request) v =
          ((server.api.service.read request v.service).1,
            { v with service := (server.api.service.read request v.service).2 }) := rfl
        rw [hrun, hread] at hmissing
        cases hmissing
        exact ⟨_, PyM.tryExcept_of_error (PyM.bind_of_error hanswer), isRefusal_errorAnswer _⟩
      · have hrun : onService (server.api.service.read request) v =
            (.ok bundle, { v with service := s }) := PyM.on_eq_ok.mpr ⟨s, hread, rfl⟩
        exact absurd (hmissing.symm.trans hrun) (by simp)

/-- A read answers with a bundle the service made. -/
theorem gives_of_ask (hsqlite : server.api.service.store = sqliteStore)
    (hstock : server.api.service.Stocked w.service) {headers : List (Str × Str)}
    {bundle : PolicyBundle F} {w' : ApiWorld F Str Str W X Y O}
    (hask : server.ask headers request w = (.ok bundle, w')) :
    server.api.service.Gives bundle ∧ bundle.key = request.key := by
  rw [ask_eq] at hask
  cases hprincipal : server.authenticate headers w with
  | none =>
    rw [hprincipal] at hask
    cases hask
  | some principal =>
    rw [hprincipal] at hask
    obtain ⟨_, v, hrequire, hfound⟩ := PyM.bind_eq_ok.mp hask
    obtain ⟨rfl, -⟩ := ControlPlaneApi.require_eq_ok hrequire
    obtain ⟨s, hread, rfl⟩ := PyM.on_eq_ok.mp hfound
    obtain ⟨-, hkey, version, hfind⟩ := ControlPlaneService.read_found hread
    exact ⟨ControlPlaneService.gives_of_found hsqlite hstock hfind, hkey⟩

/-! ### What a client gets -/

variable {bearerToken : Str} {signer : PolicySigner W} {utcNow : PyM W Str}

/-- The answer to the URL of a read, on a wire that is up. -/
theorem urlopen_reachable {url : Str} :
    server.urlopen bearerToken url ⟨w, true⟩ =
      ((server.handle ⟨lit "GET", url, ControlPlaneClient.headers bearerToken, none⟩ w).1,
        ⟨(server.handle ⟨lit "GET", url, ControlPlaneClient.headers bearerToken, none⟩ w).2, true⟩) :=
  rfl

/-- A client raises on a refusal. -/
theorem get_of_refusal {W' : Type} {client : ControlPlaneClient W'} {path : Str} {o o' : W'}
    {answer : HttpAnswer}
    (hpath : (client.document request.key request.agent : PyM W' (Json F)) = client.request path)
    (hopen : client.urlopen (client.baseUrl ++ path) o = (.ok answer, o')) (h : answer.IsRefusal) :
    ∃ message, client.get (F := F) request.key request.agent o =
      (.error (controlPlaneError message), o') := by
  rw [ControlPlaneClient.get_eq, hpath]
  cases h with
  | httpError code detail => exact ⟨_, PyM.bind_of_error (PyM.bind_of_ok hopen)⟩
  | osError => exact ⟨_, PyM.bind_of_error (PyM.bind_of_ok hopen)⟩

/-- A client checks the bundle of the text it is answered with. -/
theorem get_of_body {W' : Type} {client : ControlPlaneClient W'} {path text now : Str}
    {o o' o'' : W'} {bundle : PolicyBundle F} {extra : List (Str × Json F)}
    (hpath : (client.document request.key request.agent : PyM W' (Json F)) = client.request path)
    (hopen : client.urlopen (client.baseUrl ++ path) o = (.ok (.body text), o'))
    (hloads : Json.loads text = some (.obj (bundle.document ++ extra)))
    (hstored : bundle.IsStored) (hnow : client.utcNow o' = (.ok now, o'')) :
    client.get request.key request.agent o = (do
      client.check bundle
      return bundle) o'' := by
  have hdocument : (client.request path : PyM W' (Json F)) o =
      (.ok (.obj (bundle.document ++ extra)), o') := by
    refine (PyM.bind_of_ok hopen).trans ?_
    show (loadsText text, o') = _
    rw [loadsText, hloads]
    rfl
  rw [ControlPlaneClient.get_eq, hpath, PyM.bind_of_ok hdocument]
  exact PyM.bind_of_ok (PolicyBundle.fromDict_carried hstored.mapping
    (PolicyBundle.carriedBy_append extra) hnow)

omit [LE Y] [PyValues F] in
theorem outsideWire_of_ok {x : PyM W α} {v : PolicyWire F Str Str W X Y O} {a : α} {o : W}
    (h : x v.api.service.outside = (.ok a, o)) : outsideWire x v = (.ok a, v.setOutside o) := by
  have hrun : outsideWire x v = ((x v.api.service.outside).1,
    v.setOutside (x v.api.service.outside).2) := rfl
  rw [hrun, h]

/-- A client's signer verifies the bundles of its key id. -/
theorem verify_wired {bundle : PolicyBundle F} (hgives : server.api.service.Gives bundle)
    (htrusts : signer.Trusts server.api.service) (hkey : bundle.signerKeyId = signer.keyId)
    (v : PolicyWire F Str Str W X Y O) :
    ∃ payload, bundle.verify server.api.service.hash signer.wired v = (.ok (), v.setOutside
      (signer.verify payload bundle.signature v.api.service.outside).2) := by
  have haccept : ∀ keyId maker payload o o', server.api.service.signers keyId = some maker →
      maker.keyId = signer.keyId → maker.sign payload o = (.ok bundle.signature, o') →
      ((signer.wired : PolicySigner (PolicyWire F Str Str W X Y O)).verify payload
        bundle.signature v).1 = .ok true := by
    intro keyId maker payload o o' hmaker hsame hsign
    exact htrusts keyId maker hmaker hsame payload _ o o' hsign v.api.service.outside
  have hsame : (signer.wired : PolicySigner (PolicyWire F Str Str W X Y O)).keyId =
      bundle.signerKeyId := hkey.symm
  exact hgives.verify hsame haccept

/-- What a client gets, and what the same read yields in the process of the
service. -/
theorem get_cases (bearerToken : Str) (signer : PolicySigner W) (hweb : PolicyWeb baseUrl server)
    (hsqlite : server.api.service.store = sqliteStore)
    (hclock : ∀ o, ∃ text o', utcNow o = (.ok text, o'))
    {v : PolicyWire F Str Str W X Y O} (hstock : server.api.service.Stocked v.api.service)
    (hroutable : request.Routable) :
    (∃ bundle v' now o', server.asked (ControlPlaneClient.headers bearerToken) request v =
        (.ok bundle, v') ∧ server.api.service.Gives bundle ∧ bundle.key = request.key ∧
      utcNow v'.api.service.outside = (.ok now, o') ∧
      (server.client baseUrl bearerToken signer utcNow).get request.key request.agent v = (do
        bundle.verify server.api.service.hash signer.wired
        return bundle) (v'.setOutside o')) ∨
    ∃ e v' message, server.asked (ControlPlaneClient.headers bearerToken) request v =
        (.error e, v') ∧
      (server.client baseUrl bearerToken signer utcNow).get (F := F) request.key request.agent v =
        (.error (controlPlaneError message), v') := by
  obtain ⟨w, reachable⟩ := v
  obtain ⟨path, hpath, hasked⟩ := PolicyRead.exists_path (F := F) hroutable
  have hasked := hasked (server.client baseUrl bearerToken signer utcNow)
  have hparse := hweb.read (ControlPlaneClient.headers bearerToken) request path hroutable hpath
  cases reachable with
  | false =>
    -- `urlopen` raises `URLError`, which is an `OSError`
    have hopen : (server.client baseUrl bearerToken signer utcNow).urlopen (baseUrl ++ path)
        ⟨w, false⟩ = (.ok .osError, ⟨w, false⟩) := rfl
    obtain ⟨message, hget⟩ := get_of_refusal hasked hopen .osError
    exact .inr ⟨_, ⟨w, false⟩, message, rfl, hget⟩
  | true =>
    have hwire : server.asked (ControlPlaneClient.headers bearerToken) request ⟨w, true⟩ =
      ((server.ask (ControlPlaneClient.headers bearerToken) request w).1,
        ⟨(server.ask (ControlPlaneClient.headers bearerToken) request w).2, true⟩) := rfl
    rw [hwire]
    rcases hask : server.ask (ControlPlaneClient.headers bearerToken) request w with ⟨e | bundle, w'⟩
    · obtain ⟨answer, hhandle, hrefusal⟩ := handle_of_error hparse hask
      have hopen : (server.client baseUrl bearerToken signer utcNow).urlopen (baseUrl ++ path)
          ⟨w, true⟩ = (.ok answer, ⟨w', true⟩) := by
        refine urlopen_reachable.trans ?_
        rw [hhandle]
      obtain ⟨message, hget⟩ := get_of_refusal hasked hopen hrefusal
      exact .inr ⟨e, ⟨w', true⟩, message, rfl, hget⟩
    · obtain ⟨hgives, hkey⟩ := gives_of_ask hsqlite hstock hask
      obtain ⟨text, extra, hhandle, hloads⟩ :=
        handle_of_ok hweb hparse hask (hgives.isStored hsqlite)
      have hopen : (server.client baseUrl bearerToken signer utcNow).urlopen (baseUrl ++ path)
          ⟨w, true⟩ = (.ok (.body text), ⟨w', true⟩) := by
        refine urlopen_reachable.trans ?_
        rw [hhandle]
      obtain ⟨now, o', hnow⟩ := hclock w'.service.outside
      refine .inl ⟨bundle, ⟨w', true⟩, now, o', rfl, hgives, hkey, hnow, ?_⟩
      exact get_of_body hasked hopen hloads (hgives.isStored hsqlite) (outsideWire_of_ok hnow)

/-- A client over HTTP gets what the same read yields in the process of the
service, if that was signed under the key id of the client's signer; otherwise
it raises. -/
theorem policy_delivered [PyDecimalFloat F] (hweb : PolicyWeb baseUrl server)
    (hsqlite : server.api.service.store = sqliteStore)
    (htrusts : signer.Trusts server.api.service)
    (hclock : ∀ o, ∃ text o', utcNow o = (.ok text, o')) {w₀ : ApiWorld F Str Str W X Y O}
    (hnew : PolicyStore.NewStore w₀.service.store) {v : PolicyWire F Str Str W X Y O}
    (hserves : ApiServes server.api w₀ v.api) (hroutable : request.Routable) :
    ((server.client baseUrl bearerToken signer utcNow).get request.key request.agent v).1.toOption =
      (server.asked (ControlPlaneClient.headers bearerToken) request v).1.toOption.filter
        fun bundle => bundle.signerKeyId = signer.keyId := by
  have hstock := hserves.stocked (ControlPlaneService.stocked_new hnew)
  rcases get_cases bearerToken signer hweb hsqlite hclock hstock hroutable with
    ⟨bundle, v', now, o', hasked, hgives, -, -, hget⟩ | ⟨e, v', message, hasked, hget⟩
  · rw [hget, hasked]
    by_cases hkey : bundle.signerKeyId = signer.keyId
    -- the service signed under this key id, with a signer that agrees
    · obtain ⟨payload, hverified⟩ := verify_wired hgives htrusts hkey (v'.setOutside o')
      rw [PyM.bind_of_ok hverified]
      show some bundle = Option.filter _ (some bundle)
      rw [Option.filter_some, if_pos (decide_eq_true hkey)]
    · have hdiffers : (signer.wired : PolicySigner (PolicyWire F Str Str W X Y O)).keyId ≠
          bundle.signerKeyId := Ne.symm hkey
      have hother := hgives.verify_other hdiffers (v'.setOutside o')
      rw [PyM.bind_of_error hother]
      show none = Option.filter _ (some bundle)
      rw [Option.filter_some, if_neg (mt of_decide_eq_true hkey)]
  · rw [hget, hasked]
    rfl

end PolicyServer

namespace PolicyFramework

/-! ### A policy over HTTP -/

/-- A policy that the principal of the server publishes. -/
def policyBody : RequestBody SmallFloat := [(lit "policy", .obj [
  (lit "guardrails", .obj [(lit "max_steps", .int 1), (lit "max_tool_calls", .int 1),
    (lit "max_cost_usd", .float (.finite .one))]),
  (lit "decision_policy", .obj [(lit "min_confidence", .float (.finite .half)),
    (lit "w_prob", .float (.finite .half)), (lit "w_margin", .int 0), (lit "w_z", .int 0),
    (lit "w_entropy", .int 0), (lit "w_llm", .int 0)])])]

def policyKey : PolicyKey := ⟨lit "a", lit "policy", lit "prod"⟩

/-- The control plane once version 1 is published and activated. -/
def published : ApiWorld SmallFloat Str Str Unit Str Str Unit :=
  let w := (sampleApi.handle sampleMoment alice (.publishPolicy policyKey (lit "1") policyBody)
    newApiWorld).2
  (sampleApi.handle sampleMoment alice (.activatePolicy policyKey (lit "1") []) w).2

def sampleServer : PolicyServer SmallFloat Str Str Unit Str Str Unit :=
  server sampleApi alice (lit "https://control")

def clientSigner : PolicySigner Unit := hmacSigner (default : Sha256).hexdigest (lit "hmac-default")

theorem trusts_clientSigner : clientSigner.Trusts sampleServer.api.service := by
  intro keyId maker hconfigured hsame payload signature o o' hsign v
  obtain ⟨rfl, hmaker⟩ := Option.ite_none_right_eq_some.mp hconfigured
  obtain rfl := Option.some.inj hmaker
  have hagrees : clientSigner.Agrees := by
    refine hmacSigner_agrees (fun m c hc => ?_) _
    rcases (default : Sha256).hexdigest_hex m c hc with ⟨-, h⟩ | ⟨-, h⟩
    · omega
    · omega
  have hvalid := hagrees payload signature o o' hsign v
  rw [hvalid]

theorem serves_published : ApiServes sampleServer.api newApiWorld published :=
  .request (.request (.refl newApiWorld) _ _ _) _ _ _

theorem isSegment_of_ascii {text : Str} (h : text ≠ [] ∧ ∀ c ∈ text, c ≠ 47 ∧ c < 0xD800) :
    IsSegment text :=
  ⟨h.1, fun hc => (h.2 47 hc).1 rfl, scalars_of_lt fun c hc => (h.2 c hc).2⟩

def activeRead : PolicyRead := ⟨policyKey, none⟩

theorem routable_activeRead : activeRead.Routable where
  organizationId := isSegment_of_ascii (by decide)
  name := isSegment_of_ascii (by decide)
  environment := isSegment_of_ascii (by decide)
  agent _ h := by cases h

theorem web_sampleServer : PolicyWeb (lit "https://control") sampleServer :=
  web sampleApi alice (lit "https://control")

theorem store_sampleServer : sampleServer.api.service.store = sqliteStore := rfl

/-- The clock of the client. -/
def utcNow : PyM Unit Str := return lit "2024-01-01"

theorem utcNow_shows (o : Unit) : ∃ text o', utcNow o = (.ok text, o') := ⟨_, _, rfl⟩

/-- Everyone reaches the control plane. -/
def wire : PolicyWire SmallFloat Str Str Unit Str Str Unit := ⟨published, true⟩

theorem serves_wire : ApiServes sampleServer.api newApiWorld wire.api := by
  unfold wire
  dsimp only
  exact serves_published

/-- The client gets version 1 of the policy. -/
theorem policy_delivered_sample :
    ((sampleServer.client (lit "https://control") [] clientSigner utcNow).get activeRead.key
        activeRead.agent wire).1.toOption =
      (sampleServer.asked (ControlPlaneClient.headers []) activeRead wire).1.toOption.filter
        (fun bundle => bundle.signerKeyId = clientSigner.keyId) ∧
    (sampleServer.asked (ControlPlaneClient.headers []) activeRead wire).1.toOption.map
        (fun bundle => (bundle.version, bundle.signerKeyId)) =
      some (lit "1", lit "hmac-default") := by
  have hnew : PolicyStore.NewStore newApiWorld.service.store := rfl
  refine ⟨?_, by decide +kernel⟩
  exact PolicyServer.policy_delivered web_sampleServer store_sampleServer trusts_clientSigner
    utcNow_shows hnew serves_wire routable_activeRead

end PolicyFramework

end AgentRoi
