/-
Hashes over documents that a `jsonb` column gives back.

* `canonicalJson_stored_fields` — the text of a dictionary whose fields are
  what the column gives back;
* `baseFields_text_iff` — what `verify` hashes is what was hashed exactly when
  the payload survives the column;
* `good_of_survives`, `survives_of_good` — hence which recorded rows `verify`
  accepts;
* `jsonb_keeps_hashes_iff` — which recorded logs and which published policies
  verify.
-/
import AgentRoi.PolicyPublication
import AgentRoi.PostgresAudit

namespace AgentRoi

variable {F : Type}

/-! ### Documents that come back as objects -/

theorem obj_of_same {value : Json F} {members : List (Str × Json F)}
    (h : value.Same (.obj members)) : ∃ found, value = .obj found := by
  cases value with
  | obj found => exact ⟨found, rfl⟩
  | arr xs =>
    rw [Json.Same, Json.sortKeys_arr, Json.sortKeys_obj] at h
    cases h
  | _ =>
    rw [Json.Same, Json.sortKeys_obj] at h
    cases h

section

variable [PyFloat F] [PyDecimalFloat F]

/-- A document that survives comes back as it was. -/
theorem stored_of_survives {j : Json F} (h : j.Survives) : j.stored = j := by
  induction h with
  | float hexact => exact storedFloat_of_exact hexact
  | arr _ ih => rw [Json.stored_arr, Json.map_eq_self_iff.mpr ih]
  | obj _ ih =>
    rw [Json.stored_obj, Json.map_eq_self_iff.mpr]
    intro p hp
    rw [ih p hp]
  | _ => rfl

/-- The text of a dictionary that came back, from the fields that did. -/
theorem canonicalJson_stored_fields {d d' : PyDict F} (hd : (d.map Prod.fst).Nodup)
    (hd' : (d'.map Prod.fst).Nodup) {value : Json F} (hdistinct : value.Distinct)
    (hsame : value.Same (toJsonable (.ofFields d)).sortKeys.stored)
    (hfields : List.Forall₂ (fun p q => p.1 = q.1 ∧
      (toJsonable q.2).sortKeys = (toJsonable p.2).sortKeys.stored.nameFloats) d d') :
    canonicalJson (PyVal.ofJson value) = canonicalJson (.ofFields d') := by
  have hsorted : ∀ {c : PyDict F}, (c.map Prod.fst).Nodup →
      (toJsonable (.ofFields c)).sortKeys = .obj (storedFields c) := by
    intro c hc
    have hloads := loads_stableJson hc
    rw [stableJson, loads_canonicalJson] at hloads
    exact Option.some.inj hloads
  have hmap : d'.map (fun q => (q.1, (toJsonable q.2).sortKeys)) =
      (d.map fun p => (p.1, (toJsonable p.2).sortKeys)).map
        fun p => (p.1, p.2.stored.nameFloats) := by
    clear hd hd' hsame
    induction hfields with
    | nil => rfl
    | cons hpq _ ih => rw [List.map_cons, List.map_cons, List.map_cons, ih, hpq.1, hpq.2]
  rw [canonicalJson_eq_iff, Json.Same, hsorted hd', storedFields, hmap, canonicalJson_stored hdistinct hsame,
    Json.sortKeys_nameFloats, Json.sortKeys_stored, Json.sortKeys_sortKeys, hsorted hd,
    Json.stored_obj, Json.nameFloats_obj, List.map_map,
    sortByKey_map_snd (f := fun v : Json F => v.stored.nameFloats)]
  rfl

end

/-! ### Recorded rows -/

namespace PostgresAuditStore

section

variable [PyFloat F] [PyDecimalFloat F] {driver : PgDriver F} {H : Sha256}
  (hdriver : driver.KeepsDocuments) {e : AuditEvent F} {row : PgAuditRow F}
  (hrow : rowOf driver e = .ok row)
include hdriver hrow

/-- The payload column gives an object back. -/
theorem payload_of_rowOf : ∃ members, row.payloadJson = .obj members ∧
    (Json.obj members).Distinct ∧
    (Json.obj members).Same (toJsonable (.dict e.payload)).sortKeys.stored := by
  obtain ⟨-, hpayload, -⟩ := rowOf_eq_ok hrow
  have hdistinct := hdriver.distinct _ _ hpayload
  have hsame := hdriver.same hpayload
  obtain ⟨members, hmembers⟩ : ∃ members, row.payloadJson = .obj members := by
    rw [toJsonable, Json.sortKeys_obj, Json.stored_obj] at hsame
    exact obj_of_same hsame
  rw [hmembers] at hdistinct hsame
  exact ⟨members, hmembers, hdistinct, hsame⟩

/-- What is hashed again is what was hashed exactly when the payload survives
the column. -/
theorem baseFields_text_iff (hprev : row.prevHash.map strip = e.prevHash) :
    canonicalJson (.ofFields (baseFields row row.payloadJson)) = canonicalJson (.ofFields e.baseDict) ↔
      (toJsonable (.dict e.payload)).Survives := by
  obtain ⟨members, hmembers, hdistinct, hsame⟩ := payload_of_rowOf hdriver hrow
  obtain ⟨-, -, -, -, -, hid, hcorrelation, hrun, hts, htype⟩ := rowOf_eq_ok hrow
  rw [← canonicalJson_stored_iff hdistinct hsame, hmembers]
  have hkeys : ((baseFields row (.obj members)).map Prod.fst).Nodup := e.nodup_keys_baseDict
  constructor
  · intro htext
    exact canonicalJson_field hkeys e.nodup_keys_baseDict htext
      (k := lit "payload") rfl rfl
  · intro hpayload
    refine canonicalJson_ofFields_congr hkeys ?_
    unfold baseFields AuditEvent.baseDict
    rw [hid, hcorrelation, hrun, hts, htype, hprev]
    exact .cons ⟨rfl, rfl⟩ <| .cons ⟨rfl, rfl⟩ <| .cons ⟨rfl, rfl⟩ <| .cons ⟨rfl, rfl⟩ <|
      .cons ⟨rfl, rfl⟩ <| .cons ⟨rfl, hpayload⟩ <| .cons ⟨rfl, rfl⟩ .nil

/-- The other column gives the same event back: both went the same way. -/
theorem columns_agree (hprev : row.prevHash.map strip = e.prevHash)
    (hhash : row.eventHash.map strip = e.hash) : ∃ members, row.eventJson = .obj members ∧
      canonicalJson (PyVal.ofJson (.obj members)) =
        canonicalJson (.ofFields (denormalized row row.payloadJson)) := by
  obtain ⟨payload, hpayload, hdistinct, hsame⟩ := payload_of_rowOf hdriver hrow
  obtain ⟨-, -, -, -, hevent, hid, hcorrelation, hrun, hts, htype⟩ := rowOf_eq_ok hrow
  have hdistinctEvent := hdriver.distinct _ _ hevent
  have hsameEvent := hdriver.same hevent
  obtain ⟨members, hmembers⟩ : ∃ members, row.eventJson = .obj members := by
    rw [PyVal.ofFields, toJsonable, Json.sortKeys_obj, Json.stored_obj] at hsameEvent
    exact obj_of_same hsameEvent
  rw [hmembers] at hdistinctEvent hsameEvent
  refine ⟨members, hmembers, ?_⟩
  have hkeys : ((denormalized row row.payloadJson).map Prod.fst).Nodup := e.nodup_keys_toDict
  refine canonicalJson_stored_fields e.nodup_keys_toDict hkeys hdistinctEvent hsameEvent ?_
  have hoptional : ∀ text : Option Str, (toJsonable (PyVal.ofOptStr text : PyVal F)).sortKeys =
      (toJsonable (PyVal.ofOptStr text : PyVal F)).sortKeys.stored.nameFloats := by
    intro text
    cases text <;> rfl
  have hback : (toJsonable (PyVal.ofJson row.payloadJson)).sortKeys =
      (toJsonable (.dict e.payload)).sortKeys.stored.nameFloats := by
    rw [hpayload, canonicalJson_stored hdistinct hsame, Json.sortKeys_nameFloats,
      Json.sortKeys_stored, Json.sortKeys_sortKeys]
  unfold denormalized baseFields AuditEvent.toDict AuditEvent.baseDict
  rw [hid, hcorrelation, hrun, hts, htype, hprev, hhash]
  exact .cons ⟨rfl, rfl⟩ <| .cons ⟨rfl, rfl⟩ <| .cons ⟨rfl, rfl⟩ <| .cons ⟨rfl, rfl⟩ <|
    .cons ⟨rfl, rfl⟩ <| .cons ⟨rfl, hback⟩ <| .cons ⟨rfl, hoptional _⟩ <|
    .cons ⟨rfl, hoptional _⟩ .nil

end

/-- The messages that are hashed when the events are recorded and when the
table is verified. -/
def hashedMessages [PyFloat F] (events : List (AuditEvent F)) (s : PostgresAuditStore F) :
    Set (List UInt8) :=
  {message | (∃ e ∈ events, encodeUtf8 (canonicalJson (.ofFields e.baseDict)) = some message) ∨
    ∃ row ∈ s.rows, ∃ payload, payloadObject row.payloadJson = .ok payload ∧
      encodeUtf8 (canonicalJson (.ofFields (baseFields row payload))) = some message}

section

variable [PyFloat F] [PyDecimalFloat F] {driver : PgDriver F} {H : Sha256} {hashChain : Bool}
  (hdriver : driver.KeepsDocuments) {e : AuditEvent F} {row : PgAuditRow F}
  (hrow : rowOf driver e = .ok row) (hsealed : e.Sealed H hashChain)
  (hprev : row.prevHash.map strip = e.prevHash) (hhash : row.eventHash.map strip = e.hash)
include hdriver hrow hsealed hprev hhash

theorem good_of_survives
    (hsurvives : hashChain = true → (toJsonable (.dict e.payload)).Survives) :
    Good H hashChain row := by
  obtain ⟨members, hmembers, htext⟩ := columns_agree hdriver hrow hprev hhash
  obtain ⟨payload, hpayload, -⟩ := payload_of_rowOf hdriver hrow
  refine ⟨members, row.payloadJson, by rw [hmembers]; rfl, by rw [hpayload]; rfl, htext, ?_⟩
  cases hashChain with
  | false => exact hhash.trans hsealed
  | true =>
    obtain ⟨d, hd, hdigest⟩ := hsealed
    refine ⟨d, hhash.trans hd, ?_⟩
    rw [digestValue_congr ((baseFields_text_iff hdriver hrow hprev).mpr (hsurvives rfl))]
    exact hdigest

/-- Unless two of the hashed messages collide. -/
theorem survives_of_good {messages : Set (List UInt8)} (hinj : Set.InjOn H.hexdigest messages)
    (hrecorded : ∀ m, encodeUtf8 (canonicalJson (.ofFields e.baseDict)) = some m → m ∈ messages)
    (hverified : ∀ payload m, payloadObject row.payloadJson = .ok payload →
      encodeUtf8 (canonicalJson (.ofFields (baseFields row payload))) = some m → m ∈ messages)
    (hgood : Good H hashChain row) (hchain : hashChain = true) :
    (toJsonable (.dict e.payload)).Survives := by
  subst hchain
  obtain ⟨payload, hpayload, -⟩ := payload_of_rowOf hdriver hrow
  obtain ⟨d, hd, hdigest⟩ := hsealed
  obtain ⟨members, found, -, hfound, -, d', hd', hdigest'⟩ := hgood
  have hobject : payloadObject row.payloadJson = .ok row.payloadJson := by
    rw [hpayload]
    rfl
  rw [hobject] at hfound
  cases hfound
  rw [hhash, hd] at hd'
  cases hd'
  -- equal digests, hence equal messages, hence equal texts
  obtain ⟨m, hm, hdm⟩ := digestValue_eq_ok_iff.mp hdigest
  obtain ⟨m', hm', hdm'⟩ := digestValue_eq_ok_iff.mp hdigest'
  have hsame : m' = m :=
    hinj (hverified _ m' hobject hm') (hrecorded m hm) (hdm'.symm.trans hdm)
  rw [hsame] at hm'
  exact (baseFields_text_iff hdriver hrow hprev).mp (encodeUtf8_inj hm' hm)

end

/-- Rows and events, pair by pair. -/
theorem Holds.pairs [PyFloat F] {driver : PgDriver F} {H : Sha256} {hashChain : Bool}
    {log : List (AuditEvent F)} {s : PostgresAuditStore F} (hs : Holds driver H hashChain log s) :
    List.Forall₂ (fun row e => rowOf driver e = .ok row ∧ row.prevHash.map strip = e.prevHash ∧
      row.eventHash.map strip = e.hash) s.rows log := by
  have hrows := List.forall₂_iff_get.mp hs.rows
  have hrel := List.forall₂_iff_get.mp hs.rel
  exact List.forall₂_iff_get.mpr
    ⟨hrows.1, fun i hi hj => ⟨hrows.2 i hi hj, (hrel.2 i hi hj).2⟩⟩

section

variable [PyFloat F] [PyDecimalFloat F] {driver : PgDriver F} {H : Sha256} {hashChain : Bool}
  {log : List (AuditEvent F)} {s : PostgresAuditStore F}
  (hdriver : driver.KeepsDocuments) (hs : Holds driver H hashChain log s)
include hdriver hs

theorem verify_of_survives
    (hsurvives : hashChain = true → ∀ e ∈ log, (toJsonable (.dict e.payload)).Survives) :
    s.verify H = .ok log.length := by
  refine verify_eq_ok_iff.mpr ⟨⟨(ChainLog.linked_rel hs.rel).mpr hs.verified.linked, ?_⟩,
    hs.rows.length_eq.symm⟩
  intro row hmem
  obtain ⟨e, he, hrow, hprev, hhash⟩ := exists_of_forall₂ hs.pairs hmem
  rw [hs.hashChain_eq]
  exact good_of_survives hdriver hrow (hs.verified.sealed e he) hprev hhash
    fun hchain => hsurvives hchain e he

theorem survives_of_verify (hinj : Set.InjOn H.hexdigest (hashedMessages log s)) {n : Nat}
    (hverify : s.verify H = .ok n) (hchain : hashChain = true) {e : AuditEvent F} (he : e ∈ log) :
    (toJsonable (.dict e.payload)).Survives := by
  obtain ⟨row, hmem, hrow, hprev, hhash⟩ := exists_of_forall₂ hs.pairs.flip he
  obtain ⟨⟨-, hgood⟩, -⟩ := verify_eq_ok_iff.mp hverify
  have hrowGood := hgood row hmem
  rw [hs.hashChain_eq] at hrowGood
  exact survives_of_good hdriver hrow (hs.verified.sealed e he) hprev hhash hinj
    (fun m hm => .inl ⟨e, he, hm⟩) (fun payload m hpayload hm => .inr ⟨row, hmem, payload, hpayload, hm⟩)
    hrowGood hchain

end

/-- What an event keeps of a payload survives with it. -/
theorem survives_safePayload [PyFloat F] {payload : List (PyKey F × PyVal F)} :
    (toJsonable (.dict (safePayload (.dict payload)))).Survives ↔
      (toJsonable (.dict payload)).Survives := by
  have hclean := toJsonable_clean (PyVal.dict payload)
  rw [toJsonable] at hclean
  have hback : toJsonable (.dict (safePayload (.dict payload))) =
      (toJsonable (.dict payload)).sortKeys := by
    rw [safePayload, toJsonable]
    have hjson := toJsonable_ofJson hclean.distinct
    rwa [hclean.nameFloats, PyVal.ofJson] at hjson
  rw [hback, Json.survives_sortKeys]

end PostgresAuditStore

/-! ### Published policies -/

/-- PostgreSQL gives a saved bundle back, with the numbers that the column
keeps. -/
theorem bundleOfRow_stored [PyFloat F] [PyDecimalFloat F] {driver : PgPolicyDriver F}
    (hdriver : driver.toPgDriver.KeepsDocuments) {bundle : PolicyBundle F}
    {members : List (Str × Json F)} {row : BundleRow (Json F) Instant}
    (hpolicy : bundle.policy = .obj members) (hclean : (Json.obj members).Clean)
    (h : rowOfBundle (postgresPolicyFormat driver) bundle = .ok row) :
    ∃ back found, bundleOfRow (postgresPolicyFormat driver) row = .ok back ∧
      back.key = bundle.key ∧ back.version = bundle.version ∧ back.digest = bundle.digest ∧
      back.signature = bundle.signature ∧ back.signerKeyId = bundle.signerKeyId ∧
      back.policy = .obj found ∧ (Json.obj found).Distinct ∧
      (Json.obj found).Same (toJsonable (PyVal.ofJson bundle.policy)).sortKeys.stored := by
  obtain ⟨-, -, payload, created, hpayload, -, rfl⟩ := rowOfBundle_eq_ok h
  have hwritten : driver.jsonb (canonicalJson (PyVal.ofJson bundle.policy)) = some payload := by
    show driver.toPgDriver.jsonb _ = _
    cases hjson : driver.toPgDriver.jsonb (canonicalJson (PyVal.ofJson bundle.policy)) with
    | none =>
      rw [show (postgresPolicyFormat driver).writeJson _ = _ from rfl] at hpayload
      simp only [postgresPolicyFormat, hjson] at hpayload
      cases hpayload
    | some found =>
      simp only [postgresPolicyFormat, hjson] at hpayload
      exact congrArg some (Except.ok.inj hpayload)
  have hdistinct := hdriver.distinct _ _ hwritten
  have hsame := hdriver.same hwritten
  obtain ⟨found, rfl⟩ : ∃ found, payload = .obj found := by
    rw [hpolicy, toJsonable_ofJson hclean.distinct, hclean.nameFloats, Json.sortKeys_sortKeys,
      Json.sortKeys_obj, Json.stored_obj] at hsame
    exact obj_of_same hsame
  exact ⟨_, found, rfl, rfl, rfl, rfl, rfl, rfl, rfl, hdistinct, hsame⟩

/-- The message determines the text of the policy in it. -/
theorem PolicyBundle.policy_of_envelope [PyFloat F] {key : PolicyKey} {version : Str}
    {policy policy' : List (Str × Json F)} {payload : List UInt8}
    (h : envelope key version policy = .ok payload)
    (h' : envelope key version policy' = .ok payload) :
    canonicalJson (PyVal.ofJson (.obj policy)) = canonicalJson (PyVal.ofJson (.obj policy')) := by
  have hkeys : [lit "organization_id", lit "name", lit "environment", lit "version",
      lit "policy"].Nodup := by decide
  have htext := encodeUtf8_inj (envelope_eq_ok.mp h) (envelope_eq_ok.mp h')
  refine canonicalJson_field ?_ ?_ htext (k := lit "policy") rfl rfl
  · exact hkeys
  · exact hkeys

theorem PolicyBundle.signingPayload_eq [PyFloat F] {bundle : PolicyBundle F}
    {members : List (Str × Json F)} (h : bundle.policy = .obj members) :
    bundle.signingPayload = envelope bundle.key bundle.version members := by
  rw [signingPayload, h]
  rfl

namespace ControlPlaneService

section

variable [PyFloatOps F] [PyDecimalFloat F] {W : Type} {driver : PgPolicyDriver F}
  {service : ControlPlaneService F (Json F) Instant W}
  {bundle back : PolicyBundle F} {members : List (Str × Json F)}
  (hgenuine : service.Genuine bundle) (hkey : back.key = bundle.key)
  (hversion : back.version = bundle.version) (hdigest : back.digest = bundle.digest)
  (hmembers : back.policy = .obj members) (hdistinct : (Json.obj members).Distinct)
  (hsame : (Json.obj members).Same (toJsonable (PyVal.ofJson bundle.policy)).sortKeys.stored)
include hgenuine hkey hversion hdigest hmembers hdistinct hsame

omit [PyDecimalFloat F] hkey hversion hdigest hmembers hdistinct hsame in
theorem Genuine.toJsonable_policy :
    (toJsonable (PyVal.ofJson bundle.policy)).sortKeys = bundle.policy.sortKeys := by
  obtain ⟨_, _, policy, _, _, _, -, -, hpolicy, -⟩ := hgenuine
  have hclean := clean_normalized policy
  rw [hpolicy, toJsonable_ofJson hclean.distinct, hclean.nameFloats, Json.sortKeys_sortKeys]

/-- A genuine bundle whose policy survives the column still verifies. -/
theorem verifies_of_survives
    (hagree : ∀ keyId signer, service.signers keyId = some signer → signer.Agrees)
    (hsignature : back.signature = bundle.signature)
    (hsigner : back.signerKeyId = bundle.signerKeyId) (hsurvives : bundle.policy.Survives) :
    service.Verifies back := by
  refine hgenuine.verifies_same hagree hkey hversion hdigest hsignature hsigner hmembers hdistinct ?_
  rw [hgenuine.toJsonable_policy, stored_of_survives (Json.survives_sortKeys.mpr hsurvives)] at hsame
  exact hsame.trans (Json.same_sortKeys _)

/-- And only then, unless the two signed messages collide. -/
theorem survives_of_verifies {o : W} {signer : PolicySigner W}
    (hinj : Set.InjOn service.hash.hexdigest
      {message | bundle.signingPayload = .ok message ∨ back.signingPayload = .ok message})
    (hverify : (back.verify service.hash signer o).1 = .ok ()) : bundle.policy.Survives := by
  obtain ⟨_, _, policy, payload, _, _, -, -, hpolicy, hpayload, hhash, -⟩ := id hgenuine
  have hsigned : bundle.signingPayload = .ok payload :=
    (PolicyBundle.signingPayload_eq hpolicy).trans hpayload
  rcases hrun : back.verify service.hash signer o with ⟨r, o'⟩
  rw [hrun] at hverify
  obtain rfl : r = .ok () := hverify
  obtain ⟨payload', _, _, hpayload', hdigest', -⟩ := PolicyBundle.verify_eq_ok.mp hrun
  have hsamePayload : payload' = payload :=
    hinj (.inr hpayload') (.inl hsigned) (hdigest'.trans (hdigest.trans hhash))
  rw [PolicyBundle.signingPayload_eq hmembers, hkey, hversion, hsamePayload] at hpayload'
  have hpolicyText : canonicalJson (PyVal.ofJson (.obj members)) =
      canonicalJson (PyVal.ofJson bundle.policy) := by
    rw [hpolicy]
    exact PolicyBundle.policy_of_envelope hpayload' hpayload
  have hsurvives := (canonicalJson_stored_iff hdistinct hsame).mp hpolicyText
  rw [← Json.survives_sortKeys, hgenuine.toJsonable_policy, Json.survives_sortKeys] at hsurvives
  exact hsurvives

end

/-- The bundle that `get_bundle` answers with after a publication, whatever
`publish_policy` raised after it had saved the bundle. -/
theorem reads_stored [PyFloatOps F] [PyDecimalFloat F] {W : Type} {driver : PgPolicyDriver F}
    (hdriver : driver.toPgDriver.KeepsDocuments)
    {service : ControlPlaneService F (Json F) Instant W}
    (hpostgres : service.store = postgresStore driver)
    (hagree : ∀ keyId signer, service.signers keyId = some signer → signer.Agrees)
    {key : PolicyKey} {version : Str} {policy : List (PyKey F × PyVal F)}
    {createdBy signerKeyId : Str} {r : Except PyExc (PolicyBundle F)}
    {w w' : ServiceWorld F (Json F) Instant W}
    (h : service.publishPolicy key version policy createdBy signerKeyId w = (r, w'))
    (hstored : w'.store.tables ≠ w.store.tables) :
    ∃ published back, (∀ bundle, r = .ok bundle → bundle = published) ∧
      published.policy = .obj (PolicyBundle.normalized policy) ∧
      service.Reads w' key version back ∧
      (published.policy.Survives → service.Verifies back) ∧
      (Set.InjOn service.hash.hexdigest
          {message | published.signingPayload = .ok message ∨ back.signingPayload = .ok message} →
        service.Verifies back → published.policy.Survives) := by
  rcases publishPolicy_eq h with ⟨-, ⟨hstore, -⟩ | ⟨published, t, hcreates, hwrite, hstore, hr⟩⟩
  · exact absurd (congrArg StoreWorld.tables hstore) hstored
  obtain ⟨hgenuine, rfl, rfl, hpolicy⟩ := hcreates.genuine
  obtain ⟨row, hrow, hsaved⟩ := row_of_saveBundle hwrite
  obtain ⟨back, members, hback, hkey, hversion, hdigest, hsignature, hsigner, hmembers, hdistinct,
      hsame⟩ := by
    rw [hpostgres] at hsaved
    exact bundleOfRow_stored hdriver hpolicy (clean_normalized policy) hsaved
  refine ⟨published, back, hr, hpolicy, ?_, ?_, ?_⟩
  · have hrow' : w'.store.tables.bundle published.key published.version = some row := by
      rw [hstore]
      exact hrow
    refine reads_of_saved hrow' hsaved ?_
    rw [hpostgres]
    exact hback
  · exact verifies_of_survives hgenuine hkey hversion hdigest hmembers hdistinct hsame hagree
      hsignature hsigner
  · rintro hinj ⟨_, signer, -, -, hverify⟩
    exact survives_of_verifies hgenuine hkey hversion hdigest hmembers hdistinct hsame hinj
      (hverify w.outside)

end ControlPlaneService

/-- Which recorded logs and which published policies verify after they went
through `jsonb` columns: those without a hash, and those whose floats survive.
The others do not, unless two of the messages that are hashed collide. -/
theorem jsonb_keeps_hashes_iff [PyFloatOps F] [PyDecimalFloat F] {driver : PgPolicyDriver F}
    (hdriver : driver.toPgDriver.KeepsDocuments) :
    (∀ (H : Sha256) (hashChain : Bool) (calls : List (RecordCall F)) (events : List (AuditEvent F))
        (s : PostgresAuditStore F),
      PostgresAuditStore.recordAll driver.toPgDriver H calls (.empty hashChain) = (.ok events, s) →
      ((hashChain = true → ∀ call ∈ calls, (toJsonable (.dict call.payload)).Survives) →
        s.verify H = .ok calls.length) ∧
      (Set.InjOn H.hexdigest (PostgresAuditStore.hashedMessages events s) →
        s.verify H = .ok calls.length →
        hashChain = true → ∀ call ∈ calls, (toJsonable (.dict call.payload)).Survives)) ∧
    ∀ (W : Type) (service : ControlPlaneService F (Json F) Instant W),
      service.store = postgresStore driver →
      (∀ keyId signer, service.signers keyId = some signer → signer.Agrees) →
      ∀ (key : PolicyKey) (version : Str) (policy : List (PyKey F × PyVal F))
        (createdBy signerKeyId : Str) (r : Except PyExc (PolicyBundle F))
        (w w' : ServiceWorld F (Json F) Instant W),
      service.publishPolicy key version policy createdBy signerKeyId w = (r, w') →
      w'.store.tables ≠ w.store.tables →
      ∃ published back, (∀ bundle, r = .ok bundle → bundle = published) ∧
        published.policy = .obj (PolicyBundle.normalized policy) ∧
        service.Reads w' key version back ∧
        (published.policy.Survives → service.Verifies back) ∧
        (Set.InjOn service.hash.hexdigest
            {message | published.signingPayload = .ok message ∨ back.signingPayload = .ok message} →
          service.Verifies back → published.policy.Survives) := by
  constructor
  · intro H hashChain calls events s hrun
    obtain ⟨hs, hpayloads⟩ :=
      PostgresAuditStore.recordAll_run (PostgresAuditStore.holds_empty hashChain) hrun
    rw [List.nil_append] at hs
    have hlength : events.length = calls.length := by
      have hmap := congrArg List.length hpayloads
      rwa [List.length_map, List.length_map] at hmap
    -- the payloads of the events are those of the calls
    have hall : (∀ call ∈ calls, (toJsonable (.dict call.payload)).Survives) ↔
        ∀ e ∈ events, (toJsonable (.dict e.payload)).Survives := by
      have hmap : (∀ payload ∈ events.map AuditEvent.payload,
          (toJsonable (.dict payload)).Survives) ↔ _ := List.forall_mem_map
      rw [← hmap, hpayloads, List.forall_mem_map]
      exact forall₂_congr fun _ _ => PostgresAuditStore.survives_safePayload.symm
    rw [← hlength, hall]
    exact ⟨PostgresAuditStore.verify_of_survives hdriver hs,
      fun hinj hverify hchain e he =>
        PostgresAuditStore.survives_of_verify hdriver hs hinj hverify hchain he⟩
  · intro W service hpostgres hagree key version policy createdBy signerKeyId r w w' hrun hstored
    exact ControlPlaneService.reads_stored hdriver hpostgres hagree hrun hstored

/-! ### A float without decimals -/

theorem epoch_inRange : 0 < dayLimit * 86400000000 := by decide

/-- A server that orders no members, and knows one time. -/
def columnOfNumbers : PgPolicyDriver SmallFloat where
  jsonb text := (Json.loads text).map Json.stored
  timestamptz _ := some ⟨0, epoch_inRange⟩
  isoformat := Instant.isoformat

theorem columnOfNumbers_keeps : columnOfNumbers.toPgDriver.KeepsDocuments where
  reads text value h := by
    obtain ⟨document, hloads, rfl⟩ := Option.map_eq_some_iff.mp h
    exact ⟨document, hloads, .refl _⟩
  distinct text value h := by
    obtain ⟨document, hloads, rfl⟩ := Option.map_eq_some_iff.mp h
    exact (Json.loads_distinct hloads).stored

/-- `hmacService` over PostgreSQL. -/
def columnService : ControlPlaneService SmallFloat (Json SmallFloat) Instant Unit where
  store := postgresStore columnOfNumbers
  hash := lengthHash
  signers keyId :=
    if keyId = lit "hmac-default" then some (hmacSigner lengthHash.hexdigest keyId) else none
  defaultSignerKeyId := lit "hmac-default"
  default_configured := rfl
  requireSignedBundles := true
  eventSink := none
  utcNow := return lit "2024-01-01T00:00:00+00:00"
  eventStamp := return ([], [])

theorem columnService_agrees (keyId : Str) (signer : PolicySigner Unit)
    (h : columnService.signers keyId = some signer) : signer.Agrees := by
  obtain ⟨-, hsigner⟩ := Option.ite_none_right_eq_some.mp h
  obtain rfl := Option.some.inj hsigner
  refine hmacSigner_agrees (fun m c hc => ?_) keyId
  rcases lengthHash.hexdigest_hex m c hc with ⟨-, h⟩ | ⟨-, h⟩
  · omega
  · omega

def recordOf (x : SmallFloat) : RecordCall SmallFloat :=
  ⟨lit "e", 0, lit "c", lit "r", lit "t", [(.str (lit "x"), .float (.finite x))]⟩

/-- `samplePolicy` with a price of its own. -/
def policyAt (cost : SmallFloat) : List (PyKey SmallFloat × PyVal SmallFloat) := [
  (.str (lit "guardrails"), .ofFields [(lit "max_steps", .int 1), (lit "max_tool_calls", .int 1),
    (lit "max_cost_usd", .float (.finite cost))]),
  (.str (lit "decision_policy"), .ofFields [(lit "min_confidence", .float (.finite .half)),
    (lit "w_prob", .float (.finite .half)), (lit "w_margin", .int 0), (lit "w_z", .int 0),
    (lit "w_entropy", .int 0), (lit "w_llm", .int 0)])]

def emptyColumns : ServiceWorld SmallFloat (Json SmallFloat) Instant Unit := ⟨⟨.empty, []⟩, (), []⟩

def recordedColumns (x : SmallFloat) :
    Except PyExc (List (AuditEvent SmallFloat)) × PostgresAuditStore SmallFloat :=
  PostgresAuditStore.recordAll columnOfNumbers.toPgDriver lengthHash [recordOf x] (.empty true)

def publishedColumns (cost : SmallFloat) : Except PyExc (PolicyBundle SmallFloat) ×
    ServiceWorld SmallFloat (Json SmallFloat) Instant Unit :=
  columnService.publishPolicy PolicyStore.sampleKey (lit "1") (policyAt cost) (lit "admin") []
    emptyColumns

theorem survives_of_text {v : PyVal SmallFloat}
    (h : canonicalJson (PyVal.ofJson (toJsonable v).sortKeys.stored) = canonicalJson v) :
    (toJsonable v).Survives :=
  (canonicalJson_stored_iff (toJsonable_clean v).sortKeys.distinct.stored (.refl _)).mp h

/-- With the float 0.5, the table verifies and so does the bundle. -/
theorem jsonb_keeps_hashes_half : (recordedColumns .half).2.verify lengthHash = .ok 1 ∧
    ∃ back, columnService.Reads (publishedColumns .half).2 PolicyStore.sampleKey (lit "1") back ∧
      columnService.Verifies back := by
  obtain ⟨hlogs, hpolicies⟩ := jsonb_keeps_hashes_iff columnOfNumbers_keeps
  constructor
  · have hok : (recordedColumns .half).1.toBool = true := by decide +kernel
    rcases hrun : recordedColumns .half with ⟨e | events, s⟩
    · rw [hrun] at hok
      cases hok
    refine (hlogs lengthHash true [recordOf .half] events s hrun).1 fun _ call hcall => ?_
    rw [List.mem_singleton.mp hcall]
    exact survives_of_text (by decide +kernel)
  · have hstored : (publishedColumns .half).2.store.tables ≠ emptyColumns.store.tables := by
      intro hsame
      have hrows : (publishedColumns .half).2.store.tables.bundles.length ≠
          emptyColumns.store.tables.bundles.length := by decide +kernel
      exact hrows (congrArg (fun t => t.bundles.length) hsame)
    obtain ⟨published, back, -, hpolicy, hreads, hverifies, -⟩ :=
      hpolicies Unit columnService rfl columnService_agrees PolicyStore.sampleKey (lit "1")
        (policyAt .half) (lit "admin") [] (publishedColumns .half).1 emptyColumns
        (publishedColumns .half).2 Prod.mk.eta.symm hstored
    refine ⟨back, hreads, hverifies ?_⟩
    have hsurvives : (toJsonable (.dict (policyAt .half))).Survives :=
      survives_of_text (by decide +kernel)
    rw [toJsonable] at hsurvives
    rw [hpolicy]
    exact hsurvives

/-- With the float 1e+16, which comes back as the integer, neither does. -/
theorem jsonb_breaks_hashes_huge :
    ((recordedColumns .huge).1.toBool = true ∧
      (recordedColumns .huge).2.verify lengthHash ≠ .ok 1) ∧
    (publishedColumns .huge).1.toBool = true ∧
      ∀ back, columnService.Reads (publishedColumns .huge).2 PolicyStore.sampleKey (lit "1") back →
        ¬ columnService.Verifies back := by
  refine ⟨⟨by decide +kernel, by decide +kernel⟩, by decide +kernel, ?_⟩
  rintro back hreads ⟨_, signer, -, -, hverify⟩
  have hread : (columnService.store.findBundle PolicyStore.sampleKey (lit "1")
      (publishedColumns .huge).2.store.tables).map (fun back =>
        back.signingPayload.map fun payload =>
          decide (columnService.hash.hexdigest payload = back.digest)) = .ok (.ok false) := by
    decide +kernel
  rw [ControlPlaneService.reads_iff.mp hreads] at hread
  have hok := hverify ()
  rcases hrun : back.verify columnService.hash signer () with ⟨r, o⟩
  rw [hrun] at hok
  obtain rfl : r = .ok () := hok
  obtain ⟨payload, _, _, hpayload, hdigest, -⟩ := PolicyBundle.verify_eq_ok.mp hrun
  rw [Except.map, hpayload, Except.map, decide_eq_true hdigest] at hread
  cases hread

end AgentRoi
