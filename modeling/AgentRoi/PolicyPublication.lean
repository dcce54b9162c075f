/-
Published policies are immutable, and they verify.

* `Genuine` — a bundle that the service made: signed by a configured signer,
  with a policy that was accepted;
* `verifies_sorted` — what the database gives back for a genuine bundle, the
  same with the members of the policy sorted, verifies;
* `Grows` — tables that keep every bundle and gain genuine ones only;
* `PolicyCall`, `Serves` — calls of the service one after the other;
* `published_policies` — what holds of the bundles in any store that such
  calls bring about.
-/
import AgentRoi.PolicyActivation

namespace AgentRoi

variable {F V T W α : Type}

/-! ### The policy in the JSON column -/

section

variable [PyFloat F] {members : List (Str × Json F)}

theorem clean_normalized (policy : List (PyKey F × PyVal F)) :
    (Json.obj (PolicyBundle.normalized policy)).Clean := by
  have hclean := toJsonable_clean (PyVal.dict policy)
  rwa [toJsonable] at hclean

theorem toJsonable_sortedMembers (h : (Json.obj members).Distinct) :
    toJsonable (PyVal.ofJson (.obj (sortedMembers members))) =
      toJsonable (PyVal.ofJson (.obj members)) := by
  rw [← sortKeys_obj_eq, toJsonable_ofJson h.sortKeys, toJsonable_ofJson h,
    ← Json.sortKeys_nameFloats, Json.sortKeys_sortKeys]

/-- What is signed does not depend on the order of the members. -/
theorem envelope_sortedMembers (h : (Json.obj members).Distinct) (key : PolicyKey) (version : Str) :
    PolicyBundle.envelope key version (sortedMembers members) =
      PolicyBundle.envelope key version members := by
  unfold PolicyBundle.envelope
  simp only [canonicalJson, PyVal.ofFields, List.map_cons, List.map_nil, toJsonable,
    toJsonableItems, toJsonable_sortedMembers h]

/-- The column reads back with its members sorted. -/
theorem loads_policy (h : (Json.obj members).Clean) :
    Json.loads (canonicalJson (PyVal.ofJson (.obj members))) =
      some (.obj (sortedMembers members)) := by
  rw [loads_canonicalJson, toJsonable_ofJson h.distinct, h.nameFloats, Json.sortKeys_sortKeys,
    sortKeys_obj_eq]

end

/-- The bundle as the database gives it back. -/
def PolicyBundle.sorted (bundle : PolicyBundle F) : PolicyBundle F :=
  { bundle with policy := bundle.policy.sortKeys }

theorem asDict_sorted {policy : Json F} {members : List (Str × Json F)}
    (h : policy = .obj members) : asDict policy.sortKeys = .ok (sortedMembers members) := by
  rw [h, sortKeys_obj_eq]
  rfl

/-- What saving a bundle binds and writes. -/
theorem rowOfBundle_eq_ok [PyFloat F] {fmt : PolicyFormat F V T} {bundle : PolicyBundle F}
    {row : BundleRow V T} (h : rowOfBundle fmt bundle = .ok row) :
    fmt.bindKey bundle.key = .ok () ∧ fmt.bind bundle.version = .ok () ∧
      ∃ payload created, fmt.writeJson (canonicalJson (PyVal.ofJson bundle.policy)) = .ok payload ∧
        fmt.writeTime bundle.createdAtUtc = .ok created ∧
        row = ⟨bundle.key, bundle.version, payload, bundle.digest, bundle.signature,
          bundle.signerKeyId, bundle.status, created, bundle.createdBy⟩ := by
  simp only [rowOfBundle, except_bind_eq_ok] at h
  obtain ⟨_, hkey, _, hversion, payload, hpayload, _, -, _, -, _, -, _, -, created, hcreated, _, -,
    h⟩ := h
  exact ⟨hkey, hversion, payload, created, hpayload, hcreated, (Except.ok.inj h).symm⟩

/-- SQLite gives a saved bundle back, with the members of its policy sorted. -/
theorem bundleOfRow_sorted [PyFloat F] {bundle : PolicyBundle F} {members : List (Str × Json F)}
    {row : BundleRow Str Str} (hpolicy : bundle.policy = .obj members)
    (hclean : (Json.obj members).Clean) (h : rowOfBundle sqlitePolicyFormat bundle = .ok row) :
    bundleOfRow sqlitePolicyFormat row = .ok bundle.sorted := by
  obtain ⟨-, -, payload, created, hpayload, hcreated, rfl⟩ := rowOfBundle_eq_ok h
  obtain ⟨_, -, hpayload⟩ := except_bind_eq_ok.mp hpayload
  obtain ⟨_, -, hcreated⟩ := except_bind_eq_ok.mp hcreated
  cases hpayload
  cases hcreated
  have hread : sqlitePolicyFormat.readJson (canonicalJson (PyVal.ofJson bundle.policy)) =
      .ok bundle.policy.sortKeys := by
    show loadsText _ = _
    rw [loadsText, hpolicy, loads_policy hclean, sortKeys_obj_eq]
    rfl
  simp only [bundleOfRow, hread]
  rfl

namespace ControlPlaneService

variable [PyFloatOps F]

/-! ### Genuine bundles -/

/-- A bundle that the service made. -/
def Genuine (service : ControlPlaneService F V T W) (bundle : PolicyBundle F) : Prop :=
  ∃ keyId signer policy payload o o', service.signers keyId = some signer ∧
    bundle.signerKeyId = signer.keyId ∧
    bundle.policy = .obj (PolicyBundle.normalized policy) ∧
    PolicyBundle.envelope bundle.key bundle.version (PolicyBundle.normalized policy) = .ok payload ∧
    bundle.digest = service.hash.hexdigest payload ∧
    signer.sign payload o = (.ok bundle.signature, o') ∧
    ∃ accepted, policyFromMapping bundle.key.name (PolicyBundle.normalized policy) = .ok accepted

/-- A configured signer verifies the bundle, whatever the world outside. -/
def Verifies (service : ControlPlaneService F V T W) (bundle : PolicyBundle F) : Prop :=
  ∃ keyId signer, service.signers keyId = some signer ∧ signer.keyId = bundle.signerKeyId ∧
    ∀ o, (bundle.verify service.hash signer o).1 = .ok ()

variable {service : ControlPlaneService F V T W} {w w' : ServiceWorld F V T W}

theorem Creates.genuine {key : PolicyKey} {version : Str} {policy : List (PyKey F × PyVal F)}
    {createdBy signerKeyId : Str} {bundle : PolicyBundle F}
    (h : service.Creates key version policy createdBy signerKeyId bundle) :
    service.Genuine bundle ∧ bundle.key = key ∧ bundle.version = version ∧
      bundle.policy = .obj (PolicyBundle.normalized policy) := by
  obtain ⟨signer, o, o', hsigner, hcreate⟩ := h
  have hconfigured : ∃ keyId, service.signers keyId = some signer := by
    refine ⟨if signerKeyId = [] then service.defaultSignerKeyId else signerKeyId, ?_⟩
    unfold signerFor at hsigner
    dsimp only at hsigner
    cases hs : service.signers
        (if signerKeyId = [] then service.defaultSignerKeyId else signerKeyId) with
    | none =>
      rw [hs] at hsigner
      cases hsigner
    | some found =>
      rw [hs] at hsigner
      cases hsigner
      rfl
  obtain ⟨keyId, hconfigured⟩ := hconfigured
  obtain ⟨accepted, haccepted, hcreate⟩ := PyM.ofExcept_bind_eq_ok.mp hcreate
  obtain ⟨payload, hpayload, hcreate⟩ := PyM.ofExcept_bind_eq_ok.mp hcreate
  obtain ⟨signature, o₁, hsign, hcreate⟩ := PyM.bind_eq_ok.mp hcreate
  obtain ⟨created, o₂, -, hcreate⟩ := PyM.bind_eq_ok.mp hcreate
  cases hcreate
  exact ⟨⟨keyId, signer, policy, payload, o, o₁, hconfigured, rfl, rfl, hpayload, rfl, hsign,
    accepted, haccepted⟩, rfl, rfl, rfl⟩

/-- A genuine bundle still verifies with the members of its policy in another
order. -/
theorem Genuine.verifies_same
    (hagree : ∀ keyId signer, service.signers keyId = some signer → signer.Agrees)
    {bundle back : PolicyBundle F} (h : service.Genuine bundle) (hkey : back.key = bundle.key)
    (hversion : back.version = bundle.version) (hdigest : back.digest = bundle.digest)
    (hsignature : back.signature = bundle.signature)
    (hsigner : back.signerKeyId = bundle.signerKeyId) {members : List (Str × Json F)}
    (hmembers : back.policy = .obj members) (hdistinct : (Json.obj members).Distinct)
    (hsame : (Json.obj members).Same bundle.policy) : service.Verifies back := by
  obtain ⟨keyId, signer, policy, payload, o, o', hconfigured, hkeyId, hpolicy, hpayload, hhash,
    hsign, accepted, haccepted⟩ := h
  have hclean := clean_normalized policy
  rw [hpolicy, Json.Same, sortKeys_obj_eq, sortKeys_obj_eq, Json.obj.injEq] at hsame
  refine ⟨keyId, signer, hconfigured, (hsigner.trans hkeyId).symm, fun v => ?_⟩
  have hdict : asDict back.policy = .ok members := by
    rw [hmembers]
    rfl
  have hsigned : back.signingPayload = .ok payload := by
    refine except_bind_eq_ok.mpr ⟨members, hdict, ?_⟩
    rw [hkey, hversion, ← hpayload, ← envelope_sortedMembers hclean.distinct, ← hsame,
      envelope_sortedMembers hdistinct]
  have hvalid := hagree keyId signer hconfigured payload bundle.signature o o' hsign v
  rcases hverify : signer.verify payload bundle.signature v with ⟨r, v'⟩
  rw [hverify] at hvalid
  obtain rfl : r = .ok true := hvalid
  have hsorted := (policyFromMapping_sortKeys hclean.distinct).mpr ⟨accepted, haccepted⟩
  rw [← hsame] at hsorted
  obtain ⟨again, hagain⟩ := (policyFromMapping_sortKeys hdistinct).mp hsorted
  have hok : back.verify service.hash signer v = (.ok (), v') := by
    refine PolicyBundle.verify_eq_ok.mpr ⟨payload, members, again, hsigned,
      hhash.symm.trans hdigest.symm, (hsigner.trans hkeyId).symm, ?_, hdict, ?_⟩
    · rw [hsignature]
      exact hverify
    · rw [hkey]
      exact hagain
  exact congrArg Prod.fst hok

/-- A genuine bundle still verifies when SQLite gives it back. -/
theorem Genuine.verifies_sorted
    (hagree : ∀ keyId signer, service.signers keyId = some signer → signer.Agrees)
    {bundle : PolicyBundle F} (h : service.Genuine bundle) : service.Verifies bundle.sorted := by
  obtain ⟨_, _, policy, _, _, _, -, -, hpolicy, -⟩ := id h
  have hsorted : bundle.sorted.policy = .obj (sortedMembers (PolicyBundle.normalized policy)) := by
    rw [show bundle.sorted.policy = bundle.policy.sortKeys from rfl, hpolicy, sortKeys_obj_eq]
  have hdistinct := (clean_normalized policy).sortKeys.distinct
  rw [sortKeys_obj_eq] at hdistinct
  refine h.verifies_same hagree rfl rfl rfl rfl rfl hsorted hdistinct ?_
  rw [hpolicy, ← sortKeys_obj_eq]
  exact Json.same_sortKeys _

/-! ### What calls do to the bundles -/

/-- A row that a genuine bundle was saved as. -/
def Saved (service : ControlPlaneService F V T W) (row : BundleRow V T) : Prop :=
  ∃ bundle, service.Genuine bundle ∧ rowOfBundle service.store.format bundle = .ok row

/-- Every bundle is kept, and those that come are genuine. -/
structure Grows (service : ControlPlaneService F V T W) (t t' : ControlPlaneTables V T) : Prop where
  kept : ∀ key version row, t.bundle key version = some row → t'.bundle key version = some row
  added : ∀ key version row, t'.bundle key version = some row →
    t.bundle key version = some row ∨ service.Saved row

theorem Grows.of_bundles {t t' : ControlPlaneTables V T} (h : t'.bundles = t.bundles) :
    service.Grows t t' := by
  have hsame : ∀ key version, t'.bundle key version = t.bundle key version := by
    intro key version
    rw [ControlPlaneTables.bundle, ControlPlaneTables.bundle, h]
  refine ⟨fun key version row hrow => ?_, fun key version row hrow => .inl ?_⟩
  · rwa [hsame]
  · rwa [← hsame]

theorem Grows.refl (t : ControlPlaneTables V T) : service.Grows t t := .of_bundles rfl

theorem Grows.trans {t u v : ControlPlaneTables V T} (h : service.Grows t u)
    (h' : service.Grows u v) : service.Grows t v where
  kept key version row hrow := h'.kept key version row (h.kept key version row hrow)
  added key version row hrow := by
    rcases h'.added key version row hrow with hu | hsaved
    · exact h.added key version row hu
    · exact .inr hsaved

/-- Saving a genuine bundle. -/
theorem grows_saveBundle {bundle : PolicyBundle F} {t t' : ControlPlaneTables V T} {u : Unit}
    (hgenuine : service.Genuine bundle)
    (h : service.store.write (.saveBundle bundle) t = (.ok u, t')) : service.Grows t t' where
  kept key version row hrow := PolicyStore.bundle_of_write h hrow
  added key version row hrow := by
    obtain ⟨new, hnew, hbundle, rfl⟩ := PolicyStore.write_saveBundle h
    by_cases hsame : (key, version) = new.identity
    · obtain ⟨rfl, rfl⟩ := Prod.mk.inj hsame
      rw [ControlPlaneTables.bundle_insertBundle_self] at hrow
      cases hrow
      exact .inr ⟨bundle, hgenuine, hbundle⟩
    · have hrest : (t.insertBundle new hnew).bundle key version = t.bundle key version :=
        RowTable.rowAt_append_of_ne fun heq => hsame heq.symm
      exact .inl (hrest.symm.trans hrow)

theorem grows_onStore {p : Proc (StoreWorld F V T) PyExc α} {r : Except PyExc α}
    (hp : ∀ s, (p.run s).2.tables.bundles = s.tables.bundles) (h : onStore p w = (r, w')) :
    service.Grows w.store.tables w'.store.tables := by
  obtain ⟨s, hs, rfl⟩ := onStore_eq.mp h
  have hbundles := hp w.store
  rw [hs] at hbundles
  exact .of_bundles hbundles

theorem grows_publishPolicy {key : PolicyKey} {version : Str} {policy : List (PyKey F × PyVal F)}
    {createdBy signerKeyId : Str} {r : Except PyExc (PolicyBundle F)}
    (h : service.publishPolicy key version policy createdBy signerKeyId w = (r, w')) :
    service.Grows w.store.tables w'.store.tables := by
  rcases publishPolicy_eq h with ⟨-, ⟨hstore, -⟩ | ⟨bundle, t, hcreates, hwrite, hstore, -⟩⟩
  · rw [hstore]
    exact .refl _
  · rw [hstore]
    exact grows_saveBundle hcreates.genuine.1 hwrite

theorem grows_activatePolicy {key : PolicyKey} {version activatedBy : Str} {expected : Option Int}
    {r : Except PyExc (PolicyBundle F)}
    (h : service.activatePolicy key version activatedBy expected w = (r, w')) :
    service.Grows w.store.tables w'.store.tables := by
  rcases activatePolicy_eq h with ⟨⟨hstore, -⟩, -⟩ | ⟨_, _, _, t, -, -, hwrite, hstore, -⟩
  · rw [hstore]
    exact .refl _
  · rw [hstore]
    obtain ⟨row, hrow, -, rfl⟩ := PolicyStore.write_activate hwrite
    exact .of_bundles rfl

theorem grows_cancelRollout {key : PolicyKey} {r : Except PyExc Unit}
    (h : service.cancelRollout key w = (r, w')) :
    service.Grows w.store.tables w'.store.tables := by
  have hcancel : ∀ s, ((service.store.cancelRollout key).run s).2.tables.bundles =
      s.tables.bundles := by
    intro s
    rcases hs : (service.store.cancelRollout key).run s with ⟨q, s'⟩
    rcases PolicyStore.writing_eq hs with ⟨_, -, -, rfl⟩ | ⟨t, -, hwrite, rfl⟩
    · rfl
    · obtain rfl := PolicyStore.write_cancelRollout hwrite
      rfl
  rcases PyM.bind_cases h with ⟨e, hrun, rfl⟩ | ⟨_, v, hrun, h⟩
  · exact grows_onStore hcancel hrun
  · rw [(apart_emit h).1]
    exact grows_onStore hcancel hrun

theorem grows_startRollout {key : PolicyKey} {candidate : Str} {percentage : Int}
    {updatedBy seed : Str} {expected : Option Int} {r : Except PyExc (RolloutRow T)}
    (h : service.startRollout key candidate percentage updatedBy seed expected w = (r, w')) :
    service.Grows w.store.tables w'.store.tables := by
  have hstart : ∀ now s, ((service.store.startRollout service.hash key candidate percentage now
      updatedBy seed expected).run s).2.tables.bundles = s.tables.bundles := by
    intro now s
    have hfollows : Proc.Follows (fun _ _ => True)
        (fun s s' : StoreWorld F V T => s'.tables.bundles = s.tables.bundles)
        (service.store.startRollout service.hash key candidate percentage now updatedBy seed
          expected) s := by
      apply PolicyStore.follows_startRollout
      · exact fun _ => trivial
      · exact fun _ => rfl
      intro primary seedValue _ s'
      rcases hs : (service.store.writing (.startRollout key primary candidate percentage seedValue
        now updatedBy expected)).run s' with ⟨q, u⟩
      rcases PolicyStore.writing_eq hs with ⟨_, -, -, rfl⟩ | ⟨t, -, hwrite, rfl⟩
      · rfl
      · obtain ⟨row, hrow, -, rfl⟩ := PolicyStore.write_startRollout hwrite
        rfl
    exact hfollows.run (fun _ => trivial) (J := fun s' => s'.tables.bundles = s.tables.bundles)
      (fun _ _ hg hj => hg.trans hj) rfl
  rcases PyM.bind_cases h with ⟨e, hnow, rfl⟩ | ⟨now, v, hnow, h⟩
  · rw [(apart_onOutside hnow).1]
    exact .refl _
  obtain ⟨hv, -⟩ := apart_onOutside hnow
  rw [← hv]
  rcases PyM.bind_cases h with ⟨e, hrun, rfl⟩ | ⟨rollout, u, hrun, h⟩
  · exact grows_onStore (hstart now) hrun
  · rcases PyM.bind_cases h with ⟨e, hemit, rfl⟩ | ⟨_, _, hemit, h⟩
    · rw [(apart_emit hemit).1]
      exact grows_onStore (hstart now) hrun
    · cases h
      rw [(apart_emit hemit).1]
      exact grows_onStore (hstart now) hrun

/-! ### Calls one after the other -/

end ControlPlaneService

/-- The calls that publish, activate and roll out, with their arguments. -/
inductive PolicyCall (F : Type) where
  | publish (key : PolicyKey) (version : Str) (policy : List (PyKey F × PyVal F))
      (createdBy signerKeyId : Str)
  | promote (organizationId name sourceEnvironment targetEnvironment sourceVersion targetVersion
      promotedBy signerKeyId : Str) (activate : Bool)
  | activate (key : PolicyKey) (version activatedBy : Str) (expected : Option Int)
  | rollback (key : PolicyKey) (version rolledBackBy : Str)
  | startRollout (key : PolicyKey) (candidate : Str) (percentage : Int) (updatedBy seed : Str)
      (expected : Option Int)
  | cancelRollout (key : PolicyKey)

namespace ControlPlaneService

variable [PyFloatOps F]

/-- The world after a call, whether it returned or raised. -/
def after (service : ControlPlaneService F V T W) (w : ServiceWorld F V T W) :
    PolicyCall F → ServiceWorld F V T W
  | .publish key version policy createdBy signerKeyId =>
    (service.publishPolicy key version policy createdBy signerKeyId w).2
  | .promote organizationId name sourceEnvironment targetEnvironment sourceVersion targetVersion
      promotedBy signerKeyId activate =>
    (service.promotePolicy organizationId name sourceEnvironment targetEnvironment sourceVersion
      targetVersion promotedBy signerKeyId activate w).2
  | .activate key version activatedBy expected =>
    (service.activatePolicy key version activatedBy expected w).2
  | .rollback key version rolledBackBy => (service.rollbackPolicy key version rolledBackBy w).2
  | .startRollout key candidate percentage updatedBy seed expected =>
    (service.startRollout key candidate percentage updatedBy seed expected w).2
  | .cancelRollout key => (service.cancelRollout key w).2

/-- From one world to another by calls, the world outside changing in between. -/
inductive Serves (service : ControlPlaneService F V T W) :
    ServiceWorld F V T W → ServiceWorld F V T W → Prop
  | refl (w) : Serves service w w
  | call {w v} : Serves service w v → ∀ c : PolicyCall F, Serves service w (service.after v c)
  | outside {w v} : Serves service w v → ∀ o : W, Serves service w { v with outside := o }

variable {service : ControlPlaneService F V T W} {w w' : ServiceWorld F V T W}

theorem grows_promotePolicy {organizationId name sourceEnvironment targetEnvironment sourceVersion
    targetVersion promotedBy signerKeyId : Str} {activate : Bool}
    {r : Except PyExc (PolicyBundle F)}
    (h : service.promotePolicy organizationId name sourceEnvironment targetEnvironment
      sourceVersion targetVersion promotedBy signerKeyId activate w = (r, w')) :
    service.Grows w.store.tables w'.store.tables := by
  have hpublish : ∀ {q : Except PyExc (PolicyBundle F)} {v : ServiceWorld F V T W},
      service.publishPromoted organizationId name sourceEnvironment targetEnvironment
        sourceVersion targetVersion promotedBy signerKeyId w = (q, v) →
      service.Grows w.store.tables v.store.tables := by
    intro q v hq
    rcases publishPromoted_eq hq with
      ⟨hstore, -⟩ | ⟨-, _, _, bundle, t, -, -, hcreates, hwrite, hstore, -⟩
    · rw [hstore]
      exact .refl _
    · rw [hstore]
      exact grows_saveBundle hcreates.genuine.1 hwrite
  rcases PyM.bind_cases h with ⟨e, hq, rfl⟩ | ⟨promoted, v, hq, h⟩
  · exact hpublish hq
  · cases activate with
    | true => exact (hpublish hq).trans (grows_activatePolicy h)
    | false =>
      cases h
      exact hpublish hq

theorem grows_rollbackPolicy {key : PolicyKey} {version rolledBackBy : Str}
    {r : Except PyExc (PolicyBundle F)}
    (h : service.rollbackPolicy key version rolledBackBy w = (r, w')) :
    service.Grows w.store.tables w'.store.tables := by
  rcases PyM.bind_cases h with ⟨e, hactivate, rfl⟩ | ⟨bundle, v, hactivate, h⟩
  · exact grows_activatePolicy hactivate
  refine (grows_activatePolicy hactivate).trans ?_
  rcases PyM.bind_cases h with ⟨e, hcancel, rfl⟩ | ⟨_, u, hcancel, h⟩
  · exact grows_cancelRollout hcancel
  · rw [(apart_report h).1.1]
    exact grows_cancelRollout hcancel

/-- Every call keeps the bundles there are, and adds genuine ones only. -/
theorem grows_after (c : PolicyCall F) :
    service.Grows w.store.tables (service.after w c).store.tables := by
  cases c with
  | publish key version policy createdBy signerKeyId => exact grows_publishPolicy rfl
  | promote organizationId name sourceEnvironment targetEnvironment sourceVersion targetVersion
      promotedBy signerKeyId activate => exact grows_promotePolicy rfl
  | activate key version activatedBy expected => exact grows_activatePolicy rfl
  | rollback key version rolledBackBy => exact grows_rollbackPolicy rfl
  | startRollout key candidate percentage updatedBy seed expected => exact grows_startRollout rfl
  | cancelRollout key => exact grows_cancelRollout rfl

theorem Serves.grows (h : service.Serves w w') :
    service.Grows w.store.tables w'.store.tables := by
  induction h with
  | refl => exact .refl _
  | call _ c ih => exact ih.trans (grows_after c)
  | outside _ o ih => exact ih

/-- In a store that began empty every row is a genuine bundle's. -/
theorem Serves.saved (h : service.Serves w w') (hnew : PolicyStore.NewStore w.store)
    {key : PolicyKey} {version : Str} {row : BundleRow V T}
    (hrow : w'.store.tables.bundle key version = some row) : service.Saved row := by
  rcases h.grows.added key version row hrow with hbefore | hsaved
  · rw [hnew] at hbefore
    cases hbefore
  · exact hsaved

/-! ### What holds of published policies -/

/-- `get_bundle` answers with this bundle. -/
def Reads (service : ControlPlaneService F V T W) (w : ServiceWorld F V T W) (key : PolicyKey)
    (version : Str) (bundle : PolicyBundle F) : Prop :=
  (service.store.getBundle key version).run w.store = (.ok bundle, w.store)

omit [PyFloatOps F] in
theorem reads_iff {key : PolicyKey} {version : Str} {bundle : PolicyBundle F} :
    service.Reads w key version bundle ↔
      service.store.findBundle key version w.store.tables = .ok bundle :=
  PolicyStore.reading_eq_ok.trans ⟨fun h => h.1, fun h => ⟨h, rfl⟩⟩

/-- A saved row is read back. -/
theorem reads_of_saved {key : PolicyKey} {version : Str} {row : BundleRow V T}
    (hrow : w.store.tables.bundle key version = some row) {bundle back : PolicyBundle F}
    (hsaved : rowOfBundle service.store.format bundle = .ok row)
    (hback : bundleOfRow service.store.format row = .ok back) : service.Reads w key version back := by
  obtain ⟨hkey, hversion, payload, created, -, -, hfields⟩ := rowOfBundle_eq_ok hsaved
  obtain ⟨hk, hv⟩ := ControlPlaneTables.key_of_bundle hrow
  rw [hfields] at hk hv
  obtain rfl : bundle.key = key := hk
  obtain rfl : bundle.version = version := hv
  rw [reads_iff, PolicyStore.findBundle, hkey, hrow]
  show (service.store.format.bind bundle.version >>= fun _ => _) = _
  rw [hversion]
  exact hback

/-- What a row saved by SQLite reads back as. -/
theorem reads_of_row {service : ControlPlaneService F Str Str W} {w : ServiceWorld F Str Str W}
    (hsqlite : service.store = sqliteStore) {key : PolicyKey} {version : Str}
    {row : BundleRow Str Str} (hrow : w.store.tables.bundle key version = some row)
    {bundle : PolicyBundle F} (hgenuine : service.Genuine bundle)
    (hsaved : rowOfBundle service.store.format bundle = .ok row) :
    service.Reads w key version bundle.sorted := by
  obtain ⟨_, _, policy, _, _, _, -, -, hpolicy, -⟩ := hgenuine
  refine reads_of_saved hrow hsaved ?_
  rw [hsqlite] at hsaved ⊢
  exact bundleOfRow_sorted hpolicy (clean_normalized policy) hsaved

/-- Whatever can be read was published: it is a genuine bundle's row. -/
theorem Reads.genuine {service : ControlPlaneService F Str Str W} {w v : ServiceWorld F Str Str W}
    (hsqlite : service.store = sqliteStore) (hnew : PolicyStore.NewStore w.store)
    (h : service.Serves w v) {key : PolicyKey} {version : Str} {bundle : PolicyBundle F}
    (hreads : service.Reads v key version bundle) :
    ∃ row original, v.store.tables.bundle key version = some row ∧ service.Genuine original ∧
      rowOfBundle service.store.format original = .ok row ∧ bundle = original.sorted := by
  obtain ⟨row, hrow, -⟩ := PolicyStore.findBundle_eq_ok (reads_iff.mp hreads)
  obtain ⟨original, hgenuine, hsaved⟩ := h.saved hnew hrow
  have hagain := reads_of_row hsqlite hrow hgenuine hsaved
  rw [reads_iff] at hreads hagain
  rw [hreads] at hagain
  exact ⟨row, original, hrow, hgenuine, hsaved, Except.ok.inj hagain⟩

/-- The policy of a promoted bundle is that of its source. -/
theorem same_normalized {members : List (Str × Json F)} (h : (Json.obj members).Clean) :
    (Json.obj (PolicyBundle.normalized (PyVal.ofJsonMembers members))).Same (.obj members) := by
  have hnormalized : Json.obj (PolicyBundle.normalized (PyVal.ofJsonMembers members)) =
      (Json.obj members).sortKeys := by
    have hjson := toJsonable_ofJson h.distinct
    rwa [h.nameFloats, PyVal.ofJson, toJsonable] at hjson
  rw [hnormalized]
  exact Json.same_sortKeys _

/-- Published policies are immutable and verify. -/
structure PublishedPolicies (service : ControlPlaneService F V T W) (w : ServiceWorld F V T W) :
    Prop where
  kept : ∀ key version bundle, service.Reads w key version bundle →
    ∀ w', service.Serves w w' → service.Reads w' key version bundle
  once : ∀ key version bundle, service.Reads w key version bundle →
    ∀ policy createdBy signerKeyId r w',
      service.publishPolicy key version policy createdBy signerKeyId w = (r, w') →
      (∃ e, r = .error e) ∧ w'.store = w.store
  published : ∀ key version policy createdBy signerKeyId bundle w',
    service.publishPolicy key version policy createdBy signerKeyId w = (.ok bundle, w') →
    ∃ stored, service.Reads w' key version stored ∧ stored.policy.Same bundle.policy ∧
      stored.digest = bundle.digest ∧ stored.signature = bundle.signature
  verifies : ∀ key version bundle, service.Reads w key version bundle → service.Verifies bundle
  active : ∀ key bundle w', service.activePolicy key w = (.ok bundle, w') →
    (service.check bundle w.outside).1 = .ok () ∧ service.Verifies bundle
  forAgent : ∀ key agentId bundle w', service.policyForAgent key agentId w = (.ok bundle, w') →
    (service.check bundle w.outside).1 = .ok () ∧ service.Verifies bundle
  promoted : ∀ organizationId name sourceEnvironment targetEnvironment sourceVersion targetVersion
    promotedBy signerKeyId activate bundle w',
    service.promotePolicy organizationId name sourceEnvironment targetEnvironment sourceVersion
      targetVersion promotedBy signerKeyId activate w = (.ok bundle, w') →
    ∃ source, service.Reads w ⟨organizationId, name, sourceEnvironment⟩ sourceVersion source ∧
      bundle.policy.Same source.policy

section

variable {service : ControlPlaneService F Str Str W} {w v v' : ServiceWorld F Str Str W}
  (hsqlite : service.store = sqliteStore) (hnew : PolicyStore.NewStore w.store)
  (hserves : service.Serves w v)
include hsqlite hnew hserves

theorem Reads.kept {key : PolicyKey} {version : Str} {bundle : PolicyBundle F}
    (hreads : service.Reads v key version bundle) (h : service.Serves v v') :
    service.Reads v' key version bundle := by
  obtain ⟨row, original, hrow, hgenuine, hsaved, rfl⟩ := hreads.genuine hsqlite hnew hserves
  exact reads_of_row hsqlite (h.grows.kept key version row hrow) hgenuine hsaved

theorem Reads.once {key : PolicyKey} {version : Str} {bundle : PolicyBundle F}
    (hreads : service.Reads v key version bundle) {policy : List (PyKey F × PyVal F)}
    {createdBy signerKeyId : Str} {r : Except PyExc (PolicyBundle F)}
    (h : service.publishPolicy key version policy createdBy signerKeyId v = (r, v')) :
    (∃ e, r = .error e) ∧ v'.store = v.store := by
  obtain ⟨row, original, hrow, -⟩ := hreads.genuine hsqlite hnew hserves
  rcases publishPolicy_eq h with ⟨-, ⟨hstore, hraised⟩ | ⟨second, t, hcreates, hwrite, -⟩⟩
  · exact ⟨hraised, hstore⟩
  · -- the row of the first publication is in the way
    obtain ⟨-, hkey, hversion, -⟩ := hcreates.genuine
    obtain ⟨new, hnone, hnewRow, -⟩ := PolicyStore.write_saveBundle hwrite
    obtain ⟨-, -, _, _, -, -, hfields⟩ := rowOfBundle_eq_ok hnewRow
    rw [hfields, hkey, hversion, hrow] at hnone
    cases hnone

theorem Reads.verifies
    (hagree : ∀ keyId signer, service.signers keyId = some signer → signer.Agrees)
    {key : PolicyKey} {version : Str} {bundle : PolicyBundle F}
    (hreads : service.Reads v key version bundle) : service.Verifies bundle := by
  obtain ⟨row, original, -, hgenuine, -, rfl⟩ := hreads.genuine hsqlite hnew hserves
  exact hgenuine.verifies_sorted hagree

end

/-- The row of a bundle that was saved. -/
theorem row_of_saveBundle {bundle : PolicyBundle F} {t t' : ControlPlaneTables V T}
    (hwrite : service.store.write (.saveBundle bundle) t = (.ok (), t')) :
    ∃ row, t'.bundle bundle.key bundle.version = some row ∧
      rowOfBundle service.store.format bundle = .ok row := by
  obtain ⟨row, hnone, hsaved, rfl⟩ := PolicyStore.write_saveBundle hwrite
  obtain ⟨-, -, _, _, -, -, hfields⟩ := rowOfBundle_eq_ok hsaved
  have hkey : row.key = bundle.key := by rw [hfields]
  have hversion : row.version = bundle.version := by rw [hfields]
  refine ⟨row, ?_, hsaved⟩
  rw [← hkey, ← hversion]
  exact ControlPlaneTables.bundle_insertBundle_self

/-- What `publish_policy` answers with is what it saved. -/
theorem reads_published {service : ControlPlaneService F Str Str W}
    (hsqlite : service.store = sqliteStore) {v v' : ServiceWorld F Str Str W} {bundle : PolicyBundle F}
    {t : ControlPlaneTables Str Str} (hgenuine : service.Genuine bundle)
    (hwrite : service.store.write (.saveBundle bundle) v.store.tables = (.ok (), t))
    (hv : v'.store.tables = t) :
    service.Reads v' bundle.key bundle.version bundle.sorted := by
  obtain ⟨row, hrow, hsaved⟩ := row_of_saveBundle hwrite
  rw [← hv] at hrow
  exact reads_of_row hsqlite hrow hgenuine hsaved

/-- A promoted bundle has the policy of its source. -/
theorem promoted_same {service : ControlPlaneService F Str Str W}
    {w v v' : ServiceWorld F Str Str W} (hsqlite : service.store = sqliteStore)
    (hnew : PolicyStore.NewStore w.store) (hserves : service.Serves w v)
    {organizationId name sourceEnvironment targetEnvironment sourceVersion targetVersion promotedBy
      signerKeyId : Str} {activate : Bool} {bundle : PolicyBundle F}
    (h : service.promotePolicy organizationId name sourceEnvironment targetEnvironment
      sourceVersion targetVersion promotedBy signerKeyId activate v = (.ok bundle, v')) :
    ∃ source, service.Reads v ⟨organizationId, name, sourceEnvironment⟩ sourceVersion source ∧
      bundle.policy.Same source.policy := by
  obtain ⟨promoted, u, hpromoted, h⟩ := PyM.bind_eq_ok.mp h
  rcases publishPromoted_eq hpromoted with
    ⟨-, e, hr⟩ | ⟨-, source, members, created, t, hfind, hmembers, hcreates, hwrite, hu, hr⟩
  · cases hr
  obtain rfl := hr promoted rfl
  have hreads : service.Reads v ⟨organizationId, name, sourceEnvironment⟩ sourceVersion source :=
    reads_iff.mpr hfind
  refine ⟨source, hreads, ?_⟩
  obtain ⟨hgenuine, hkey, -, hpolicy⟩ := hcreates.genuine
  -- the source is a published bundle, so its policy is a clean mapping
  have hsource : source.policy = .obj members ∧ (Json.obj members).Clean := by
    obtain ⟨_, original, -, ⟨_, _, policy, _, _, _, -, -, horiginal, -⟩, -, rfl⟩ :=
      hreads.genuine hsqlite hnew hserves
    have hsorted := asDict_sorted horiginal
    have hclean := (clean_normalized policy).sortKeys
    rw [sortKeys_obj_eq] at hclean
    rw [show original.sorted.policy = original.policy.sortKeys from rfl, hsorted] at hmembers
    cases hmembers
    refine ⟨?_, hclean⟩
    rw [show original.sorted.policy = original.policy.sortKeys from rfl, horiginal,
      sortKeys_obj_eq]
  have hsame : promoted.policy.Same source.policy := by
    rw [hpolicy, hsource.1]
    exact same_normalized hsource.2
  cases activate with
  | false =>
    cases h
    exact hsame
  | true =>
    rcases activatePolicy_eq h with ⟨-, ⟨e, hr⟩, -⟩ | ⟨_, _, found, _, -, hfound, -, -, hend⟩
    · cases hr
    have hactive : service.Reads u promoted.key promoted.version promoted.sorted :=
      reads_published hsqlite hgenuine hwrite (congrArg StoreWorld.tables hu)
    rw [reads_iff, hkey] at hactive
    rw [hactive] at hfound
    cases hfound
    rcases hend with ⟨_, hr, -⟩ | ⟨-, -, hr⟩
    · cases hr
    · obtain rfl := hr bundle rfl
      exact (Json.same_sortKeys _).trans hsame

/-- What a checked read answers with. -/
theorem verifyRequired_eq_ok (hrequired : service.requireSignedBundles = true)
    {bundle b : PolicyBundle F} {u : ServiceWorld F V T W}
    (h : (do
      service.verifyRequired bundle
      return bundle) u = (.ok b, w')) :
    b = bundle ∧ (service.check bundle u.outside).1 = .ok () := by
  obtain ⟨_, u', hverify, h⟩ := PyM.bind_eq_ok.mp h
  cases h
  unfold verifyRequired at hverify
  rw [if_pos hrequired] at hverify
  exact ⟨rfl, (verifyBundle_eq hverify).2.1⟩

/-- The bundles of a service over SQLite, after any calls: what was published
is read back for ever, cannot be published again, and verifies; only bundles
that verify are served; a promoted bundle has the policy of its source. -/
theorem published_policies {service : ControlPlaneService F Str Str W}
    {w v : ServiceWorld F Str Str W} (hsqlite : service.store = sqliteStore)
    (hrequired : service.requireSignedBundles = true)
    (hagree : ∀ keyId signer, service.signers keyId = some signer → signer.Agrees)
    (hnew : PolicyStore.NewStore w.store) (hserves : service.Serves w v) :
    PublishedPolicies service v where
  kept key version bundle hreads v' h := hreads.kept hsqlite hnew hserves h
  once key version bundle hreads policy createdBy signerKeyId r v' h :=
    hreads.once hsqlite hnew hserves h
  published key version policy createdBy signerKeyId bundle v' h := by
    rcases publishPolicy_eq h with ⟨-, ⟨-, e, hr⟩ | ⟨created, t, hcreates, hwrite, hstore, hr⟩⟩
    · cases hr
    obtain rfl := hr bundle rfl
    obtain ⟨hgenuine, rfl, rfl, -⟩ := hcreates.genuine
    exact ⟨bundle.sorted, reads_published hsqlite hgenuine hwrite (congrArg StoreWorld.tables hstore),
      Json.same_sortKeys _, rfl, rfl⟩
  verifies key version bundle hreads := hreads.verifies hsqlite hnew hserves hagree
  active key bundle v' h := by
    obtain ⟨found, u, hget, h⟩ := PyM.bind_eq_ok.mp h
    obtain ⟨s, hs, rfl⟩ := onStore_eq.mp hget
    obtain ⟨rfl, version, hfind⟩ := PolicyStore.getActive_found hs
    obtain ⟨rfl, hcheck⟩ := verifyRequired_eq_ok hrequired h
    have hreads : service.Reads v key version bundle := reads_iff.mpr hfind
    exact ⟨hcheck, hreads.verifies hsqlite hnew hserves hagree⟩
  forAgent key agentId bundle v' h := by
    obtain ⟨found, u, hget, h⟩ := PyM.bind_eq_ok.mp h
    obtain ⟨s, hs, rfl⟩ := onStore_eq.mp hget
    obtain ⟨rfl, version, hfind⟩ := PolicyStore.resolveActive_found hs
    obtain ⟨rfl, hcheck⟩ := verifyRequired_eq_ok hrequired h
    have hreads : service.Reads v key version bundle := reads_iff.mpr hfind
    exact ⟨hcheck, hreads.verifies hsqlite hnew hserves hagree⟩
  promoted organizationId name sourceEnvironment targetEnvironment sourceVersion targetVersion
      promotedBy signerKeyId activate bundle v' h := promoted_same hsqlite hnew hserves h

end ControlPlaneService

/-! ### A published policy -/

/-- The least a policy needs, with every weight given. -/
def samplePolicy : List (PyKey SmallFloat × PyVal SmallFloat) := [
  (.str (lit "guardrails"), .ofFields [(lit "max_steps", .int 1), (lit "max_tool_calls", .int 1),
    (lit "max_cost_usd", .float (.finite .one))]),
  (.str (lit "decision_policy"), .ofFields [(lit "min_confidence", .float (.finite .half)),
    (lit "w_prob", .float (.finite .half)), (lit "w_margin", .int 0), (lit "w_z", .int 0),
    (lit "w_entropy", .int 0), (lit "w_llm", .int 0)])]

/-- A service with one HMAC signer. -/
def hmacService : ControlPlaneService SmallFloat Str Str Unit where
  store := sqliteStore
  hash := default
  signers keyId :=
    if keyId = lit "hmac-default" then some (hmacSigner (default : Sha256).hexdigest keyId) else none
  defaultSignerKeyId := lit "hmac-default"
  default_configured := rfl
  requireSignedBundles := true
  eventSink := none
  utcNow := return lit "2024-01-01T00:00:00+00:00"
  eventStamp := return ([], [])

def newWorld : ServiceWorld SmallFloat Str Str Unit := ⟨⟨.empty, []⟩, (), []⟩

def publishSample : PolicyCall SmallFloat :=
  .publish PolicyStore.sampleKey (lit "1") samplePolicy (lit "admin") []

theorem published_policies_sample :
    (hmacService.after newWorld publishSample).store.tables.bundles.length = 1 ∧
      hmacService.PublishedPolicies (hmacService.after newWorld publishSample) := by
  refine ⟨by decide +kernel, ?_⟩
  have hnew : PolicyStore.NewStore newWorld.store := rfl
  refine ControlPlaneService.published_policies rfl rfl ?_ hnew (.call (.refl newWorld) _)
  intro keyId signer hconfigured
  obtain ⟨-, hsigner⟩ := Option.ite_none_right_eq_some.mp hconfigured
  obtain rfl := Option.some.inj hsigner
  refine hmacSigner_agrees (fun m c hc => ?_) keyId
  rcases (default : Sha256).hexdigest_hex m c hc with ⟨-, h⟩ | ⟨-, h⟩
  · omega
  · omega

end AgentRoi
