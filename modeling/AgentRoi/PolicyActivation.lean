/-
Activation and the verification of the bundle it activates.

* `ActivationCall` — the calls of the service that activate a bundle;
* `AtomicOnRejection` — a call that raises because `verify_bundle` raised
  leaves the active version, its revision and the rollout as they were;
* `VerifiedWhenActivated` — the bundle the call activates passes
  `verify_bundle`;
* `atomic_iff` — the calls of the first kind are those of the second.
-/
import AgentRoi.PolicyService

namespace AgentRoi

variable {F V T W α β : Type}

/-! ### Which parts of the world a method works on -/

theorem onStore_eq {p : Proc (StoreWorld F V T) PyExc α} {w w' : ServiceWorld F V T W}
    {r : Except PyExc α} :
    onStore p w = (r, w') ↔ ∃ s, p.run w.store = (r, s) ∧ w' = { w with store := s } := by
  rcases hp : p.run w.store with ⟨q, s⟩
  simp only [onStore, PyM.on, hp, Prod.mk.injEq]
  constructor
  · rintro ⟨rfl, rfl⟩
    exact ⟨s, ⟨rfl, rfl⟩, rfl⟩
  · rintro ⟨_, ⟨rfl, rfl⟩, rfl⟩
    exact ⟨rfl, rfl⟩

theorem onOutside_eq {x : PyM W α} {w w' : ServiceWorld F V T W} {r : Except PyExc α} :
    onOutside x w = (r, w') ↔ ∃ o, x w.outside = (r, o) ∧ w' = { w with outside := o } := by
  rcases hx : x w.outside with ⟨q, o⟩
  simp only [onOutside, PyM.on, hx, Prod.mk.injEq]
  constructor
  · rintro ⟨rfl, rfl⟩
    exact ⟨o, ⟨rfl, rfl⟩, rfl⟩
  · rintro ⟨_, ⟨rfl, rfl⟩, rfl⟩
    exact ⟨rfl, rfl⟩

/-- The store and the rejections stay as they are. -/
def Apart (w w' : ServiceWorld F V T W) : Prop := w'.store = w.store ∧ w'.rejected = w.rejected

theorem Apart.refl (w : ServiceWorld F V T W) : Apart w w := ⟨rfl, rfl⟩

theorem Apart.trans {u v w : ServiceWorld F V T W} (h : Apart u v) (h' : Apart v w) : Apart u w :=
  ⟨h'.1.trans h.1, h'.2.trans h.2⟩

theorem apart_onOutside {x : PyM W α} {w w' : ServiceWorld F V T W} {r : Except PyExc α}
    (h : onOutside x w = (r, w')) : Apart w w' := by
  obtain ⟨o, -, rfl⟩ := onOutside_eq.mp h
  exact ⟨rfl, rfl⟩

namespace ControlPlaneService

variable [PyFloatOps F] {service : ControlPlaneService F V T W} {w w' : ServiceWorld F V T W}

omit [PyFloatOps F] in
theorem apart_emit {eventType : String} {data : PyDict F} {r : Except PyExc Unit}
    (h : service.emit eventType data w = (r, w')) : Apart w w' := by
  unfold emit at h
  cases hsink : service.eventSink with
  | none =>
    rw [hsink] at h
    cases h
    exact .refl w
  | some sink =>
    rw [hsink] at h
    exact apart_onOutside h

omit [PyFloatOps F] in
/-- The event that reports a bundle. -/
theorem apart_report {x : Except PyExc (PyDict F)} {f : PyDict F → PyDict F} {eventType : String}
    {bundle : PolicyBundle F} {r : Except PyExc (PolicyBundle F)}
    (h : (do
      let data ← PyM.ofExcept x
      service.emit eventType (f data)
      return bundle) w = (r, w')) : Apart w w' ∧ ∀ b, r = .ok b → b = bundle := by
  cases x with
  | error e =>
    cases h
    exact ⟨.refl w, fun b hb => by cases hb⟩
  | ok data =>
    have h : (service.emit eventType (f data) >>= fun _ => pure bundle) w = (r, w') := h
    rcases hemit : service.emit eventType (f data) w with ⟨e | _, v⟩
    · rw [PyM.bind_of_error hemit] at h
      cases h
      exact ⟨apart_emit hemit, fun b hb => by cases hb⟩
    · rw [PyM.bind_of_ok hemit] at h
      cases h
      exact ⟨apart_emit hemit, fun b hb => (Except.ok.inj hb).symm⟩

/-- `verify_bundle` changes nothing but the world outside, and the rejections
when it raises. -/
theorem verifyBundle_eq {bundle : PolicyBundle F} {r : Except PyExc Unit}
    (h : service.verifyBundle bundle w = (r, w')) :
    w'.store = w.store ∧ (service.check bundle w.outside).1 = r ∧
      w'.rejected = match r with
        | .ok _ => w.rejected
        | .error e => e :: w.rejected := by
  unfold verifyBundle PyM.tryExcept at h
  rcases hcheck : onOutside (service.check bundle) w with ⟨e | u, v⟩
  all_goals
    rw [hcheck] at h
    obtain ⟨o, ho, rfl⟩ := onOutside_eq.mp hcheck
    cases h
    exact ⟨rfl, by rw [ho], rfl⟩

theorem verifyRequired_eq {bundle : PolicyBundle F} {r : Except PyExc Unit}
    (h : service.verifyRequired bundle w = (r, w')) :
    w'.store = w.store ∧ (r = .ok () → w'.rejected = w.rejected) := by
  unfold verifyRequired at h
  split at h
  · obtain ⟨hstore, -, hrejected⟩ := verifyBundle_eq h
    refine ⟨hstore, ?_⟩
    rintro rfl
    exact hrejected
  · cases h
    exact ⟨rfl, fun _ => rfl⟩

/-! ### What the methods do to the store -/

/-- A bundle that `publish_policy` makes of these arguments. -/
def Creates (service : ControlPlaneService F V T W) (key : PolicyKey) (version : Str)
    (policy : List (PyKey F × PyVal F)) (createdBy signerKeyId : Str) (bundle : PolicyBundle F) :
    Prop :=
  ∃ signer o o', service.signerFor signerKeyId = .ok signer ∧
    PolicyBundle.create service.hash service.utcNow key version policy signer createdBy o =
      (.ok bundle, o')

/-- `publish_policy` saves the bundle it makes, or it raises and changes
nothing. -/
theorem publishPolicy_eq {key : PolicyKey} {version : Str} {policy : List (PyKey F × PyVal F)}
    {createdBy signerKeyId : Str} {r : Except PyExc (PolicyBundle F)}
    (h : service.publishPolicy key version policy createdBy signerKeyId w = (r, w')) :
    w'.rejected = w.rejected ∧
      ((w'.store = w.store ∧ ∃ e, r = .error e) ∨
        ∃ bundle t, service.Creates key version policy createdBy signerKeyId bundle ∧
          service.store.write (.saveBundle bundle) w.store.tables = (.ok (), t) ∧
          w'.store = ⟨t, (.saveBundle bundle, w.store.tables) :: w.store.log⟩ ∧
          ∀ b, r = .ok b → b = bundle) := by
  rcases PyM.bind_cases h with ⟨e, hsigner, rfl⟩ | ⟨signer, _, hsigner, h⟩
  · obtain ⟨-, rfl⟩ := Prod.mk.inj hsigner
    exact ⟨rfl, .inl ⟨rfl, e, rfl⟩⟩
  obtain ⟨hconfigured, rfl⟩ := Prod.mk.inj hsigner
  rcases PyM.bind_cases h with ⟨e, hcreate, rfl⟩ | ⟨bundle, v, hcreate, h⟩
  · obtain ⟨hstore, hrejected⟩ := apart_onOutside hcreate
    exact ⟨hrejected, .inl ⟨hstore, e, rfl⟩⟩
  obtain ⟨o, ho, rfl⟩ := onOutside_eq.mp hcreate
  have hcreates : service.Creates key version policy createdBy signerKeyId bundle :=
    ⟨signer, w.outside, o, hconfigured, ho⟩
  rcases PyM.bind_cases h with ⟨e, hsave, rfl⟩ | ⟨_, u, hsave, h⟩
  · obtain ⟨s, hs, rfl⟩ := onStore_eq.mp hsave
    rcases PolicyStore.writing_eq hs with ⟨_, -, -, rfl⟩ | ⟨_, hr, -⟩
    · exact ⟨rfl, .inl ⟨rfl, e, rfl⟩⟩
    · cases hr
  · obtain ⟨s, hs, rfl⟩ := onStore_eq.mp hsave
    rcases PolicyStore.writing_eq hs with ⟨_, hr, -⟩ | ⟨t, -, hwrite, rfl⟩
    · cases hr
    · obtain ⟨⟨hstore, hrejected⟩, hr⟩ := apart_report (f := id) h
      exact ⟨hrejected, .inr ⟨bundle, t, hcreates, hwrite, hstore, hr⟩⟩

/-- `promote_policy` saves a bundle with the policy of its source, or it raises
and changes nothing. -/
theorem publishPromoted_eq {organizationId name sourceEnvironment targetEnvironment sourceVersion
    targetVersion promotedBy signerKeyId : Str} {r : Except PyExc (PolicyBundle F)}
    (h : service.publishPromoted organizationId name sourceEnvironment targetEnvironment
      sourceVersion targetVersion promotedBy signerKeyId w = (r, w')) :
    (w'.store = w.store ∧ ∃ e, r = .error e) ∨
      (w'.rejected = w.rejected ∧ ∃ source policy bundle t,
        service.store.findBundle ⟨organizationId, name, sourceEnvironment⟩ sourceVersion
          w.store.tables = .ok source ∧
        asDict source.policy = .ok policy ∧
        service.Creates ⟨organizationId, name, targetEnvironment⟩
          (if targetVersion = [] then source.version else targetVersion)
          (PyVal.ofJsonMembers policy) promotedBy signerKeyId bundle ∧
        service.store.write (.saveBundle bundle) w.store.tables = (.ok (), t) ∧
        w'.store = ⟨t, (.saveBundle bundle, w.store.tables) :: w.store.log⟩ ∧
        ∀ b, r = .ok b → b = bundle) := by
  have hget : ∀ {s : StoreWorld F V T} {q : Except PyExc (PolicyBundle F)},
      (service.store.getBundle ⟨organizationId, name, sourceEnvironment⟩ sourceVersion).run
        w.store = (q, s) →
      service.store.findBundle ⟨organizationId, name, sourceEnvironment⟩ sourceVersion
        w.store.tables = q ∧ s = w.store :=
    fun hs => ⟨congrArg Prod.fst hs, (congrArg Prod.snd hs).symm⟩
  rcases PyM.bind_cases h with ⟨e, hsource, rfl⟩ | ⟨source, v, hsource, h⟩
  · obtain ⟨s, hs, rfl⟩ := onStore_eq.mp hsource
    exact .inl ⟨(hget hs).2, e, rfl⟩
  obtain ⟨s, hs, rfl⟩ := onStore_eq.mp hsource
  obtain ⟨hfind, rfl⟩ := hget hs
  rcases PyM.bind_cases h with ⟨e, hverify, rfl⟩ | ⟨_, v, hverify, h⟩
  · exact .inl ⟨(verifyRequired_eq hverify).1, e, rfl⟩
  obtain ⟨hstore, hrejected⟩ := verifyRequired_eq hverify
  rcases PyM.bind_cases h with ⟨e, hpolicy, rfl⟩ | ⟨policy, _, hpolicy, h⟩
  · obtain ⟨-, rfl⟩ := Prod.mk.inj hpolicy
    exact .inl ⟨hstore, e, rfl⟩
  obtain ⟨hdict, rfl⟩ := Prod.mk.inj hpolicy
  rcases PyM.bind_cases h with ⟨e, hpublish, rfl⟩ | ⟨promoted, u, hpublish, h⟩
  · rcases publishPolicy_eq hpublish with ⟨hsame, ⟨hu, -⟩ | ⟨bundle, t, hcreates, hwrite, hu, hr⟩⟩
    · exact .inl ⟨hu.trans hstore, e, rfl⟩
    · rw [hstore] at hwrite hu
      exact .inr ⟨hsame.trans (hrejected rfl), source, policy, bundle, t, hfind, hdict, hcreates,
        hwrite, hu, fun b hb => by cases hb⟩
  · rcases publishPolicy_eq hpublish with ⟨hsame, ⟨-, e, hr⟩ | ⟨bundle, t, hcreates, hwrite, hu, hr⟩⟩
    · cases hr
    · rw [hstore] at hwrite hu
      obtain ⟨⟨hreport, hquiet⟩, hb⟩ := apart_report h
      exact .inr ⟨(hquiet.trans hsame).trans (hrejected rfl), source, policy, bundle, t, hfind,
        hdict, hcreates, hwrite, hreport.trans hu, fun b hrb => (hb b hrb).trans (hr _ rfl)⟩

omit [PyFloatOps F] in
theorem rejected_onStore {p : Proc (StoreWorld F V T) PyExc α} {r : Except PyExc α}
    (h : onStore p w = (r, w')) : w'.rejected = w.rejected := by
  obtain ⟨s, -, rfl⟩ := onStore_eq.mp h
  rfl

theorem cancelRollout_rejected {key : PolicyKey} {r : Except PyExc Unit}
    (h : service.cancelRollout key w = (r, w')) : w'.rejected = w.rejected := by
  rcases PyM.bind_cases h with ⟨e, hcancel, rfl⟩ | ⟨_, v, hcancel, h⟩
  · exact rejected_onStore hcancel
  · exact (apart_emit h).2.trans (rejected_onStore hcancel)

/-- How `activate_policy` ends: refused before it changes anything, rejected by
`verify_bundle` after the activation, or verified. -/
theorem activatePolicy_eq {key : PolicyKey} {version activatedBy : Str} {expected : Option Int}
    {r : Except PyExc (PolicyBundle F)}
    (h : service.activatePolicy key version activatedBy expected w = (r, w')) :
    (Apart w w' ∧ (∃ e, r = .error e) ∧ ∀ now o bundle, service.utcNow w.outside = (.ok now, o) →
        service.store.findBundle key version w.store.tables = .ok bundle →
        (service.store.write (.activate key version now activatedBy expected)
          w.store.tables).1 ≠ .ok ()) ∨
      ∃ now o bundle t, service.utcNow w.outside = (.ok now, o) ∧
        service.store.findBundle key version w.store.tables = .ok bundle ∧
        service.store.write (.activate key version now activatedBy expected) w.store.tables =
          (.ok (), t) ∧
        w'.store = ⟨t, (.activate key version now activatedBy expected, w.store.tables) ::
          w.store.log⟩ ∧
        ((∃ e, r = .error e ∧ (service.check bundle o).1 = .error e ∧
            w'.rejected = e :: w.rejected) ∨
          ((service.check bundle o).1 = .ok () ∧ w'.rejected = w.rejected ∧
            ∀ b, r = .ok b → b = bundle)) := by
  rcases PyM.bind_cases h with ⟨e, hnow, rfl⟩ | ⟨now, v, hnow, h⟩
  · refine .inl ⟨apart_onOutside hnow, ⟨e, rfl⟩, fun now o bundle hclock => ?_⟩
    obtain ⟨_, hraised, -⟩ := onOutside_eq.mp hnow
    rw [hclock] at hraised
    cases hraised
  obtain ⟨o, hclock, rfl⟩ := onOutside_eq.mp hnow
  rcases PyM.bind_cases h with ⟨e, hactivate, rfl⟩ | ⟨bundle, u, hactivate, h⟩
  · obtain ⟨s, hs, rfl⟩ := onStore_eq.mp hactivate
    rcases PolicyStore.activate_eq hs with ⟨rfl, -, hrefused⟩ | ⟨_, _, hr, -⟩
    · refine .inl ⟨⟨rfl, rfl⟩, ⟨e, rfl⟩, fun now' o' bundle hclock' hfind => ?_⟩
      rw [hclock] at hclock'
      cases hclock'
      exact hrefused bundle hfind
    · cases hr
  obtain ⟨s, hs, rfl⟩ := onStore_eq.mp hactivate
  rcases PolicyStore.activate_eq hs with ⟨-, ⟨_, hr⟩, -⟩ | ⟨b, t, hr, hfind, hwrite, rfl⟩
  · cases hr
  cases hr
  refine .inr ⟨now, o, bundle, t, hclock, hfind, hwrite, ?_⟩
  rcases PyM.bind_cases h with ⟨e, hverify, rfl⟩ | ⟨_, x, hverify, h⟩
  · obtain ⟨hstore, hcheck, hrejected⟩ := verifyBundle_eq hverify
    exact ⟨hstore, .inl ⟨e, rfl, hcheck, hrejected⟩⟩
  · obtain ⟨hstore, hcheck, hrejected⟩ := verifyBundle_eq hverify
    obtain ⟨hreport, hr⟩ := apart_report (f := id) h
    exact ⟨hreport.1.trans hstore, .inr ⟨hcheck, hreport.2.trans hrejected, hr⟩⟩

end ControlPlaneService

/-! ### The active version and the rollout -/

/-- The active version with its revision, and the rollout. -/
def ControlPlaneTables.activation (t : ControlPlaneTables V T) (key : PolicyKey) :
    Option (Str × ℕ) × Option (RolloutRow T) :=
  ((t.activeRow key).map fun row => (row.version, row.revision), t.rollout key)

section

variable [PyFloat F] {store : PolicyStore F V T} {t t' : ControlPlaneTables V T}

theorem activation_of_saveBundle {bundle : PolicyBundle F} {u : Unit}
    (h : store.write (.saveBundle bundle) t = (.ok u, t')) (key : PolicyKey) :
    t'.activation key = t.activation key := by
  obtain ⟨row, hrow, -, rfl⟩ := PolicyStore.write_saveBundle h
  rfl

/-- An activation is seen: it writes the next revision. -/
theorem activation_of_activate {key : PolicyKey} {version now activatedBy : Str}
    {expected : Option Int} {u : Unit}
    (h : store.write (.activate key version now activatedBy expected) t = (.ok u, t')) :
    t'.activation key ≠ t.activation key := by
  obtain ⟨row, hrow, hnew, rfl⟩ := PolicyStore.write_activate h
  obtain ⟨rfl, -, hrevision, -⟩ := PolicyStore.newActive_eq_ok hnew
  intro hsame
  have hactive : ((t.putActive row hrow).activeRow row.key).map (fun r => (r.version, r.revision)) =
      (t.activeRow row.key).map fun r => (r.version, r.revision) := congrArg Prod.fst hsame
  rw [ControlPlaneTables.activeRow_putActive_self] at hactive
  cases hold : t.activeRow row.key with
  | none =>
    rw [hold] at hactive
    cases hactive
  | some old =>
    rw [hold] at hactive hrevision
    have heq : row.revision = old.revision := congrArg Prod.snd (Option.some.inj hactive)
    have hnext : row.revision = old.revision + 1 := hrevision
    omega

end

/-! ### Calls that activate -/

/-- The parameters of an activation. -/
structure ActivationRequest where
  key : PolicyKey
  version : Str
  activatedBy : Str
  expected : Option Int

/-- The calls that activate a bundle; `promote` is `promote_policy` with
`activate=True`. -/
inductive ActivationCall where
  | activate (request : ActivationRequest)
  | rollback (key : PolicyKey) (version rolledBackBy : Str)
  | promote (organizationId name sourceEnvironment targetEnvironment sourceVersion targetVersion
      promotedBy signerKeyId : Str)

namespace ActivationCall

/-- The policy the call is about. -/
def key : ActivationCall → PolicyKey
  | .activate request => request.key
  | .rollback key _ _ => key
  | .promote organizationId name _ targetEnvironment _ _ _ _ =>
    ⟨organizationId, name, targetEnvironment⟩

variable [PyFloatOps F] (service : ControlPlaneService F V T W)

def run : ActivationCall → PyM (ServiceWorld F V T W) (PolicyBundle F)
  | .activate request => service.activatePolicy request.key request.version request.activatedBy
      request.expected
  | .rollback key version rolledBackBy => service.rollbackPolicy key version rolledBackBy
  | .promote organizationId name sourceEnvironment targetEnvironment sourceVersion targetVersion
      promotedBy signerKeyId =>
    service.promotePolicy organizationId name sourceEnvironment targetEnvironment sourceVersion
      targetVersion promotedBy signerKeyId true

/-- What the call does before it activates, and the activation it comes to. -/
def request : ActivationCall → PyM (ServiceWorld F V T W) ActivationRequest
  | .activate request => return request
  | .rollback key version rolledBackBy => return ⟨key, version, rolledBackBy, none⟩
  | .promote organizationId name sourceEnvironment targetEnvironment sourceVersion targetVersion
      promotedBy signerKeyId => do
    let promoted ← service.publishPromoted organizationId name sourceEnvironment targetEnvironment
      sourceVersion targetVersion promotedBy signerKeyId
    return ⟨⟨organizationId, name, targetEnvironment⟩, promoted.version, promotedBy, none⟩

/-- What the call does after the activation. -/
def finish : ActivationCall → PolicyBundle F → PyM (ServiceWorld F V T W) (PolicyBundle F)
  | .activate _, bundle => return bundle
  | .rollback key _ rolledBackBy, bundle => do
    service.cancelRollout key
    let data ← PyM.ofExcept bundle.toDict
    service.emit "rolled_back" (data ++ [(lit "rolled_back_by", .str rolledBackBy)])
    return bundle
  | .promote .., bundle => return bundle

/-- Every call activates between its two parts. -/
theorem run_eq (call : ActivationCall) (w : ServiceWorld F V T W) :
    call.run service w = (do
      let request ← call.request service
      let bundle ← service.activatePolicy request.key request.version request.activatedBy
        request.expected
      call.finish service bundle) w := by
  have hpure : ∀ (x : PyM (ServiceWorld F V T W) (PolicyBundle F)) v, (x >>= pure) v = x v := by
    intro x v
    rw [PyM.bind_apply]
    rcases x v with ⟨e | b, u⟩ <;> rfl
  cases call with
  | activate request => exact (hpure _ w).symm
  | rollback key version rolledBackBy => rfl
  | promote organizationId name sourceEnvironment targetEnvironment sourceVersion targetVersion
      promotedBy signerKeyId =>
    simp only [run, request, finish, ControlPlaneService.promotePolicy, if_true, PyM.bind_apply]
    rcases service.publishPromoted organizationId name sourceEnvironment targetEnvironment
      sourceVersion targetVersion promotedBy signerKeyId w with ⟨e | promoted, v⟩
    · rfl
    · exact (hpure (service.activatePolicy ⟨organizationId, name, targetEnvironment⟩
        promoted.version promotedBy none) v).symm

variable {service} {call : ActivationCall} {w w' : ServiceWorld F V T W}

/-- Nothing is activated before the activation, and what comes before it
raises where `verify_bundle` does. -/
theorem request_eq {r : Except PyExc ActivationRequest} (h : call.request service w = (r, w')) :
    (∀ key, w'.store.tables.activation key = w.store.tables.activation key) ∧
      ∀ request, r = .ok request → w'.rejected = w.rejected ∧ request.key = call.key := by
  cases call with
  | activate request =>
    cases h
    exact ⟨fun _ => rfl, fun _ hr => by cases hr; exact ⟨rfl, rfl⟩⟩
  | rollback key version rolledBackBy =>
    cases h
    exact ⟨fun _ => rfl, fun _ hr => by cases hr; exact ⟨rfl, rfl⟩⟩
  | promote organizationId name sourceEnvironment targetEnvironment sourceVersion targetVersion
      promotedBy signerKeyId =>
    rcases PyM.bind_cases h with ⟨e, hpublish, rfl⟩ | ⟨promoted, v, hpublish, h⟩
    · refine ⟨fun key => ?_, fun _ hr => by cases hr⟩
      rcases ControlPlaneService.publishPromoted_eq hpublish with
        ⟨hstore, -⟩ | ⟨-, _, _, bundle, t, -, -, -, hwrite, hstore, -⟩
      · rw [hstore]
      · rw [hstore]
        exact activation_of_saveBundle hwrite key
    · cases h
      rcases ControlPlaneService.publishPromoted_eq hpublish with
        ⟨-, e, hr⟩ | ⟨hrejected, _, _, bundle, t, -, -, -, hwrite, hstore, -⟩
      · cases hr
      · refine ⟨fun key => ?_, fun _ hr => by cases hr; exact ⟨hrejected, rfl⟩⟩
        rw [hstore]
        exact activation_of_saveBundle hwrite key

theorem finish_eq {bundle : PolicyBundle F} {r : Except PyExc (PolicyBundle F)}
    (h : call.finish service bundle w = (r, w')) : w'.rejected = w.rejected := by
  cases call with
  | activate request =>
    cases h
    rfl
  | rollback key version rolledBackBy =>
    rcases PyM.bind_cases h with ⟨e, hcancel, rfl⟩ | ⟨_, v, hcancel, h⟩
    · exact ControlPlaneService.cancelRollout_rejected hcancel
    · exact (ControlPlaneService.apart_report h).1.2.trans
        (ControlPlaneService.cancelRollout_rejected hcancel)
  | promote organizationId name sourceEnvironment targetEnvironment sourceVersion targetVersion
      promotedBy signerKeyId =>
    cases h
    rfl

end ActivationCall

/-! ### Atomicity -/

section

variable [PyFloatOps F] (service : ControlPlaneService F V T W)

/-- A call that raises because `verify_bundle` did leaves the active version,
its revision and the rollout of the policy as they were. -/
def AtomicOnRejection (call : ActivationCall) (w : ServiceWorld F V T W) : Prop :=
  ∀ e w', call.run service w = (.error e, w') → w'.rejected ≠ w.rejected →
    w'.store.tables.activation call.key = w.store.tables.activation call.key

/-- When the call comes to its activation, and the store finds the bundle and
accepts the activation, the bundle passes `verify_bundle`. -/
def VerifiedWhenActivated (call : ActivationCall) (w : ServiceWorld F V T W) : Prop :=
  ∀ request v, call.request service w = (.ok request, v) →
    ∀ now o, service.utcNow v.outside = (.ok now, o) →
    ∀ bundle, service.store.findBundle request.key request.version v.store.tables = .ok bundle →
      (service.store.write (.activate request.key request.version now request.activatedBy
        request.expected) v.store.tables).1 = .ok () →
      (service.check bundle o).1 = .ok ()

/-- A rejection leaves the active version alone exactly when no bundle is
activated that `verify_bundle` rejects. -/
theorem atomic_iff (call : ActivationCall) (w : ServiceWorld F V T W) :
    AtomicOnRejection service call w ↔ VerifiedWhenActivated service call w := by
  constructor
  · intro hatomic request v hrequest now o hnow bundle hfind haccepted
    obtain ⟨hsame, hok⟩ := ActivationCall.request_eq hrequest
    obtain ⟨hrejected, hkey⟩ := hok request rfl
    rcases hactivate : service.activatePolicy request.key request.version request.activatedBy
      request.expected v with ⟨r, u⟩
    rcases ControlPlaneService.activatePolicy_eq hactivate with
      ⟨-, -, hrefused⟩ | ⟨now', o', bundle', t, hnow', hfind', hwrite, hstore, hend⟩
    · exact absurd haccepted (hrefused now o bundle hnow hfind)
    · rw [hnow] at hnow'
      cases hnow'
      rw [hfind] at hfind'
      cases hfind'
      rcases hend with ⟨e, rfl, hcheck, hu⟩ | ⟨hcheck, -⟩
      · -- the rejected bundle is active all the same
        have hrun : call.run service w = (.error e, u) := by
          rw [ActivationCall.run_eq, PyM.bind_of_ok hrequest, PyM.bind_of_error hactivate]
        have hchanged : u.rejected ≠ w.rejected := by
          rw [hu, hrejected]
          exact List.cons_ne_self _ _
        have hkept := hatomic e u hrun hchanged
        rw [hstore, ← hkey, ← hsame] at hkept
        exact absurd hkept (activation_of_activate hwrite)
      · exact hcheck
  · intro hverified e w' hrun hchanged
    rw [ActivationCall.run_eq] at hrun
    rcases PyM.bind_cases hrun with ⟨_, hrequest, -⟩ | ⟨request, v, hrequest, hrun⟩
    · exact (ActivationCall.request_eq hrequest).1 call.key
    obtain ⟨hsame, hok⟩ := ActivationCall.request_eq hrequest
    obtain ⟨hrejected, hkey⟩ := hok request rfl
    rcases PyM.bind_cases hrun with ⟨_, hactivate, -⟩ | ⟨bundle, u, hactivate, hrun⟩
    · rcases ControlPlaneService.activatePolicy_eq hactivate with
        ⟨hapart, -⟩ | ⟨now, o, found, t, hnow, hfind, hwrite, hstore, hend⟩
      · rw [hapart.1]
        exact hsame call.key
      · have hcheck := hverified request v hrequest now o hnow found hfind
          (congrArg Prod.fst hwrite)
        rcases hend with ⟨_, -, hfailed, -⟩ | ⟨-, hquiet, -⟩
        · rw [hcheck] at hfailed
          cases hfailed
        · exact absurd (hquiet.trans hrejected) hchanged
    · -- what follows a verified activation rejects nothing
      have hfinish := ActivationCall.finish_eq hrun
      rcases ControlPlaneService.activatePolicy_eq hactivate with
        ⟨-, ⟨_, hr⟩, -⟩ | ⟨_, _, _, _, -, -, -, -, ⟨_, hr, -⟩ | ⟨-, hquiet, -⟩⟩
      · cases hr
      · cases hr
      · exact absurd ((hfinish.trans hquiet).trans hrejected) hchanged

end

/-! ### A signer that is no longer configured -/

def servedBundle (version signerKeyId : String) : PolicyBundle SmallFloat :=
  ⟨PolicyStore.sampleKey, lit version, .obj [], [], [], lit signerKeyId, lit "published", [], []⟩

def currentSigner : PolicySigner Unit where
  keyId := lit "current"
  sign _ := return []
  verify _ _ := return true

/-- The bundles of the key `retired` are still in the store. -/
def rotatedService : ControlPlaneService SmallFloat Str Str Unit where
  store := sqliteStore
  hash := default
  signers keyId := if keyId = lit "current" then some currentSigner else none
  defaultSignerKeyId := lit "current"
  default_configured := rfl
  requireSignedBundles := true
  eventSink := none
  utcNow := return []
  eventStamp := return ([], [])

/-- The first version is active, with a rollout of the third. -/
def rotatedStore : Proc (StoreWorld SmallFloat Str Str) PyExc Unit := do
  rotatedService.store.saveBundle (servedBundle "1" "current")
  rotatedService.store.saveBundle (servedBundle "2" "retired")
  rotatedService.store.saveBundle (servedBundle "3" "current")
  let _ ← rotatedService.store.activate PolicyStore.sampleKey (lit "1") [] [] none
  let _ ← rotatedService.store.startRollout default PolicyStore.sampleKey (lit "3") 50 [] []
    (lit "seed") none
  return ()

def rotatedWorld : ServiceWorld SmallFloat Str Str Unit :=
  ⟨(rotatedStore.run ⟨.empty, []⟩).2, (), []⟩

def activateRetired : ActivationCall :=
  .activate ⟨PolicyStore.sampleKey, lit "2", lit "admin", none⟩

/-- The rejected version is active, and the rollout is gone. -/
theorem rejected_version_active : ¬ AtomicOnRejection rotatedService activateRetired rotatedWorld := by
  intro hatomic
  have hbefore : (rotatedWorld.store.tables.activation PolicyStore.sampleKey).1 =
      some (lit "1", 1) ∧
      (rotatedWorld.store.tables.activation PolicyStore.sampleKey).2.isSome = true := by
    decide +kernel
  have hafter : (((activateRetired.run rotatedService rotatedWorld).2.store.tables.activation
      PolicyStore.sampleKey).1, (activateRetired.run rotatedService rotatedWorld).2.rejected,
      (activateRetired.run rotatedService rotatedWorld).1.isOk) =
      (some (lit "2", 2),
        [policySignatureError (lit "Unknown policy signing key: retired")], false) := by
    decide +kernel
  rcases hrun : activateRetired.run rotatedService rotatedWorld with ⟨e | bundle, w'⟩
  · rw [hrun] at hafter
    obtain ⟨hactive, hrest⟩ := Prod.mk.inj hafter
    have hkept := hatomic e w' hrun fun hsame => by
      have hrejected := (Prod.mk.inj hrest).1.symm.trans hsame
      cases hrejected
    have hsame := (hactive.symm.trans (congrArg Prod.fst hkept)).trans hbefore.1
    cases hsame
  · rw [hrun] at hafter
    have hraised := (Prod.mk.inj (Prod.mk.inj hafter).2).2
    cases hraised

end AgentRoi
