/-
The bundles behind the control plane's routes.

* `PyM.Moves` — what a method does to the state it works on, whether it returns
  or raises;
* `ControlPlaneService.Stocked` — every bundle of the store is one that the
  service made;
* `grows_handle` — every request keeps the bundles there are and adds such ones
  only;
* `ApiServes` — requests of any principals, one after the other, accepted or
  refused.
-/
import AgentRoi.ApiRoutes

namespace AgentRoi

variable {F V T W X Y O α β : Type}

/-! ### What a method does to its state -/

namespace PyM

section

variable {σ τ : Type} {R : σ → σ → Prop}

/-- The state the method leaves is related to the one it began in. -/
def Moves (R : σ → σ → Prop) (x : PyM σ α) : Prop := ∀ s, R s (x s).2

theorem moves_of_same {x : PyM σ α} (hrefl : ∀ s, R s s) (h : ∀ s, (x s).2 = s) : Moves R x := by
  intro s
  rw [h s]
  exact hrefl s

theorem moves_pure (hrefl : ∀ s, R s s) (a : α) : Moves R (pure a : PyM σ α) := hrefl

theorem moves_raise (hrefl : ∀ s, R s s) (e : PyExc) : Moves R (raise e : PyM σ α) := hrefl

theorem moves_ofExcept (hrefl : ∀ s, R s s) (r : Except PyExc α) :
    Moves R (ofExcept r : PyM σ α) := hrefl

theorem moves_bind (htrans : ∀ {s t u}, R s t → R t u → R s u) {x : PyM σ α} {f : α → PyM σ β}
    (hx : Moves R x) (hf : ∀ a, Moves R (f a)) : Moves R (x >>= f) := by
  intro s
  have hfirst := hx s
  rcases hs : x s with ⟨e | a, t⟩
  · rw [bind_of_error hs]
    rwa [hs] at hfirst
  · rw [bind_of_ok hs]
    rw [hs] at hfirst
    exact htrans hfirst (hf a t)

theorem moves_tryExcept (htrans : ∀ {s t u}, R s t → R t u → R s u) {x : PyM σ α}
    {handler : PyExc → PyM σ α} (hx : Moves R x) (hhandler : ∀ e, Moves R (handler e)) :
    Moves R (tryExcept x handler) := by
  intro s
  have hfirst := hx s
  rcases hs : x s with ⟨e | a, t⟩
  · rw [tryExcept_of_error hs]
    rw [hs] at hfirst
    exact htrans hfirst (hhandler e t)
  · rw [tryExcept_of_ok hs]
    rwa [hs] at hfirst

/-- A method of a part of the state. -/
theorem moves_on {Q : τ → τ → Prop} {part : τ → σ} {update : τ → σ → τ}
    (hpart : ∀ t s, R (part t) s → Q t (update t s)) {x : PyM σ α} (hx : Moves R x) :
    Moves Q (on part update x) :=
  fun t => hpart t _ (hx (part t))

end

end PyM

/-! ### The service -/

namespace ControlPlaneService

variable [PyFloatOps F]

/-- Every row of `policy_bundles` is that of a bundle the service made. -/
def Stocked (service : ControlPlaneService F V T W) (w : ServiceWorld F V T W) : Prop :=
  ∀ key version row, w.store.tables.bundle key version = some row → service.Saved row

/-- The bundles after a method of the service. -/
def Keeps (service : ControlPlaneService F V T W) (w w' : ServiceWorld F V T W) : Prop :=
  service.Grows w.store.tables w'.store.tables

variable {service : ControlPlaneService F V T W} {w w' : ServiceWorld F V T W}

theorem Keeps.refl (w : ServiceWorld F V T W) : service.Keeps w w := Grows.refl _

theorem Keeps.trans {u : ServiceWorld F V T W} (h : service.Keeps w w') (h' : service.Keeps w' u) :
    service.Keeps w u := Grows.trans h h'

theorem Keeps.of_store (h : w'.store = w.store) : service.Keeps w w' :=
  Grows.of_bundles (congrArg (fun s => s.tables.bundles) h)

/-- What is kept stays stocked. -/
theorem Stocked.keeps (h : service.Stocked w) (hkeeps : service.Keeps w w') :
    service.Stocked w' := by
  intro key version row hrow
  rcases hkeeps.added key version row hrow with hbefore | hsaved
  · exact h key version row hbefore
  · exact hsaved

theorem stocked_new (hnew : PolicyStore.NewStore w.store) : service.Stocked w := by
  intro key version row hrow
  rw [hnew] at hrow
  cases hrow

/-! #### Methods that read -/

/-- The store, after a method that reads. -/
def SameStore (w w' : ServiceWorld F V T W) : Prop := w'.store = w.store

omit [PyFloatOps F] in
theorem moves_onStore {R : StoreWorld F V T → StoreWorld F V T → Prop}
    {Q : ServiceWorld F V T W → ServiceWorld F V T W → Prop}
    (hpart : ∀ w s, R w.store s → Q w { w with store := s }) {p : Proc (StoreWorld F V T) PyExc α}
    (hp : ∀ s, R s (p.run s).2) : PyM.Moves Q (onStore p) :=
  PyM.moves_on hpart hp

theorem sameStore_verifyRequired (bundle : PolicyBundle F) :
    PyM.Moves SameStore (service.verifyRequired bundle) :=
  fun _ => (verifyRequired_eq rfl).1

omit [PyFloatOps F] in
/-- A program that reads leaves the store as it is. -/
theorem run_reading_same {p : Proc (StoreWorld F V T) PyExc α}
    (hp : ∀ s, Proc.Follows (fun _ _ => True) (fun s s' => s' = s) p s) (s : StoreWorld F V T) :
    (p.run s).2 = s :=
  (hp s).run (fun _ => trivial) (J := fun s' => s' = s) (fun _ _ hg hj => hg.trans hj) rfl

theorem sameStore_activePolicy (key : PolicyKey) :
    PyM.Moves SameStore (service.activePolicy key) := by
  have hfollows : ∀ s, Proc.Follows (fun _ _ => True) (fun s s' => s' = s)
      (service.store.getActive key) s := fun s =>
    PolicyStore.follows_getActive (G := fun s s' => s' = s) (fun _ => trivial) fun _ => rfl
  have hread : PyM.Moves SameStore
      (onStore (service.store.getActive key) : PyM (ServiceWorld F V T W) _) :=
    moves_onStore (R := fun s s' => s' = s) (fun _ _ h => h) (run_reading_same hfollows)
  exact PyM.moves_bind (fun h h' => h'.trans h) hread fun bundle =>
    PyM.moves_bind (fun h h' => h'.trans h) (sameStore_verifyRequired bundle) fun _ => fun _ => rfl

theorem sameStore_policyForAgent (key : PolicyKey) (agentId : Str) :
    PyM.Moves SameStore (service.policyForAgent key agentId) := by
  have hfollows : ∀ s, Proc.Follows (fun _ _ => True) (fun s s' => s' = s)
      (service.store.resolveActive service.hash key agentId) s := fun s =>
    PolicyStore.follows_resolveActive (G := fun s s' => s' = s) (fun _ => trivial) fun _ => rfl
  have hread : PyM.Moves SameStore
      (onStore (service.store.resolveActive service.hash key agentId) :
        PyM (ServiceWorld F V T W) _) :=
    moves_onStore (R := fun s s' => s' = s) (fun _ _ h => h) (run_reading_same hfollows)
  exact PyM.moves_bind (fun h h' => h'.trans h) hread fun bundle =>
    PyM.moves_bind (fun h h' => h'.trans h) (sameStore_verifyRequired bundle) fun _ => fun _ => rfl

/-! #### Methods that write -/

/-- A transaction that writes no bundle. -/
theorem keeps_onStore {p : Proc (StoreWorld F V T) PyExc α}
    (hp : ∀ s, Proc.Follows (fun _ _ => True)
      (fun s s' => s'.tables.bundles = s.tables.bundles) p s) :
    PyM.Moves service.Keeps (onStore p) := by
  refine moves_onStore (R := fun s s' => s'.tables.bundles = s.tables.bundles)
    (fun _ _ h => Grows.of_bundles h) fun s => ?_
  exact (hp s).run (fun _ => trivial)
    (J := fun s' => s'.tables.bundles = s.tables.bundles) (fun _ _ hg hj => hg.trans hj) rfl

/-- The rows of `agents` are no bundles. -/
theorem bundles_writing_agents {write : PolicyWrite F}
    (hwrite : ∀ {t t' : ControlPlaneTables V T}, service.store.write write t = (.ok (), t') →
      t'.bundles = t.bundles) (s : StoreWorld F V T) :
    ((service.store.writing write).run s).2.tables.bundles = s.tables.bundles := by
  rcases hs : (service.store.writing write).run s with ⟨r, s'⟩
  rcases PolicyStore.writing_eq hs with ⟨_, -, -, rfl⟩ | ⟨t, -, hok, rfl⟩
  · rfl
  · exact hwrite hok

theorem keeps_registerAgent (key : AgentKey) (owner purpose status : Str)
    (metadata : List (PyKey F × PyVal F)) (version now : Str) (expected : Option Int) :
    PyM.Moves service.Keeps
      (onStore (service.store.registerAgent key owner purpose status metadata version now
        expected)) := by
  refine keeps_onStore fun s => Proc.follows_bind (fun _ => trivial) ?_ fun _ _ =>
    PolicyStore.follows_reading fun _ => rfl
  refine PolicyStore.follows_writing (bundles_writing_agents fun hok => ?_)
  obtain ⟨row, -, rfl⟩ := PolicyStore.write_registerAgent hok
  rfl

theorem keeps_heartbeat (key : AgentKey) (policyDigest version status now : Str)
    (expected : Option Int) :
    PyM.Moves service.Keeps
      (onStore (service.store.heartbeat key policyDigest version status now expected)) := by
  refine keeps_onStore fun s => Proc.follows_bind (fun _ => trivial) ?_ fun _ _ =>
    PolicyStore.follows_reading fun _ => rfl
  refine PolicyStore.follows_writing (bundles_writing_agents fun hok => ?_)
  obtain ⟨row, -, rfl⟩ := PolicyStore.write_heartbeat hok
  rfl

end ControlPlaneService

/-! ### Requests -/

namespace ControlPlaneApi

variable [LE Y] [PyValues F] (api : ControlPlaneApi F V T W X Y O)

/-- The bundles after a request. -/
def Keeps (w w' : ApiWorld F V T W X Y O) : Prop := api.service.Keeps w.service w'.service

variable {api} {moment : Moment} {principal : Principal}

omit [PyValues F] in
theorem moves_require {Q : ApiWorld F V T W X Y O → ApiWorld F V T W X Y O → Prop}
    (hrefl : ∀ w, Q w w) {action resource environment organizationId : Str} :
    PyM.Moves Q (api.require principal action resource environment organizationId) := by
  refine PyM.moves_of_same hrefl fun w => ?_
  unfold require
  split
  · rfl
  · split
    · rfl
    · split <;> rfl

/-- A checked route. -/
theorem keeps_checked {action resource environment organizationId : Str}
    {status : PyExc → Option ℕ} {x : PyM (ApiWorld F V T W X Y O) α}
    (hx : PyM.Moves api.Keeps x) :
    PyM.Moves api.Keeps (do
      api.require principal action resource environment organizationId
      answering status x) :=
  PyM.moves_bind .trans (moves_require fun _ => .refl _) fun _ =>
    PyM.moves_tryExcept .trans hx fun _ => PyM.moves_raise (fun _ => .refl _) _

/-- A call of the policy service. -/
theorem keeps_onService {x : PyM (ServiceWorld F V T W) α} (hx : PyM.Moves api.service.Keeps x) :
    PyM.Moves api.Keeps (onService (X := X) (Y := Y) (O := O) x) := by
  refine PyM.moves_on ?_ hx
  exact fun _ _ h => h

/-- A call of another part. -/
theorem keeps_of_service {x : PyM (ApiWorld F V T W X Y O) α}
    (h : ∀ w, (x w).2.service = w.service) : PyM.Moves api.Keeps x := by
  intro w
  show api.service.Keeps w.service (x w).2.service
  rw [h w]
  exact .refl _

theorem keeps_ofExcept {β : Type} (r : Except PyExc α) {f : α → PyM (ApiWorld F V T W X Y O) β}
    (hf : ∀ a, PyM.Moves api.Keeps (f a)) : PyM.Moves api.Keeps (PyM.ofExcept r >>= f) :=
  PyM.moves_bind .trans (PyM.moves_ofExcept (fun _ => .refl _) r) hf

/-- A call whose answer is dropped. -/
theorem keeps_dropped {x : PyM (ApiWorld F V T W X Y O) α} (hx : PyM.Moves api.Keeps x) :
    PyM.Moves api.Keeps (do
      let _ ← x
      return ()) :=
  PyM.moves_bind .trans hx fun _ => PyM.moves_pure (fun _ => .refl _) ()

theorem keeps_installed {β : Type} (part : Option β)
    {route : β → PyM (ApiWorld F V T W X Y O) α} (h : ∀ b, PyM.Moves api.Keeps (route b)) :
    PyM.Moves api.Keeps (installed part route) := by
  cases part with
  | none => exact PyM.moves_raise (fun _ => .refl _) _
  | some b => exact h b

variable [PyDecimalFloat F]

theorem keeps_roiOpportunity (ledger : RoiStore F X Y) (organizationId opportunityId : Str) :
    PyM.Moves api.Keeps (roiOpportunity (F := F) (V := V) (T := T) (W := W) (O := O) ledger
      organizationId opportunityId) := by
  refine PyM.moves_bind .trans (keeps_of_service fun _ => rfl) fun opportunity => ?_
  split
  · exact PyM.moves_raise (fun _ => .refl _) _
  · exact PyM.moves_pure (fun _ => .refl _) ()

/-- Every route, whoever asks and whatever comes of it. -/
theorem keeps_route (request : ApiRequest F V T W X Y O) :
    PyM.Moves api.Keeps (api.route moment principal request) := by
  -- the routes of policies, by what their service methods do to the tables
  cases request with
  | publishPolicy key version body =>
    refine keeps_checked (keeps_ofExcept _ fun policy => keeps_ofExcept _ fun members => ?_)
    exact keeps_dropped (keeps_onService fun w =>
      ControlPlaneService.grows_publishPolicy (Prod.mk.eta).symm)
  | activatePolicy key version ifMatch =>
    refine keeps_checked (keeps_ofExcept _ fun expected => ?_)
    exact keeps_dropped (keeps_onService fun w =>
      ControlPlaneService.grows_activatePolicy (Prod.mk.eta).symm)
  | activePolicy key =>
    refine keeps_checked (keeps_dropped (keeps_onService fun w => ?_))
    exact .of_store (ControlPlaneService.sameStore_activePolicy key w)
  | promotePolicy organizationId sourceEnvironment name sourceVersion targetEnvironment body =>
    refine keeps_checked (keeps_dropped (keeps_onService fun w => ?_))
    exact ControlPlaneService.grows_promotePolicy (Prod.mk.eta).symm
  | rollbackPolicy key version =>
    refine keeps_checked (keeps_dropped (keeps_onService fun w => ?_))
    exact ControlPlaneService.grows_rollbackPolicy (Prod.mk.eta).symm
  | startRollout key candidateVersion body ifMatch =>
    refine keeps_checked (keeps_ofExcept _ fun value => keeps_ofExcept _ fun percentage =>
      keeps_ofExcept _ fun expected => keeps_dropped (keeps_onService fun w => ?_))
    exact ControlPlaneService.grows_startRollout (Prod.mk.eta).symm
  | cancelRollout key =>
    refine PyM.moves_bind .trans (moves_require fun _ => .refl _) fun _ =>
      keeps_onService fun w => ?_
    exact ControlPlaneService.grows_cancelRollout (Prod.mk.eta).symm
  | resolvePolicy key agentId =>
    refine keeps_checked (keeps_dropped (keeps_onService fun w => ?_))
    exact .of_store (ControlPlaneService.sameStore_policyForAgent key agentId w)
  -- agents, roles and bindings, and the ledger share no table with the policies
  | registerAgent organizationId body ifMatch =>
    refine keeps_checked (keeps_ofExcept _ fun _ => keeps_ofExcept _ fun expected =>
      keeps_ofExcept _ fun agentId => keeps_ofExcept _ fun environment =>
      keeps_ofExcept _ fun owner => keeps_ofExcept _ fun purpose => keeps_ofExcept _ fun status =>
      keeps_ofExcept _ fun metadata => keeps_ofExcept _ fun version => keeps_dropped ?_)
    exact keeps_onService (ControlPlaneService.keeps_registerAgent _ _ _ _ _ _ _ _)
  | heartbeat key body ifMatch =>
    refine keeps_checked (keeps_ofExcept _ fun expected => keeps_dropped ?_)
    exact keeps_onService (ControlPlaneService.keeps_heartbeat _ _ _ _ _ _)
  | rbacSaveRole roleName body =>
    refine keeps_installed _ fun store => keeps_checked (keeps_ofExcept _ fun permissions =>
      keeps_ofExcept _ fun role => ?_)
    exact keeps_of_service fun _ => rfl
  | rbacDeleteRole roleName =>
    exact keeps_installed _ fun store => keeps_checked (keeps_of_service fun _ => rfl)
  | rbacSaveBinding body =>
    refine keeps_installed _ fun store => keeps_checked (keeps_ofExcept _ fun role =>
      keeps_ofExcept _ fun organizationId => keeps_ofExcept _ fun binding => keeps_dropped ?_)
    exact keeps_of_service fun _ => rfl
  | rbacDeleteBinding bindingId =>
    exact keeps_installed _ fun store => keeps_checked (keeps_of_service fun _ => rfl)
  | roiCreate organizationId body =>
    refine keeps_installed _ fun ledger => keeps_checked (keeps_ofExcept _ fun form =>
      keeps_dropped ?_)
    exact keeps_of_service fun _ => rfl
  | roiTransition organizationId opportunityId body ifMatch =>
    refine keeps_installed _ fun ledger => keeps_checked (PyM.moves_bind .trans
      (keeps_roiOpportunity ledger organizationId opportunityId) fun _ =>
      keeps_ofExcept _ fun expected => keeps_ofExcept _ fun status => keeps_dropped ?_)
    exact keeps_of_service fun _ => rfl
  | roiRecordValue organizationId opportunityId body =>
    refine keeps_installed _ fun ledger => keeps_checked (PyM.moves_bind .trans
      (keeps_roiOpportunity ledger organizationId opportunityId) fun _ =>
      keeps_ofExcept _ fun form => keeps_dropped ?_)
    exact keeps_of_service fun _ => rfl
  | roiRecordCost organizationId body =>
    refine keeps_installed _ fun ledger => keeps_checked (keeps_ofExcept _ fun form =>
      keeps_dropped ?_)
    exact keeps_of_service fun _ => rfl
  | reading action resource organizationId answer =>
    exact PyM.moves_bind .trans (moves_require fun _ => .refl _) fun _ =>
      PyM.moves_bind .trans (PyM.moves_of_same (fun _ => .refl _) fun _ => rfl) fun w =>
        PyM.moves_ofExcept (fun _ => .refl _) _
  | elsewhere action resource call =>
    exact PyM.moves_bind .trans (moves_require fun _ => .refl _) fun _ =>
      keeps_of_service fun _ => rfl

theorem keeps_handle (request : ApiRequest F V T W X Y O) :
    PyM.Moves api.Keeps (api.handle moment principal request) := by
  unfold handle
  split
  · exact PyM.moves_raise (fun _ => .refl _) _
  · exact keeps_route request

end ControlPlaneApi

/-- From one world to another by requests, the world outside changing in
between. -/
inductive ApiServes [LE Y] [PyValues F] [PyDecimalFloat F] (api : ControlPlaneApi F V T W X Y O) :
    ApiWorld F V T W X Y O → ApiWorld F V T W X Y O → Prop
  | refl (w) : ApiServes api w w
  | request {w v} : ApiServes api w v → ∀ moment principal request,
      ApiServes api w (api.handle moment principal request v).2
  | outside {w v} : ApiServes api w v → ∀ o : W,
      ApiServes api w { v with service := { v.service with outside := o } }

/-- The control plane has no bundles but those the service made. -/
theorem ApiServes.stocked [LE Y] [PyValues F] [PyDecimalFloat F]
    {api : ControlPlaneApi F V T W X Y O} {w v : ApiWorld F V T W X Y O} (h : ApiServes api w v)
    (hw : api.service.Stocked w.service) : api.service.Stocked v.service := by
  induction h with
  | refl => exact hw
  | request _ moment principal request ih =>
    exact ih.keeps (ControlPlaneApi.keeps_handle request _)
  | outside _ o ih => exact ih

end AgentRoi
