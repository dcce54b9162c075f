/-
The actors that the control plane records.

* `StoredActor` — the names in the rows that a request stores;
* `Attributed` — the body names no one but the principal;
* `recorded_actor_iff` — an accepted request stores the principal's subject
  only, exactly when the body is so.
-/
import AgentRoi.ApiEffects

namespace AgentRoi

open RowTable

variable {F V T W X Y O : Type}

/-- The rows of `t'` that are not in `t` name the actor. -/
structure ControlPlaneTables.NewBy (actor : Str) (t t' : ControlPlaneTables V T) : Prop where
  bundles : ∀ row ∈ t'.bundles, row ∉ t.bundles → row.createdBy = actor
  active : ∀ row ∈ t'.active, row ∉ t.active → row.activatedBy = actor
  rollouts : ∀ row ∈ t'.rollouts, row ∉ t.rollouts → row.updatedBy = actor

namespace ControlPlaneTables.NewBy

variable {t t' : ControlPlaneTables V T} {actor : Str}

theorem refl (t : ControlPlaneTables V T) : NewBy actor t t where
  bundles _ h hnot := absurd h hnot
  active _ h hnot := absurd h hnot
  rollouts _ h hnot := absurd h hnot

theorem trans {u : ControlPlaneTables V T} (h : NewBy actor t t') (h' : NewBy actor t' u) :
    NewBy actor t u where
  bundles row hrow hnot := by
    by_cases hmid : row ∈ t'.bundles
    · exact h.bundles row hmid hnot
    · exact h'.bundles row hrow hmid
  active row hrow hnot := by
    by_cases hmid : row ∈ t'.active
    · exact h.active row hmid hnot
    · exact h'.active row hrow hmid
  rollouts row hrow hnot := by
    by_cases hmid : row ∈ t'.rollouts
    · exact h.rollouts row hmid hnot
    · exact h'.rollouts row hrow hmid

end ControlPlaneTables.NewBy

namespace PolicyStore

variable [PyFloat F] {store : PolicyStore F V T} {t t' : ControlPlaneTables V T} {actor : Str}

omit [PyFloat F] in
theorem newActive_by {key : PolicyKey} {version now activatedBy : Str} {expected : Option Int}
    {row : ActiveRow T}
    (h : store.newActive t key version now activatedBy expected = .ok row) :
    row.activatedBy = activatedBy := by
  cases expected with
  | none =>
    simp only [newActive, except_bind_eq_ok] at h
    obtain ⟨_, -, _, -, _, -, _, -, h⟩ := h
    cases h
    rfl
  | some revision =>
    simp only [newActive, except_bind_eq_ok] at h
    obtain ⟨_, -, _, -, _, -, _, -, _, -, h⟩ := h
    cases h
    rfl

omit [PyFloat F] in
theorem newRollout_by {key : PolicyKey} {primary candidate : Str} {percentage : Int}
    {seed now updatedBy : Str} {expected : Option Int} {row : RolloutRow T}
    (h : store.newRollout t key primary candidate percentage seed now updatedBy expected = .ok row) :
    row.updatedBy = updatedBy := by
  cases expected with
  | none =>
    simp only [newRollout, except_bind_eq_ok] at h
    obtain ⟨_, -, _, -, _, -, _, -, _, -, _, -, h⟩ := h
    cases h
    rfl
  | some revision =>
    simp only [newRollout, except_bind_eq_ok] at h
    obtain ⟨_, -, _, -, _, -, _, -, _, -, _, -, _, -, h⟩ := h
    cases h
    rfl

/-- A write adds rows that name its actor, and no others. -/
theorem newBy_write {w : PolicyWrite F} {u : Unit} (hactor : ∀ a, w.actor = some a → a = actor)
    (h : store.write w t = (.ok u, t')) : ControlPlaneTables.NewBy actor t t' := by
  have hkept : ∀ {ρ : Type} {rows : List ρ} {P : ρ → Prop}, ∀ row ∈ rows, row ∉ rows → P row :=
    fun row hrow hnot => absurd hrow hnot
  cases w with
  | saveBundle bundle =>
    obtain ⟨row, hfree, hrow, rfl⟩ := write_saveBundle h
    refine ⟨fun r hr hnot => ?_, hkept, hkept⟩
    rcases List.mem_append.mp hr with hr | hr
    · exact absurd hr hnot
    · obtain ⟨-, -, _, _, -, -, rfl⟩ := rowOfBundle_eq_ok hrow
      rw [List.mem_singleton.mp hr]
      exact hactor _ rfl
  | activate key version now activatedBy expected =>
    obtain ⟨row, hrow, hnew, rfl⟩ := write_activate h
    refine ⟨hkept, fun r hr hnot => ?_, fun r hr hnot => absurd (List.mem_filter.mp hr).1 hnot⟩
    rcases mem_upsert hr with rfl | hr
    · exact (newActive_by hnew).trans (hactor _ rfl)
    · exact absurd hr hnot
  | startRollout key primary candidate percentage seed now updatedBy expected =>
    obtain ⟨row, hrow, hnew, rfl⟩ := write_startRollout h
    refine ⟨hkept, hkept, fun r hr hnot => ?_⟩
    rcases mem_upsert hr with rfl | hr
    · exact (newRollout_by hnew).trans (hactor _ rfl)
    · exact absurd hr hnot
  | cancelRollout key =>
    obtain rfl := write_cancelRollout h
    exact ⟨hkept, hkept, fun r hr hnot => absurd (List.mem_filter.mp hr).1 hnot⟩
  | registerAgent key owner purpose status metadata version now expected =>
    obtain ⟨row, -, rfl⟩ := write_registerAgent h
    exact ⟨hkept, hkept, hkept⟩
  | heartbeat key policyDigest version status now expected =>
    obtain ⟨row, -, rfl⟩ := write_heartbeat h
    exact ⟨hkept, hkept, hkept⟩

/-- So do writes one after the other. -/
theorem Written.newBy {organizationId : Str} (h : store.Written organizationId actor t t') :
    ControlPlaneTables.NewBy actor t t' := by
  induction h with
  | refl => exact .refl t
  | tail _ hwrite ih =>
    obtain ⟨w, -, hactor, hw⟩ := hwrite
    exact ih.trans (newBy_write hactor hw)

end PolicyStore

/-! ### The names that a request stores -/

/-- A name in a row that the request stores. -/
inductive StoredActor (w w' : ApiWorld F V T W X Y O) : Str → Prop
  | bundle {row} : row ∈ w'.service.store.tables.bundles → row ∉ w.service.store.tables.bundles →
      StoredActor w w' row.createdBy
  | active {row} : row ∈ w'.service.store.tables.active → row ∉ w.service.store.tables.active →
      StoredActor w w' row.activatedBy
  | rollout {row} : row ∈ w'.service.store.tables.rollouts →
      row ∉ w.service.store.tables.rollouts → StoredActor w w' row.updatedBy
  | opportunity {row} : row ∈ w'.roi.opportunities → w.roi.opportunity row.opportunityId = none →
      StoredActor w w' row.createdBy
  | history {row} : row ∈ w'.roi.history → row ∉ w.roi.history → StoredActor w w' row.changedBy
  | value {row} : row ∈ w'.roi.values → row ∉ w.roi.values → StoredActor w w' row.recordedBy
  | cost {row} : row ∈ w'.roi.costs → row ∉ w.roi.costs → StoredActor w w' row.recordedBy

/-- The body names the principal, or no one: `created_by` of an opportunity is
the subject, and so is `recorded_by` where the body of a value or a cost has
one, spaces around it apart.  Other routes read no name from the body. -/
def Attributed (principal : Principal) : ApiRequest F V T W X Y O → Prop
  | .roiCreate _ body => strip (textOf (bodyGet body "created_by" .null)) = principal.subject
  | .roiRecordValue _ _ body | .roiRecordCost _ body => ∀ value,
      dictGet (lit "recorded_by") body = some value → strip (textOf value) = principal.subject
  | _ => True

theorem attributed_iff {principal : Principal} {request : ApiRequest F V T W X Y O} :
    Attributed principal request ↔ request.actor principal = principal.subject := by
  -- a body without the field names the principal
  have hrecorded : ∀ body : RequestBody F, (∀ value, dictGet (lit "recorded_by") body = some value →
      strip (textOf value) = principal.subject) ↔ recordedBy principal body = principal.subject := by
    intro body
    unfold recordedBy bodyGet
    cases hvalue : dictGet (lit "recorded_by") body with
    | none => exact ⟨fun _ => principal.subject_clean.2, fun _ _ h => nomatch h⟩
    | some value => exact ⟨fun h => h value rfl, fun h _ hv => Option.some.inj hv ▸ h⟩
  cases request with
  | roiCreate organizationId body => exact Iff.rfl
  | roiRecordValue organizationId opportunityId body => exact hrecorded body
  | roiRecordCost organizationId body => exact hrecorded body
  | _ => exact ⟨fun _ => rfl, fun _ => trivial⟩

/-! ### Rows of the ledger -/

section

variable {w : ApiWorld F V T W X Y O} {t : RoiTables F X Y} {organizationId actor a : Str}

/-- An opportunity that is there is found under its id. -/
theorem RoiTables.opportunity_ne_none {t : RoiTables F V T} {row : OpportunityRow F V T}
    (h : row ∈ t.opportunities) : t.opportunity row.opportunityId ≠ none := fun hnone =>
  rowAt_eq_none_iff.mp hnone (List.mem_map.mpr ⟨row, h, rfl⟩)

/-- The row that a call of the ledger adds names its actor. -/
theorem RoiStore.Written.stored (h : RoiStore.Written organizationId actor w.roi t) :
    StoredActor w { w with roi := t } actor := by
  -- a row whose key was free is not there yet
  have hnew : ∀ {ρ : Type} {key : ρ → Str} {rows : List ρ} {row : ρ},
      rowAt key (key row) rows = none → row ∉ rows :=
    fun hfree hmem => rowAt_eq_none_iff.mp hfree (List.mem_map.mpr ⟨_, hmem, rfl⟩)
  have hlast : ∀ {ρ : Type} {rows : List ρ} {row : ρ}, row ∈ rows ++ [row] :=
    List.mem_append_right _ (List.mem_singleton.mpr rfl)
  cases h with
  | created hid hsource _ hactor =>
    rw [← hactor]
    exact .opportunity hlast hid
  | moved hid _ _ _ hactor =>
    rw [← hactor]
    exact .history hlast (hnew hid)
  | valued hid _ _ _ hactor =>
    rw [← hactor]
    exact .value hlast (hnew hid)
  | costed hid _ _ _ hactor =>
    rw [← hactor]
    exact .cost hlast (hnew hid)

/-- It names no one else. -/
theorem RoiStore.Written.only (h : RoiStore.Written organizationId actor w.roi t)
    (hstored : StoredActor w { w with roi := t } a) : a = actor := by
  have hadded : ∀ {ρ : Type} {rows : List ρ} {row r : ρ}, r ∈ rows ++ [row] → r ∉ rows → r = row :=
    fun hr hnot => List.mem_singleton.mp ((List.mem_append.mp hr).resolve_left hnot)
  cases hstored with
  | bundle hrow hnot => exact absurd hrow hnot
  | active hrow hnot => exact absurd hrow hnot
  | rollout hrow hnot => exact absurd hrow hnot
  | opportunity hrow hnone =>
    cases h with
    | created hid hsource _ hactor =>
      rcases List.mem_append.mp hrow with hold | hlast
      · exact absurd hnone (RoiTables.opportunity_ne_none hold)
      · rw [List.mem_singleton.mp hlast]
        exact hactor
    | moved hid hopportunity hfound _ hactor =>
      -- a row that was moved has the id it had
      obtain ⟨old, hold, rfl⟩ := mem_updateWhere.mp hrow
      refine absurd hnone ?_
      have hfound := RoiTables.opportunity_ne_none hold
      split
      · exact hfound
      · exact hfound
    | valued => exact absurd hnone (RoiTables.opportunity_ne_none hrow)
    | costed => exact absurd hnone (RoiTables.opportunity_ne_none hrow)
  | history hrow hnot =>
    cases h with
    | moved hid hopportunity hfound _ hactor =>
      rw [hadded hrow hnot]
      exact hactor
    | created => exact absurd hrow hnot
    | valued => exact absurd hrow hnot
    | costed => exact absurd hrow hnot
  | value hrow hnot =>
    cases h with
    | valued hid _ _ _ hactor =>
      rw [hadded hrow hnot]
      exact hactor
    | created => exact absurd hrow hnot
    | moved => exact absurd hrow hnot
    | costed => exact absurd hrow hnot
  | cost hrow hnot =>
    cases h with
    | costed hid _ _ _ hactor =>
      rw [hadded hrow hnot]
      exact hactor
    | created => exact absurd hrow hnot
    | moved => exact absurd hrow hnot
    | valued => exact absurd hrow hnot

end

/-! ### Any request -/

section

variable {w w' : ApiWorld F V T W X Y O} {a : Str}

/-- Where the policy tables gain rows of one actor and the ledger stays, no
other name is stored. -/
theorem StoredActor.of_newBy {actor : Str} (hstored : StoredActor w w' a) (hroi : w'.roi = w.roi)
    (h : ControlPlaneTables.NewBy actor w.service.store.tables w'.service.store.tables) :
    a = actor := by
  cases hstored with
  | bundle hrow hnot => exact h.bundles _ hrow hnot
  | active hrow hnot => exact h.active _ hrow hnot
  | rollout hrow hnot => exact h.rollouts _ hrow hnot
  | opportunity hrow hnone =>
    rw [hroi] at hrow
    exact absurd hnone (RoiTables.opportunity_ne_none hrow)
  | history hrow hnot =>
    rw [hroi] at hrow
    exact absurd hrow hnot
  | value hrow hnot =>
    rw [hroi] at hrow
    exact absurd hrow hnot
  | cost hrow hnot =>
    rw [hroi] at hrow
    exact absurd hrow hnot

variable [LE Y] [PyValues F] [PyDecimalFloat F] {api : ControlPlaneApi F V T W X Y O}
  {moment : Moment} {principal : Principal} {request : ApiRequest F V T W X Y O}

omit [PyDecimalFloat F] in
/-- Whatever a request stores names its actor. -/
theorem ApiEffect.actor (h : ApiEffect api moment principal request w w')
    (hstored : StoredActor w w' a) : a = request.actor principal := by
  cases h with
  | reads hactor =>
    rw [hactor]
    exact hstored.of_newBy rfl (.refl _)
  | policies hactor _ hwritten =>
    rw [hactor]
    exact hstored.of_newBy rfl hwritten.newBy
  | ledger _ hwritten => exact hwritten.only hstored
  | saveRole => exact hstored.of_newBy rfl (.refl _)
  | deleteRole => exact hstored.of_newBy rfl (.refl _)
  | saveBinding => exact hstored.of_newBy rfl (.refl _)
  | deleteBinding => exact hstored.of_newBy rfl (.refl _)
  | elsewhere => exact hstored.of_newBy rfl (.refl _)

/-- An accepted request stores the subject of the principal, and no other name,
exactly when its body names no one else. -/
theorem recorded_actor_iff (h : api.handle moment principal request w = (.ok (), w')) :
    (∀ a, StoredActor w w' a → a = principal.subject) ↔ Attributed principal request := by
  have heffect := ControlPlaneApi.effect_of_handle h
  rw [attributed_iff]
  constructor
  · intro hall
    cases heffect with
    | ledger _ hwritten => exact hall _ hwritten.stored
    | reads hactor => exact hactor
    | policies hactor => exact hactor
    | saveRole => rfl
    | deleteRole => rfl
    | saveBinding => rfl
    | deleteBinding => rfl
    | elsewhere => rfl
  · intro hactor a hstored
    exact (heffect.actor hstored).trans hactor

end

/-! ### A forged name -/

theorem recorded_actor_alice :
    sampleApi.handle sampleMoment alice (createAs "alice") newApiWorld =
      (.ok (), afterCreate "alice") ∧
    ∀ a, StoredActor newApiWorld (afterCreate "alice") a → a = alice.subject := by
  have haccepted := createAs_accepted "alice" (by decide +kernel)
  exact ⟨haccepted, (recorded_actor_iff haccepted).mpr (show strip _ = _ by decide +kernel)⟩

/-- Alice records an opportunity in the name of Mallory. -/
theorem recorded_actor_forged :
    sampleApi.handle sampleMoment alice (createAs "mallory") newApiWorld =
      (.ok (), afterCreate "mallory") ∧
    ∃ a, StoredActor newApiWorld (afterCreate "mallory") a ∧ a ≠ alice.subject := by
  refine ⟨createAs_accepted "mallory" (by decide +kernel), lit "mallory", ?_, by decide⟩
  have hcreators : (afterCreate "mallory").roi.opportunities.map OpportunityRow.createdBy =
      [lit "mallory"] := by decide +kernel
  obtain ⟨row, hrow, hcreator⟩ := List.mem_map.mp
    (hcreators.symm ▸ List.mem_singleton.mpr rfl :
      lit "mallory" ∈ (afterCreate "mallory").roi.opportunities.map OpportunityRow.createdBy)
  rw [← hcreator]
  exact .opportunity hrow rfl

end AgentRoi
