/-
Consuming the grants of a PostgreSQL approval repository.

* `ConsumedOnce` — a stored grant is consumed at most once, and from then on
  `__call__` returns no grant for the action until a new one is stored;
* `NoSpentCache` — no broker is called while it keeps a live grant whose
  stored grant was consumed;
* `consumed_once` — then grants are consumed once.
-/
import AgentRoi.ApprovalSteps

namespace AgentRoi

namespace ApprovalBroker

open ApprovalState EventTrace

variable {W P : Type} {sys : ApprovalSystem W P} {passed : Checkpoint → Prop} {i : ℕ}

/-- Whether a grant is stored for the digest, and consumed. -/
def grantState (actionDigest : Str) : List (ℕ × BrokerEvent P) → Option Bool
  | [] => none
  | (_, .consumed d) :: earlier =>
    if d = actionDigest then some true else grantState actionDigest earlier
  | (_, .savedGrant grant) :: earlier =>
    if grant.actionDigest = actionDigest then some false else grantState actionDigest earlier
  | _ :: earlier => grantState actionDigest earlier

def ConsumedOnce : ℕ × BrokerEvent P → List (ℕ × BrokerEvent P) → Prop
  | (_, .consumed d), earlier => grantState d earlier = some false
  | (_, .granted cp _ _), earlier => grantState cp.actionDigest earlier ≠ some true
  | _, _ => True

/-- When the stored grant is consumed, the broker that is called keeps no
grant that is valid for the checkpoint, and no approved action that lives. -/
def NoSpentCache : ℕ × BrokerEvent P → List (ℕ × BrokerEvent P) → Prop
  | (_, .called cp held approvedAction stored nowMs), _ =>
    (∃ row, stored = some row ∧ row.consumed = true) →
    (∀ grant, held = some grant → grant.validate cp nowMs ≠ .ok ()) ∧
    ∀ grant, approvedAction = some grant → grant.expiresAtEpochMs < nowMs
  | _, _ => True

structure Consumption (s : ApprovalState W P) : Prop where
  keys : ∀ d row, s.repository.grants d = some row → row.grant.actionDigest = d
  rows : ∀ d, (s.repository.grants d).map StoredGrant.consumed = grantState d s.trace
  events : Every NoSpentCache s.trace → Every ConsumedOnce s.trace

/-- The events that say nothing of stored grants. -/
def isGrantless : BrokerEvent P → Bool
  | .consumed _ | .savedGrant _ | .granted _ _ _ => false
  | _ => true

theorem grantState_cons {e : BrokerEvent P} (h : isGrantless e = true) (d : Str)
    (trace : List (ℕ × BrokerEvent P)) : grantState d ((i, e) :: trace) = grantState d trace := by
  cases e <;> first | rfl | cases h

theorem consumedOnce_of_isGrantless {e : BrokerEvent P} (h : isGrantless e = true)
    (trace : List (ℕ × BrokerEvent P)) : ConsumedOnce (i, e) trace := by
  cases e <;> first | exact trivial | cases h

theorem grantState_append {events : List (BrokerEvent P)}
    (h : ∀ x ∈ events, isGrantless x = true) (d : Str) (trace : List (ℕ × BrokerEvent P)) :
    grantState d (events.map (i, ·) ++ trace) = grantState d trace := by
  induction events with
  | nil => rfl
  | cons e events ih =>
    rw [List.map_cons, List.cons_append, grantState_cons (h e List.mem_cons_self)]
    exact ih fun x hx => h x (List.mem_cons_of_mem _ hx)

theorem every_consumedOnce_append {events : List (BrokerEvent P)}
    {trace : List (ℕ × BrokerEvent P)} (h : Every ConsumedOnce trace)
    (hevents : ∀ x ∈ events, isGrantless x = true) :
    Every ConsumedOnce (events.map (i, ·) ++ trace) := by
  induction events with
  | nil => exact h
  | cons e events ih =>
    exact ⟨consumedOnce_of_isGrantless (hevents e List.mem_cons_self) _,
      ih fun x hx => hevents x (List.mem_cons_of_mem _ hx)⟩

theorem Written.isGrantless {before after repo : ApprovalRepository} {record : ApprovalRecord}
    {events : List (BrokerEvent P)}
    (h : Written sys before after (.savedRecord record) repo events) :
    ∀ x ∈ events, isGrantless x = true := by
  cases h <;> simp [ApprovalBroker.isGrantless]

/-- A grant that is stored, or consumed, is what the trace says of its digest. -/
theorem Consumption.putGrant {s t : ApprovalState W P} {row : StoredGrant} {e : BrokerEvent P}
    (hs : Consumption s) (hrepo : t.repository = s.repository.putGrant row)
    (htrace : t.trace = (i, e) :: s.trace)
    (hstate : ∀ d, grantState d ((i, e) :: s.trace) =
      if row.grant.actionDigest = d then some row.consumed else grantState d s.trace)
    (hevent : Every ConsumedOnce s.trace → ConsumedOnce (i, e) s.trace) : Consumption t := by
  have hget : ∀ d, t.repository.grants d =
      if d = row.grant.actionDigest then some row else s.repository.grants d := by
    intro d
    rw [hrepo]
    exact Function.update_apply _ _ _ _
  refine ⟨fun d r hr => ?_, fun d => ?_, fun hview => ?_⟩
  · rw [hget] at hr
    split_ifs at hr with hd
    · obtain rfl := Option.some.inj hr
      exact hd.symm
    · exact hs.keys d r hr
  · rw [htrace, hget, hstate]
    by_cases hd : d = row.grant.actionDigest
    · rw [if_pos hd, if_pos hd.symm]
      rfl
    · rw [if_neg hd, if_neg (Ne.symm hd)]
      exact hs.rows d
  · rw [htrace] at hview ⊢
    exact ⟨hevent (hs.events hview.2), hs.events hview.2⟩

/-- A grant found in a cache is not one whose stored grant was consumed. -/
theorem Consumption.cached {s : ApprovalState W P} (hs : Consumption s) {cp : Checkpoint}
    (hview : NoSpentCache (i, calledEvent i s cp) s.trace)
    (hlive : (∃ grant, (s.brokers i).grants cp.checkpointId = some grant ∧
        grant.validate cp s.nowMs = .ok ()) ∨
      ∃ grant, (s.brokers i).approvedActions cp.actionDigest = some grant ∧
        s.nowMs ≤ grant.expiresAtEpochMs) :
    grantState cp.actionDigest s.trace ≠ some true := by
  rw [← hs.rows cp.actionDigest]
  intro hspent
  obtain ⟨row, hrow, hconsumed⟩ := Option.map_eq_some_iff.mp hspent
  obtain ⟨hheld, haction⟩ := hview ⟨row, hrow, hconsumed⟩
  rcases hlive with ⟨grant, hgrant, hvalid⟩ | ⟨grant, hgrant, hlive⟩
  · exact hheld grant hgrant hvalid
  · exact absurd hlive (not_le.mpr (haction grant hgrant))

/-- Every step keeps what the trace says of the stored grants. -/
theorem consumption_step (hkind : sys.repository = some .postgres) {s t : ApprovalState W P}
    (h : BrokerStep sys passed i s t) (hs : Consumption s) : Consumption t := by
  obtain ⟨events, htrace, heffect⟩ := h.effect
  -- a step that touches no stored grant and returns none
  have hquiet : t.repository.grants = s.repository.grants →
      (∀ x ∈ events, isGrantless x = true) → Consumption t := by
    intro hgrants hev
    refine ⟨by rw [hgrants]; exact hs.keys, fun d => ?_, fun hview => ?_⟩
    · rw [hgrants, htrace, grantState_append hev]
      exact hs.rows d
    · rw [htrace] at hview ⊢
      exact every_consumedOnce_append (hs.events hview.of_append) hev
  -- a step that returns a grant
  have hgranted : ∀ {cp : Checkpoint} {grant : ApprovalGrant} {others : List (BrokerEvent P)},
      events = .granted cp grant s.nowMs :: others → (∀ x ∈ others, isGrantless x = true) →
      t.repository.grants = s.repository.grants →
      (Every NoSpentCache (others.map (i, ·) ++ s.trace) →
        grantState cp.actionDigest s.trace ≠ some true) → Consumption t := by
    rintro cp grant others rfl hothers hgrants hstate
    refine ⟨by rw [hgrants]; exact hs.keys, fun d => ?_, fun hview => ?_⟩
    · rw [hgrants, htrace]
      show _ = grantState d (others.map (i, ·) ++ s.trace)
      rw [grantState_append hothers]
      exact hs.rows d
    · rw [htrace] at hview ⊢
      refine ⟨?_, every_consumedOnce_append (hs.events hview.2.of_append) hothers⟩
      show grantState cp.actionDigest (others.map (i, ·) ++ s.trace) ≠ some true
      rw [grantState_append hothers]
      exact hstate hview.2
  generalize hr : t.repository = repo at heffect
  generalize t.brokers i = memory at heffect
  cases heffect with
  | idle _ => exact hquiet (by rw [hr]) (by simp)
  | failed e => exact hquiet (by rw [hr]) (by simp [isGrantless])
  | missed _ => exact hquiet (by rw [hr]) (by simp [isGrantless, calledEvent])
  | held _ hgrant hvalid =>
    refine hgranted rfl (by simp [isGrantless, calledEvent]) (by rw [hr]) fun hview => ?_
    exact hs.cached hview.1 (.inl ⟨_, hgrant, hvalid⟩)
  | replayed _ _ haction hlive _ =>
    refine hgranted rfl (by simp [isGrantless, calledEvent]) (by rw [hr]) fun hview => ?_
    exact hs.cached hview.1 (.inr ⟨_, haction, hlive⟩)
  | @fetched cp kind row grant _ hkind' hrow hconsumed _ _ =>
    refine hgranted rfl (by simp) (by rw [hr]) fun _ => ?_
    rw [hkind] at hkind'
    rw [← hs.rows, hrow, Option.map_some, hconsumed (Option.some.inj hkind').symm]
    intro h
    cases h
  | lookedUp _ _ => exact hquiet (by rw [hr]) (by simp [isGrantless])
  | submitted _ _ _ _ _ _ => exact hquiet (by rw [hr]) (by simp)
  | requested _ _ hw =>
    refine hquiet ?_ hw.isGrantless
    rw [hr]
    cases hw <;> rfl
  | began _ => exact hquiet (by rw [hr]) (by simp [isGrantless])
  | authorized _ _ _ => exact hquiet (by rw [hr]) (by simp [isGrantless])
  | settled _ _ _ _ hw =>
    refine hquiet ?_ hw.isGrantless
    rw [hr]
    cases hw <;> rfl
  | @minted c cached stored done record principal nowMs ttlSeconds grant _ written _ _ _ _ _ hw =>
    cases hw with
    | skipped _ => exact hquiet (by rw [hr]) (by simp [isGrantless])
    | failed e => exact hquiet (by rw [hr]) (by simp [isGrantless])
    | saved _ =>
      -- the approval is logged before the grant is stored
      have hs' : Consumption
          (log i (.approved record.request principal nowMs ttlSeconds) s) :=
        ⟨hs.keys, hs.rows, fun hview => ⟨trivial, hs.events hview.2⟩⟩
      exact hs'.putGrant hr htrace (fun d => rfl) fun _ => trivial
  | decided _ _ _ _ => exact hquiet (by rw [hr]) (by simp [isGrantless])
  | @consumed d row _ hrow hconsumed =>
    refine hs.putGrant hr htrace (fun d' => ?_) fun _ => ?_
    · rw [hs.keys d row hrow]
      rfl
    · show grantState d s.trace = some false
      rw [← hs.rows, hrow, Option.map_some, hconsumed]

/-- In every run without spent caches, grants are consumed once. -/
theorem consumed_once (hkind : sys.repository = some .postgres)
    {pool : Pool ℕ (ApprovalState W P) PyExc Unit}
    (h : Pool.Reach Fresh (Programs sys passed) Passes pool)
    (hview : Every NoSpentCache pool.state.trace) : Every ConsumedOnce pool.state.trace := by
  refine (invariant_of_step (J := Consumption) ?_ (fun i s t => consumption_step hkind) ?_ h).events
    hview
  · rintro s ⟨hrepo, -, htrace⟩
    refine ⟨fun d row hrow => ?_, fun d => ?_, by rw [htrace]; exact id⟩
    · rw [hrepo] at hrow
      cases hrow
    · rw [hrepo, htrace]
      rfl
  · rintro s t ⟨w, hw⟩ hs
    exact ⟨hs.keys, hs.rows, hs.events⟩

/-- A grant is approved and stored by one broker, fetched by another, and then
consumed. -/
def sampleConsumption : List (ℕ × Operation Str) :=
  [(0, sampleCall), (0, sampleDecide true (lit "alice")), (1, sampleCall),
    (2, .consume sampleDigest)]

theorem consumed_once_sample :
    Every ConsumedOnce (performAll (sampleSystem (fun _ => lit "bob") (some .postgres))
      sampleConsumption freshState).trace := by
  refine consumed_once rfl (reach_sample _ (fun _ => True) sampleConsumption
    (by simp [sampleConsumption, sampleCall, sampleDecide, Operation.Allowed, sampleSystem])) ?_
  refine ⟨trivial, trivial, ?_, trivial, trivial, trivial, trivial, trivial, trivial, trivial,
    trivial, ?_, trivial⟩
  · rintro ⟨row, hrow, hconsumed⟩
    obtain rfl := Option.some.inj hrow
    cases hconsumed
  · rintro ⟨row, hrow, -⟩
    cases hrow

/-- A broker that keeps the grant in memory returns it after it was consumed. -/
theorem spentCache_counterexample :
    ¬ ∀ (sys : ApprovalSystem Unit Str) (pool : Pool ℕ (ApprovalState Unit Str) PyExc Unit),
      sys.repository = some .postgres →
      Pool.Reach Fresh (Programs sys fun _ => True) Passes pool →
      Every ConsumedOnce pool.state.trace := by
  intro h
  have hall := h (sampleSystem (fun _ => lit "bob") (some .postgres)) _ rfl
    (reach_sample _ (fun _ => True) (sampleConsumption ++ [(0, sampleCall)])
      (by simp [sampleConsumption, sampleCall, sampleDecide, Operation.Allowed, sampleSystem]))
  exact hall.1 rfl

end ApprovalBroker

end AgentRoi
