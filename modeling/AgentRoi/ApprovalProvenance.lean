/-
Where the grants of approval brokers come from.

* `Provenance` — every grant a broker or the repository holds goes back to an
  approval in the trace, which bounds its expiry; kept by every step
  (`provenance_step`), so true of every pool (`provenance_of_reach`);
* `Justified` — what is true of the approvals and of the grants returned;
* `separation_of_duties` — nobody obtains a grant they approved themselves,
  unless an approval of theirs for the action is alive.
-/
import AgentRoi.ApprovalSteps

namespace AgentRoi

namespace ApprovalBroker

open ApprovalState EventTrace

variable {W P : Type} {sys : ApprovalSystem W P} {passed : Checkpoint → Prop} {i : ℕ}

/-- Some approval in the trace backs a grant for the digest, by the approver,
until then. -/
def Backed (sys : ApprovalSystem W P) (trace : List (ℕ × BrokerEvent P)) (actionDigest : Str)
    (approvedBy : Str) (expiresAtEpochMs : Int) : Prop :=
  ∃ j request principal nowMs ttlSeconds,
    (j, .approved request principal nowMs ttlSeconds) ∈ trace ∧
    request.actionDigest = actionDigest ∧ strip (sys.subject principal) = approvedBy ∧
    expiresAtEpochMs ≤ nowMs + ttlOrDefault ttlSeconds * 1000 ∧
    expiresAtEpochMs ≤ request.expiresAtEpochMs

def BackedGrant (sys : ApprovalSystem W P) (trace : List (ℕ × BrokerEvent P))
    (grant : ApprovalGrant) : Prop :=
  Backed sys trace grant.actionDigest grant.approvedBy grant.expiresAtEpochMs

theorem Backed.mono {trace trace' : List (ℕ × BrokerEvent P)} {d approvedBy : Str} {e e' : Int}
    (h : Backed sys trace d approvedBy e) (hsub : trace ⊆ trace') (he : e' ≤ e) :
    Backed sys trace' d approvedBy e' := by
  obtain ⟨j, request, principal, nowMs, ttlSeconds, hmem, hd, hby, httl, hexp⟩ := h
  exact ⟨j, request, principal, nowMs, ttlSeconds, hsub hmem, hd, hby, he.trans httl,
    he.trans hexp⟩

/-- An approval is authorized and not by the requester; a grant returned at
`nowMs` is valid while the checkpoint is, and backed by an approval that is
still alive. -/
def Justified (sys : ApprovalSystem W P) :
    ℕ × BrokerEvent P → List (ℕ × BrokerEvent P) → Prop
  | (i, .approved request principal _ _), earlier =>
    ((sys.config i).authorizer.isSome →
      (i, .authorized principal request.toolName request.environment) ∈ earlier) ∧
    (request.requestedBy = [] ∨ strip (sys.subject principal) ≠ request.requestedBy)
  | (_, .granted checkpoint grant nowMs), earlier =>
    (nowMs ≤ checkpoint.expiresAtEpochMs → grant.validate checkpoint nowMs = .ok ()) ∧
    Backed sys earlier checkpoint.actionDigest grant.approvedBy
      (max grant.expiresAtEpochMs nowMs)
  | _, _ => True

structure MemoryBacked (sys : ApprovalSystem W P) (trace : List (ℕ × BrokerEvent P))
    (m : BrokerMemory) : Prop where
  grants : ∀ c g, m.grants c = some g → BackedGrant sys trace g
  approvedActions : ∀ d g, m.approvedActions d = some g →
    g.actionDigest = d ∧ BackedGrant sys trace g

structure Provenance (sys : ApprovalSystem W P) (s : ApprovalState W P) : Prop where
  memory : ∀ j, MemoryBacked sys s.trace (s.brokers j)
  repository : ∀ d row, s.repository.grants d = some row →
    row.grant.actionDigest = d ∧ BackedGrant sys s.trace row.grant
  events : Every (Justified sys) s.trace

theorem MemoryBacked.mono {trace trace' : List (ℕ × BrokerEvent P)} {m : BrokerMemory}
    (h : MemoryBacked sys trace m) (hsub : trace ⊆ trace') : MemoryBacked sys trace' m :=
  ⟨fun c g hg => (h.grants c g hg).mono hsub le_rfl,
    fun d g hg => ⟨(h.approvedActions d g hg).1, (h.approvedActions d g hg).2.mono hsub le_rfl⟩⟩

theorem MemoryBacked.pruned {trace : List (ℕ × BrokerEvent P)} {m m' : BrokerMemory}
    (h : MemoryBacked sys trace m) (hp : Pruned m m') : MemoryBacked sys trace m' :=
  ⟨fun c g hg => h.grants c g (hp.grants c g hg),
    fun d g hg => h.approvedActions d g (hp.approvedActions d g hg)⟩

theorem MemoryBacked.putRecord {trace : List (ℕ × BrokerEvent P)} {m : BrokerMemory}
    (h : MemoryBacked sys trace m) (c : Str) (record : ApprovalRecord) :
    MemoryBacked sys trace (m.putRecord c record) := ⟨h.grants, h.approvedActions⟩

theorem MemoryBacked.putGrant {trace : List (ℕ × BrokerEvent P)} {m : BrokerMemory}
    {grant : ApprovalGrant} (h : MemoryBacked sys trace m) (c : Str)
    (hgrant : BackedGrant sys trace grant) : MemoryBacked sys trace (m.putGrant c grant) := by
  refine ⟨fun c' g hg => ?_, h.approvedActions⟩
  change Function.update m.grants c (some grant) c' = some g at hg
  rw [Function.update_apply] at hg
  split_ifs at hg
  · obtain rfl := Option.some.inj hg
    exact hgrant
  · exact h.grants c' g hg

theorem MemoryBacked.putAction {trace : List (ℕ × BrokerEvent P)} {m : BrokerMemory}
    {grant : ApprovalGrant} (h : MemoryBacked sys trace m)
    (hgrant : BackedGrant sys trace grant) : MemoryBacked sys trace (m.putAction grant) := by
  refine ⟨h.grants, fun d g hg => ?_⟩
  change Function.update m.approvedActions grant.actionDigest (some grant) d = some g at hg
  rw [Function.update_apply] at hg
  split_ifs at hg with hd
  · obtain rfl := Option.some.inj hg
    exact ⟨hd.symm, hgrant⟩
  · exact h.approvedActions d g hg

/-- What a replay takes over from the approved action. -/
theorem Replays.eq {cp : Checkpoint} {approvedAction grant : ApprovalGrant}
    (h : Replays cp approvedAction grant) :
    grant.actionDigest = cp.actionDigest ∧ grant.approvedBy = approvedAction.approvedBy ∧
      grant.expiresAtEpochMs = min approvedAction.expiresAtEpochMs cp.expiresAtEpochMs ∧
      grant.checkpointId = some cp.checkpointId := by
  obtain ⟨hd, hby, hexp, hcp, -⟩ := ApprovalGrant.create_eq_ok h
  exact ⟨hd, hby.trans approvedAction.approvedBy_strip, hexp, hcp⟩

/-- A replay is as well backed as the approved action. -/
theorem Replays.backed {cp : Checkpoint} {approvedAction grant : ApprovalGrant}
    {trace : List (ℕ × BrokerEvent P)} {nowMs : Int} (h : Replays cp approvedAction grant)
    (hd : approvedAction.actionDigest = cp.actionDigest)
    (hbacked : BackedGrant sys trace approvedAction)
    (hlive : nowMs ≤ approvedAction.expiresAtEpochMs) :
    BackedGrant sys trace grant ∧ Justified sys (i, .granted cp grant nowMs) trace := by
  obtain ⟨hdigest, hby, hexp, hcp⟩ := h.eq
  have hle : grant.expiresAtEpochMs ≤ approvedAction.expiresAtEpochMs := by
    rw [hexp]
    exact min_le_left _ _
  rw [BackedGrant, hd] at hbacked
  refine ⟨?_, fun hnow => ApprovalGrant.validate_eq_ok_iff.mpr ⟨hdigest, ?_, ?_⟩, ?_⟩
  · rw [BackedGrant, hdigest, hby]
    exact hbacked.mono (fun _ h => h) hle
  · intro c hc _
    rw [hcp] at hc
    exact (Option.some.inj hc).symm
  · rw [hexp]
    exact le_min hlive hnow
  · rw [hby]
    exact hbacked.mono (fun _ h => h) (max_le hle hlive)

/-- The events that `Justified` says nothing of. -/
def isPlain : BrokerEvent P → Bool
  | .approved _ _ _ _ | .granted _ _ _ => false
  | _ => true

theorem justified_of_isPlain {event : BrokerEvent P} {earlier : List (ℕ × BrokerEvent P)}
    (h : isPlain event = true) : Justified sys (i, event) earlier := by
  cases event <;> first | exact trivial | cases h

theorem every_justified_append {events : List (BrokerEvent P)}
    {trace : List (ℕ × BrokerEvent P)} (h : Every (Justified sys) trace)
    (hevents : ∀ x ∈ events, isPlain x = true) :
    Every (Justified sys) (events.map (i, ·) ++ trace) := by
  induction events with
  | nil => exact h
  | cons e events ih =>
    exact ⟨justified_of_isPlain (hevents e List.mem_cons_self),
      ih fun x hx => hevents x (List.mem_cons_of_mem _ hx)⟩

theorem Written.isPlain {before after repo : ApprovalRepository} {event : BrokerEvent P}
    {events : List (BrokerEvent P)} (h : Written sys before after event repo events)
    (hevent : isPlain event = true) : ∀ x ∈ events, isPlain x = true := by
  cases h with
  | skipped _ => exact fun _ hx => absurd hx List.not_mem_nil
  | saved _ =>
    intro x hx
    rw [List.mem_singleton] at hx
    rw [hx, hevent]
  | failed e =>
    intro x hx
    rw [List.mem_singleton] at hx
    rw [hx]
    rfl

/-- What a step leaves of the provenance, from its effect on the broker. -/
theorem Provenance.of_effect {s t : ApprovalState W P} {events : List (BrokerEvent P)}
    (hs : Provenance sys s) (hothers : ∀ j, j ≠ i → t.brokers j = s.brokers j)
    (htrace : t.trace = events.map (i, ·) ++ s.trace)
    (hmemory : MemoryBacked sys t.trace (t.brokers i))
    (hrepository : ∀ d row, t.repository.grants d = some row →
      row.grant.actionDigest = d ∧ BackedGrant sys t.trace row.grant)
    (hevents : Every (Justified sys) t.trace) : Provenance sys t := by
  refine ⟨fun j => ?_, hrepository, hevents⟩
  by_cases hj : j = i
  · rw [hj]
    exact hmemory
  · rw [hothers j hj]
    refine (hs.memory j).mono ?_
    rw [htrace]
    exact List.subset_append_right _ _

/-- Every step keeps the provenance of the grants. -/
theorem provenance_step {s t : ApprovalState W P} (h : BrokerStep sys passed i s t)
    (hs : Provenance sys s) : Provenance sys t := by
  obtain ⟨events, htrace, heffect⟩ := h.effect
  have hsub : s.trace ⊆ t.trace := by
    rw [htrace]
    exact List.subset_append_right _ _
  have hmem : MemoryBacked sys t.trace (s.brokers i) := (hs.memory i).mono hsub
  have hrepo : ∀ d row, s.repository.grants d = some row →
      row.grant.actionDigest = d ∧ BackedGrant sys t.trace row.grant := fun d row hrow =>
    ⟨(hs.repository d row hrow).1, (hs.repository d row hrow).2.mono hsub le_rfl⟩
  -- a step that logs only plain events, and leaves the stored grants alone
  have hplain : ∀ {m : BrokerMemory}, t.brokers i = m → MemoryBacked sys t.trace m →
      t.repository.grants = s.repository.grants → (∀ x ∈ events, isPlain x = true) →
      Provenance sys t := by
    intro m hm hback hgrants hev
    refine hs.of_effect h.others htrace (by rw [hm]; exact hback) (by rw [hgrants]; exact hrepo) ?_
    rw [htrace]
    exact every_justified_append hs.events hev
  generalize hb : t.brokers i = memory at heffect
  generalize hr : t.repository = repo at heffect
  cases heffect with
  | idle hp => exact hplain hb (hmem.pruned hp) (by rw [hr]) (by simp)
  | failed e => exact hplain hb hmem (by rw [hr]) (by simp [isPlain])
  | missed hp =>
    exact hplain hb (hmem.pruned hp) (by rw [hr]) (by simp [isPlain, calledEvent])
  | @held cp grant hcp hgrant hvalid =>
    refine hs.of_effect h.others htrace (by rw [hb]; exact hmem) (by rw [hr]; exact hrepo) ?_
    rw [htrace]
    obtain ⟨hd, -, hlive⟩ := ApprovalGrant.validate_eq_ok_iff.mp hvalid
    refine ⟨⟨fun _ => hvalid, ?_⟩, justified_of_isPlain rfl, hs.events⟩
    rw [max_eq_left hlive, ← hd]
    exact ((hs.memory i).grants _ _ hgrant).mono (List.subset_cons_self _ _) le_rfl
  | @replayed cp approvedAction grant memory' hcp hp haction hlive hreplays =>
    obtain ⟨hd, hback⟩ := (hs.memory i).approvedActions _ _ haction
    refine hs.of_effect h.others htrace ?_ (by rw [hr]; exact hrepo) ?_
    · rw [hb]
      exact (hmem.pruned hp).putGrant _
        (hreplays.backed (i := i) hd (hback.mono hsub le_rfl) hlive).1
    · rw [htrace]
      exact ⟨(hreplays.backed hd (hback.mono (List.subset_cons_self _ _) le_rfl) hlive).2,
        justified_of_isPlain rfl, hs.events⟩
  | @fetched cp kind row grant hcp hkind hrow hconsumed hlive hreplays =>
    obtain ⟨hd, hback⟩ := hs.repository _ _ hrow
    refine hs.of_effect h.others htrace ?_ (by rw [hr]; exact hrepo) ?_
    · rw [hb]
      exact hmem.putGrant _ (hreplays.backed (i := i) hd (hback.mono hsub le_rfl) hlive).1
    · rw [htrace]
      exact ⟨(hreplays.backed hd hback hlive).2, hs.events⟩
  | lookedUp hm _ =>
    refine hplain hb ?_ (by rw [hr]) (by simp [isPlain])
    rcases hm with rfl | ⟨record, -, rfl⟩
    · exact hmem
    · exact hmem.putRecord _ _
  | submitted _ _ _ _ _ _ => exact hplain hb (hmem.putRecord _ _) (by rw [hr]) (by simp)
  | requested _ _ hw =>
    refine hplain hb hmem ?_ (hw.isPlain rfl)
    rw [hr]
    cases hw <;> rfl
  | began hm =>
    refine hplain hb ?_ (by rw [hr]) (by simp [isPlain])
    rcases hm with rfl | ⟨-, record, -, rfl⟩
    · exact hmem
    · exact hmem.putRecord _ _
  | authorized _ _ _ => exact hplain hb hmem (by rw [hr]) (by simp [isPlain])
  | settled _ _ _ _ hw =>
    refine hplain hb (hmem.putRecord _ _) ?_ (hw.isPlain rfl)
    rw [hr]
    cases hw <;> rfl
  | @minted c cached stored done record principal nowMs ttlSeconds grant _ written hdec hsaved
      hrecord happroves hgrant hw =>
    obtain ⟨hd, hby, hexp, -, -⟩ := ApprovalGrant.create_eq_ok hgrant
    rw [happroves.decidedBy, strip_strip] at hby
    have hnew : (i, .approved record.request principal nowMs ttlSeconds) ∈ t.trace := by
      rw [htrace, List.map_append]
      exact List.mem_append_left _ (List.mem_append_right _ List.mem_cons_self)
    -- the approval just logged backs the grant
    have hback : BackedGrant sys t.trace grant := by
      refine ⟨i, record.request, principal, nowMs, ttlSeconds, hnew, hd.symm, hby.symm, ?_, ?_⟩
      · rw [hexp]
        exact min_le_left _ _
      · rw [hexp]
        exact min_le_right _ _
    refine hs.of_effect h.others htrace ?_ ?_ ?_
    · rw [hb]
      exact (hmem.putGrant _ hback).putAction hback
    · rw [hr]
      intro d row hrow
      cases hw with
      | skipped _ => exact hrepo d row hrow
      | failed e => exact hrepo d row hrow
      | saved _ =>
        change Function.update s.repository.grants grant.actionDigest (some ⟨grant, false⟩) d =
          some row at hrow
        rw [Function.update_apply] at hrow
        split_ifs at hrow with hdd
        · obtain rfl := Option.some.inj hrow
          exact ⟨hdd.symm, hback⟩
        · exact hrepo d row hrow
    · rw [htrace, List.map_append, List.append_assoc]
      refine every_justified_append ⟨⟨fun hauth => ?_, ?_⟩, hs.events⟩ (hw.isPlain rfl)
      · obtain ⟨old, hown⟩ := hdec.own
        show (i, .authorized principal record.request.toolName record.request.environment) ∈ s.trace
        refine mem_of_mem_own ?_
        rw [hown]
        exact List.mem_append_left _ (happroves.authorized hauth)
      · rw [← happroves.decidedBy]
        exact happroves.notRequester
  | decided _ _ _ _ => exact hplain hb hmem (by rw [hr]) (by simp [isPlain])
  | @consumed d row hkind hrow hconsumed =>
    refine hs.of_effect h.others htrace (by rw [hb]; exact hmem) ?_ ?_
    · rw [hr]
      intro d' row' hrow'
      change Function.update s.repository.grants row.grant.actionDigest
        (some ⟨row.grant, true⟩) d' = some row' at hrow'
      rw [Function.update_apply] at hrow'
      split_ifs at hrow' with hdd
      · obtain rfl := Option.some.inj hrow'
        exact ⟨hdd.symm, (hrepo d row hrow).2⟩
      · exact hrepo d' row' hrow'
    · rw [htrace]
      exact ⟨justified_of_isPlain rfl, hs.events⟩

theorem provenance_fresh {s : ApprovalState W P} (h : Fresh s) : Provenance sys s := by
  obtain ⟨hrepo, hbrokers, htrace⟩ := h
  refine ⟨fun j => ?_, ?_, by rw [htrace]; trivial⟩
  · rw [hbrokers j]
    exact ⟨nofun, nofun⟩
  · rw [hrepo]
    nofun

theorem provenance_passes {s t : ApprovalState W P} (h : Passes s t) (hs : Provenance sys s) :
    Provenance sys t := by
  cases h with
  | intro w hw => exact ⟨hs.memory, hs.repository, hs.events⟩

/-- In every pool of brokers the grants go back to approvals. -/
theorem provenance_of_reach {pool : Pool ℕ (ApprovalState W P) PyExc Unit}
    (h : Pool.Reach Fresh (Programs sys passed) Passes pool) : Provenance sys pool.state :=
  invariant_of_step (fun _ => provenance_fresh) (fun _ _ _ => provenance_step)
    (fun _ _ => provenance_passes) h

/-! ### Separation of duties -/

/-- No approval that is still alive at `nowMs` was made, for the digest, by
the identity that the broker `i` requests for. -/
def NotSelfApproved (sys : ApprovalSystem W P) (i : ℕ) (actionDigest : Str) (nowMs : Int)
    (trace : List (ℕ × BrokerEvent P)) : Prop :=
  ∀ j request principal decidedAt ttlSeconds,
    (j, .approved request principal decidedAt ttlSeconds) ∈ trace →
    request.actionDigest = actionDigest → nowMs ≤ request.expiresAtEpochMs →
    nowMs ≤ decidedAt + ttlOrDefault ttlSeconds * 1000 →
    strip (sys.subject principal) ≠ strip (sys.config i).requestedBy

/-- Nobody obtains a grant they approved themselves, unless an approval of
theirs for the action is still alive. -/
theorem separation_of_duties {pool : Pool ℕ (ApprovalState W P) PyExc Unit}
    (h : Pool.Reach Fresh (Programs sys passed) Passes pool)
    {later earlier : List (ℕ × BrokerEvent P)} {cp : Checkpoint} {grant : ApprovalGrant}
    {nowMs : Int} (htrace : pool.state.trace = later ++ (i, .granted cp grant nowMs) :: earlier)
    (hcond : NotSelfApproved sys i cp.actionDigest nowMs earlier) :
    grant.approvedBy ≠ strip (sys.config i).requestedBy := by
  have hevents := (provenance_of_reach h).events
  rw [htrace] at hevents
  obtain ⟨-, j, request, principal, decidedAt, ttlSeconds, hmem, hd, hby, httl, hexp⟩ := hevents.at
  rw [← hby]
  exact hcond j request principal decidedAt ttlSeconds hmem hd
    ((le_max_right _ _).trans hexp) ((le_max_right _ _).trans httl)

/-- Who made an approval. -/
def approverOf : BrokerEvent P → Option P
  | .approved _ principal _ _ => some principal
  | _ => none

def sampleApproval : List (ℕ × Operation Str) :=
  [(0, sampleCall), (0, sampleDecide true (lit "alice")), (0, sampleCall)]

theorem separation_of_duties_bob : ∃ earlier,
    (performAll (sampleSystem (fun _ => lit "bob") none) sampleApproval freshState).trace =
      (0, .granted sampleCheckpoint (sampleGrant (lit "alice") (by decide) (by decide)) 0) ::
        earlier ∧
    (sampleGrant (lit "alice") (by decide) (by decide)).approvedBy ≠ strip (lit "bob") := by
  have hreach := reach_sample (sampleSystem (fun _ => lit "bob") none) (fun _ => True) sampleApproval
    (by simp [sampleApproval, sampleCall, sampleDecide, Operation.Allowed])
  have htrace : (performAll (sampleSystem (fun _ => lit "bob") none) sampleApproval
      freshState).trace = [] ++ (0, .granted sampleCheckpoint (sampleGrant (lit "alice") (by decide)
        (by decide)) 0) :: (performAll (sampleSystem (fun _ => lit "bob") none) sampleApproval
      freshState).trace.tail := rfl
  refine ⟨_, htrace, separation_of_duties hreach htrace ?_⟩
  -- the only approval is by alice
  have hall : ∀ e ∈ (performAll (sampleSystem (fun _ => lit "bob") none) sampleApproval
      freshState).trace.tail, ∀ p ∈ approverOf e.2, strip p ≠ strip (lit "bob") := by decide
  intro j request principal decidedAt ttlSeconds hmem _ _ _
  exact hall _ hmem principal rfl

/-- A requester with surrounding whitespace is not recognised among the
approvers, whose identity is trimmed. -/
theorem untrimmedRequester_counterexample :
    ¬ ∀ (sys : ApprovalSystem Unit Str) (pool : Pool ℕ (ApprovalState Unit Str) PyExc Unit),
      Pool.Reach Fresh (Programs sys fun _ => True) Passes pool →
      ∀ later earlier i cp grant nowMs,
        pool.state.trace = later ++ (i, .granted cp grant nowMs) :: earlier →
        strip (sys.config i).requestedBy ≠ [] →
        grant.approvedBy ≠ strip (sys.config i).requestedBy := by
  intro h
  have hreach := reach_sample (sampleSystem (fun _ => lit " alice ") none) (fun _ => True) sampleApproval
    (by simp [sampleApproval, sampleCall, sampleDecide, Operation.Allowed])
  exact h _ _ hreach [] _ 0 sampleCheckpoint (sampleGrant (lit "alice") (by decide) (by decide)) 0
    rfl (by decide) (by decide)

end ApprovalBroker

end AgentRoi
