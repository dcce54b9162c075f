/-
One approval broker without a repository, one operation after the other.

* `Session` — the runs: the clock stands still during an operation, and the
  checkpoints given to `__call__` are not expired;
* `Moves` — a record moves at most once, from pending to a decision;
* `session_sound` — every grant that `__call__` returns is valid and goes back
  to an authorized approval by somebody else, which bounds its expiry.
-/
import AgentRoi.ApprovalProvenance

namespace AgentRoi

namespace ApprovalBroker

open ApprovalState EventTrace

variable {W P : Type} {sys : ApprovalSystem W P} {passed : Checkpoint → Prop} {i : ℕ}

/-- Checkpoints given to `__call__` are not expired. -/
def Operation.Timely (nowMs : Int) : Operation P → Prop
  | .call checkpoint _ _ _ _ => nowMs ≤ checkpoint.expiresAtEpochMs
  | _ => True

/-- The states a broker can come to, one operation after the other. -/
inductive Session (sys : ApprovalSystem W P) (passed : Checkpoint → Prop) (i : ℕ)
    (s : ApprovalState W P) : ApprovalState W P → Prop
  | nil : Session sys passed i s s
  | step {t u : ApprovalState W P} {op : Operation P} : Session sys passed i s t → Passes t u →
    op.Allowed sys passed → op.Timely u.nowMs →
    Session sys passed i s ((perform sys i op).run u).2

/-- What every step keeps, and the passing of time, holds after a session. -/
theorem Session.invariant {J : ApprovalState W P → Prop} {s t : ApprovalState W P}
    (h : Session sys passed i s t) (hs : J s)
    (hstep : ∀ s t, BrokerStep sys passed i s t → J s → J t)
    (hpasses : ∀ s t : ApprovalState W P, Passes s t → J s → J t) : J t := by
  induction h with
  | nil => exact hs
  | step _ hpass hop _ ih =>
    exact (follows_perform _ hop).run (Rely.refl i) hstep (hpasses _ _ hpass ih)

/-! ### Records move once -/

/-- Every record of the broker is still there, and moved at most once. -/
def Moves (i : ℕ) (s t : ApprovalState W P) : Prop :=
  ∀ c r, (s.brokers i).records c = some r → ∃ r', (t.brokers i).records c = some r' ∧
    (r' = r ∨ Settles r r')

theorem Moves.refl (s : ApprovalState W P) : Moves i s s := fun _ r hr => ⟨r, hr, .inl rfl⟩

theorem Moves.trans {s t u : ApprovalState W P} (h : Moves i s t) (h' : Moves i t u) :
    Moves i s u := by
  intro c r hr
  obtain ⟨r', hr', hmove⟩ := h c r hr
  obtain ⟨r'', hr'', hmove'⟩ := h' c r' hr'
  refine ⟨r'', hr'', ?_⟩
  rcases hmove with rfl | hsettles
  · exact hmove'
  · rcases hmove' with rfl | hagain
    · exact .inr hsettles
    · exact absurd hagain.pending hsettles.not_pending

/-- A record that is new in memory moves nothing. -/
theorem moves_putRecord {m : BrokerMemory} {c : Str} {record : ApprovalRecord}
    (hnone : m.records c = none ∨ ∃ current, m.records c = some current ∧
      Settles current record) :
    ∀ c' r, m.records c' = some r → ∃ r', (m.putRecord c record).records c' = some r' ∧
      (r' = r ∨ Settles r r') := by
  intro c' r hr
  by_cases hc : c' = c
  · subst hc
    rcases hnone with hnone | ⟨current, hcurrent, hsettles⟩
    · rw [hr] at hnone
      cases hnone
    · rw [hr] at hcurrent
      obtain rfl := Option.some.inj hcurrent
      exact ⟨record, Function.update_self _ _ _, .inr hsettles⟩
  · exact ⟨r, (Function.update_of_ne hc _ _).trans hr, .inl rfl⟩

/-- A step moves a record at most once. -/
theorem moves_step {s t : ApprovalState W P} (h : BrokerStep sys passed i s t) :
    Moves i s t := by
  obtain ⟨events, -, heffect⟩ := h.effect
  have hsame : ∀ {m : BrokerMemory}, m.records = (s.brokers i).records →
      ∀ c r, (s.brokers i).records c = some r → ∃ r', m.records c = some r' ∧
        (r' = r ∨ Settles r r') := fun hm c r hr => ⟨r, by rw [hm]; exact hr, .inl rfl⟩
  unfold Moves
  generalize t.brokers i = memory at heffect ⊢
  generalize t.repository = repo at heffect
  cases heffect with
  | idle hp => exact hsame hp.records
  | failed _ => exact hsame rfl
  | missed hp => exact hsame hp.records
  | held _ _ _ => exact hsame rfl
  | replayed _ hp _ _ _ => exact hsame hp.records
  | fetched _ _ _ _ _ _ => exact hsame rfl
  | lookedUp hm hnone =>
    rcases hm with rfl | ⟨record, -, rfl⟩
    · exact hsame rfl
    · exact moves_putRecord (.inl hnone)
  | submitted _ _ _ _ _ hnone => exact moves_putRecord (.inl hnone)
  | requested _ _ _ => exact hsame rfl
  | began hm =>
    rcases hm with rfl | ⟨hnone, record, -, rfl⟩
    · exact hsame rfl
    · exact moves_putRecord (.inl hnone)
  | authorized _ _ _ => exact hsame rfl
  | settled _ _ hmem hsettles _ => exact moves_putRecord (.inr ⟨_, hmem, hsettles⟩)
  | minted _ _ _ _ _ _ => exact hsame rfl
  | decided _ _ _ _ => exact hsame rfl
  | consumed _ _ _ => exact hsame rfl

theorem Session.moves {s t : ApprovalState W P} (h : Session sys passed i s t) : Moves i s t :=
  h.invariant (Moves.refl s) (fun _ _ hstep hm => hm.trans (moves_step hstep))
    fun _ _ hpass hm => by
      cases hpass with
      | intro w hw => exact hm

/-! ### What the grants are bound to -/

/-- Records and grants belong to checkpoints that were passed to `__call__`. -/
structure Bound (passed : Checkpoint → Prop) (m : BrokerMemory) : Prop where
  records : ∀ c r, m.records c = some r → ∃ cp, passed cp ∧ cp.checkpointId = c ∧
    r.request.expiresAtEpochMs = cp.expiresAtEpochMs
  grants : ∀ c g, m.grants c = some g → ∃ cp, passed cp ∧ cp.checkpointId = c ∧
    g.expiresAtEpochMs ≤ cp.expiresAtEpochMs

theorem Bound.pruned {m m' : BrokerMemory} (h : Bound passed m) (hp : Pruned m m') :
    Bound passed m' :=
  ⟨by rw [hp.records]; exact h.records, fun c g hg => h.grants c g (hp.grants c g hg)⟩

theorem Bound.putRecord {m : BrokerMemory} {c : Str} {record : ApprovalRecord}
    (h : Bound passed m) (hrecord : ∃ cp, passed cp ∧ cp.checkpointId = c ∧
      record.request.expiresAtEpochMs = cp.expiresAtEpochMs) :
    Bound passed (m.putRecord c record) := by
  refine ⟨fun c' r hr => ?_, h.grants⟩
  change Function.update m.records c (some record) c' = some r at hr
  rw [Function.update_apply] at hr
  split_ifs at hr with hc
  · obtain rfl := Option.some.inj hr
    rw [hc]
    exact hrecord
  · exact h.records c' r hr

theorem Bound.putGrant {m : BrokerMemory} {c : Str} {grant : ApprovalGrant}
    (h : Bound passed m) (hgrant : ∃ cp, passed cp ∧ cp.checkpointId = c ∧
      grant.expiresAtEpochMs ≤ cp.expiresAtEpochMs) : Bound passed (m.putGrant c grant) := by
  refine ⟨h.records, fun c' g hg => ?_⟩
  change Function.update m.grants c (some grant) c' = some g at hg
  rw [Function.update_apply] at hg
  split_ifs at hg with hc
  · obtain rfl := Option.some.inj hg
    rw [hc]
    exact hgrant
  · exact h.grants c' g hg

theorem Replays.expires_le {cp : Checkpoint} {approvedAction grant : ApprovalGrant}
    (h : Replays cp approvedAction grant) : grant.expiresAtEpochMs ≤ cp.expiresAtEpochMs := by
  rw [h.eq.2.2.1]
  exact min_le_right _ _

theorem Written.repository_eq {before after repo : ApprovalRepository} {event : BrokerEvent P}
    {events : List (BrokerEvent P)} (hnone : sys.repository = none)
    (h : Written sys before after event repo events) : repo = before := by
  cases h with
  | skipped _ => rfl
  | saved hsome => exact absurd hnone hsome
  | failed _ => rfl

/-- Without a repository nothing is stored. -/
theorem repository_step (hnone : sys.repository = none) {s t : ApprovalState W P}
    (h : BrokerStep sys passed i s t) : t.repository = s.repository := by
  obtain ⟨events, -, heffect⟩ := h.effect
  generalize t.brokers i = memory at heffect
  generalize t.repository = repo at heffect ⊢
  cases heffect with
  | requested _ _ hw => exact hw.repository_eq hnone
  | settled _ _ _ _ hw => exact hw.repository_eq hnone
  | minted _ _ _ _ _ hw => exact hw.repository_eq hnone
  | consumed hkind _ _ =>
    rw [hnone] at hkind
    cases hkind
  | _ => rfl

/-- Without a repository every step keeps the bounds. -/
theorem bound_step (hnone : sys.repository = none) {s t : ApprovalState W P}
    (h : BrokerStep sys passed i s t) (hempty : s.repository = .empty)
    (hs : Bound passed (s.brokers i)) : Bound passed (t.brokers i) := by
  obtain ⟨events, -, heffect⟩ := h.effect
  have hstored : ∀ c record, s.repository.records c ≠ some record := by
    rw [hempty]
    nofun
  generalize t.brokers i = memory at heffect ⊢
  generalize t.repository = repo at heffect
  -- a step that stores a record or a grant stores one of a checkpoint that was passed
  cases heffect with
  | idle hp => exact hs.pruned hp
  | failed _ => exact hs
  | missed hp => exact hs.pruned hp
  | held _ _ _ => exact hs
  | replayed hcp hp _ _ hreplays =>
    exact (hs.pruned hp).putGrant ⟨_, hcp, rfl, hreplays.expires_le⟩
  | fetched _ hkind _ _ _ _ =>
    rw [hnone] at hkind
    cases hkind
  | lookedUp hm hmem =>
    rcases hm with rfl | ⟨record, hrecord, -⟩
    · exact hs
    · exact absurd hrecord (hstored _ _)
  | submitted hcp hid hd hexp hpending _ => exact hs.putRecord ⟨_, hcp, rfl, hexp⟩
  | requested _ _ _ => exact hs
  | began hm =>
    rcases hm with rfl | ⟨-, record, hrecord, -⟩
    · exact hs
    · exact absurd hrecord (hstored _ _)
  | authorized _ _ _ => exact hs
  | settled _ _ hmem hsettles _ =>
    refine hs.putRecord ?_
    rw [hsettles.request]
    exact hs.records _ _ hmem
  | minted _ _ hmem _ hgrant _ =>
    obtain ⟨cp, hcp, hid, hexp⟩ := hs.records _ _ hmem
    obtain ⟨-, -, hge, -, -⟩ := ApprovalGrant.create_eq_ok hgrant
    have hput := hs.putGrant ⟨cp, hcp, hid, by rw [hge, ← hexp]; exact min_le_right _ _⟩
    exact ⟨hput.records, hput.grants⟩
  | decided _ _ _ _ => exact hs
  | consumed _ _ _ => exact hs

/-- What holds of one broker without a repository. -/
structure Alone (sys : ApprovalSystem W P) (passed : Checkpoint → Prop) (i : ℕ)
    (s : ApprovalState W P) : Prop where
  provenance : Provenance sys s
  repository : s.repository = .empty
  bound : Bound passed (s.brokers i)
  own : ∀ x ∈ s.trace, x.1 = i

theorem alone_of_session (hnone : sys.repository = none) {s t : ApprovalState W P}
    (hs : Fresh s) (h : Session sys passed i s t) : Alone sys passed i t := by
  refine h.invariant (J := Alone sys passed i) ?_ ?_ ?_
  · refine ⟨provenance_fresh hs, hs.1, ?_, ?_⟩
    · rw [hs.2.1 i]
      exact ⟨nofun, nofun⟩
    · rw [hs.2.2]
      exact fun x hx => absurd hx List.not_mem_nil
  · intro s t hstep hs
    refine ⟨provenance_step hstep hs.provenance,
      (repository_step hnone hstep).trans hs.repository,
      bound_step hnone hstep hs.repository hs.bound, fun x hx => ?_⟩
    obtain ⟨events, htrace, -⟩ := hstep.effect
    rw [htrace] at hx
    rcases List.mem_append.mp hx with hx | hx
    · obtain ⟨e, -, rfl⟩ := List.mem_map.mp hx
      rfl
    · exact hs.own x hx
  · rintro s t ⟨w, hw⟩ hs
    exact ⟨provenance_passes ⟨w, hw⟩ hs.provenance, hs.repository, hs.bound, hs.own⟩

/-- Checkpoints with one id have one digest and one expiry. -/
def Consistent (passed : Checkpoint → Prop) : Prop :=
  ∀ a b, passed a → passed b → a.checkpointId = b.checkpointId →
    a.actionDigest = b.actionDigest ∧ a.expiresAtEpochMs = b.expiresAtEpochMs

/-- The approval that a returned grant goes back to: an earlier `decide` on a
checkpoint of the same action, by a principal whom the authorizer allowed, who
is the approver and not the requester. -/
structure ApprovedEarlier (sys : ApprovalSystem W P) (i : ℕ)
    (trace : List (ℕ × BrokerEvent P)) (cp : Checkpoint) (grant : ApprovalGrant)
    (request : ApprovalRequest) (principal : P) (decidedAt : Int) (ttlSeconds : Option Int) :
    Prop where
  allowed : ∃ later earlier,
    trace = later ++ (i, .approved request principal decidedAt ttlSeconds) :: earlier ∧
    (i, .authorized principal request.toolName request.environment) ∈ earlier
  action : request.actionDigest = cp.actionDigest
  approver : strip (sys.subject principal) = grant.approvedBy
  notRequester : grant.approvedBy ≠ request.requestedBy
  ttl : grant.expiresAtEpochMs ≤ decidedAt + ttlOrDefault ttlSeconds * 1000
  request : grant.expiresAtEpochMs ≤ request.expiresAtEpochMs

/-- Without a repository `__call__` returns what is cached. -/
theorem call_run_granted (hnone : sys.repository = none) {cp : Checkpoint} {toolName risk : Str}
    {argumentCount : Nat} {keywordNames : List Str} {u u' : ApprovalState W P}
    {grant : ApprovalGrant}
    (h : (call sys i cp toolName risk argumentCount keywordNames).run u =
      (.ok (some grant), u')) : (cachedGrant i cp u).1 = .ok (.granted grant) := by
  obtain ⟨cached, t, hcached, hrest⟩ := Proc.run_bind_eq_ok.mp h
  obtain ⟨found, t', hfound, hanswer⟩ := Proc.run_bind_eq_ok.mp hrest
  have hsearch : searchRepository sys i cp cached = pure cached := by
    unfold searchRepository
    rw [hnone]
    cases cached <;> rfl
  rw [hsearch] at hfound
  cases hfound
  change cachedGrant i cp u = _ at hcached
  rw [hcached]
  have hnever : ∀ t, ((requestApproval sys i cp toolName risk argumentCount keywordNames).run
      t).1 ≠ .ok (some grant) := by
    intro t
    exact ((requestApproval_returns toolName risk argumentCount keywordNames).run (Rely.refl i)
      trivial).2 grant
  cases cached with
  | granted g =>
    obtain rfl := Option.some.inj (Except.ok.inj (Prod.mk.inj hanswer).1)
    rfl
  | expired => exact absurd (by rw [hanswer]) (hnever t)
  | absent => exact absurd (by rw [hanswer]) (hnever t)

/-- The grants that `__call__` returns are sound, and the records move at most
once, in every session of one broker without a repository. -/
theorem session_sound (hnone : sys.repository = none)
    (hauth : (sys.config i).authorizer.isSome = true) (hpassed : Consistent passed)
    {s t : ApprovalState W P} (hs : Fresh s) (h : Session sys passed i s t) :
    (∀ (u u' : ApprovalState W P) (cp : Checkpoint) (toolName risk : Str) (argumentCount : Nat)
      (keywordNames : List Str) (grant : ApprovalGrant), Passes t u → passed cp →
      u.nowMs ≤ cp.expiresAtEpochMs →
      (call sys i cp toolName risk argumentCount keywordNames).run u = (.ok (some grant), u') →
      grant.validate cp u.nowMs = .ok () ∧ grant.actionDigest = cp.actionDigest ∧
      grant.expiresAtEpochMs ≤ cp.expiresAtEpochMs ∧
      ∃ request principal decidedAt ttlSeconds,
        ApprovedEarlier sys i t.trace cp grant request principal decidedAt ttlSeconds) ∧
    ∀ t', Session sys passed i t t' → Moves i t t' := by
  refine ⟨fun u u' cp toolName risk argumentCount keywordNames grant hpass hcp hlive hrun => ?_,
    fun t' h' => h'.moves⟩
  obtain ⟨hprov, -, hbound, hown⟩ := alone_of_session hnone hs h
  obtain ⟨w, hnow⟩ := hpass
  obtain ⟨hfound, -⟩ := cachedGrant_granted (call_run_granted hnone hrun)
  -- the approval behind a backed grant
  have happroved : ∀ expiry, Backed sys t.trace cp.actionDigest grant.approvedBy expiry →
      grant.expiresAtEpochMs ≤ expiry → ∃ request principal decidedAt ttlSeconds,
        ApprovedEarlier sys i t.trace cp grant request principal decidedAt ttlSeconds := by
    rintro expiry ⟨j, request, principal, decidedAt, ttlSeconds, hmem, hd, hby, httl, hexp⟩ hle
    obtain rfl : j = i := hown _ hmem
    obtain ⟨later, earlier, hsplit, hallowed, hself⟩ := hprov.events.of_mem hmem
    refine ⟨request, principal, decidedAt, ttlSeconds,
      ⟨later, earlier, hsplit, hallowed hauth⟩, hd, hby, ?_, hle.trans httl, hle.trans hexp⟩
    rcases hself with hblank | hself
    · rw [hblank]
      exact grant.approvedBy_ne
    · rw [← hby]
      exact hself
  rcases hfound with ⟨hgrant, hvalid⟩ | ⟨approvedAction, haction, hactive, hreplays⟩
  · -- a grant kept for the checkpoint
    obtain ⟨hd, -, -⟩ := ApprovalGrant.validate_eq_ok_iff.mp hvalid
    obtain ⟨cp', hcp', hid, hexp⟩ := hbound.grants _ _ hgrant
    rw [(hpassed cp' cp hcp' hcp hid).2] at hexp
    have hback := (hprov.memory i).grants _ _ hgrant
    rw [BackedGrant, hd] at hback
    exact ⟨hvalid, hd, hexp, happroved _ hback le_rfl⟩
  · -- the replay of an approved action
    obtain ⟨hd, hback⟩ := (hprov.memory i).approvedActions _ _ haction
    obtain ⟨hdigest, hby, hexp, -⟩ := hreplays.eq
    have hvalid := (hreplays.backed (i := i) hd hback hactive).2.1 hlive
    rw [BackedGrant, hd, ← hby] at hback
    refine ⟨hvalid, hdigest, hreplays.expires_le, happroved _ hback ?_⟩
    rw [hexp]
    exact min_le_left _ _

/-- The session of a request and its approval. -/
theorem session_sample : Session (sampleSystem (fun _ => lit "bob") none)
    (· = sampleCheckpoint) 0 freshState
    (performAll (sampleSystem (fun _ => lit "bob") none)
      [(0, sampleCall), (0, sampleDecide true (lit "alice"))] freshState) := by
  have hcall : Session (sampleSystem (fun _ => lit "bob") none) (· = sampleCheckpoint) 0 freshState
      ((perform (sampleSystem (fun _ => lit "bob") none) 0 sampleCall).run freshState).2 :=
    .step .nil (.intro () le_rfl) rfl (show (0 : Int) ≤ 1000 by decide)
  have hdecide : Operation.Timely 0 (sampleDecide true (lit "alice")) := trivial
  exact hcall.step (.intro () le_rfl) trivial hdecide

theorem session_sound_sample : ∃ grant : ApprovalGrant,
    grant.approvedBy = lit "alice" ∧ grant.validate sampleCheckpoint 0 = .ok () := by
  have hsound := session_sound rfl rfl (by rintro _ _ rfl rfl -; exact ⟨rfl, rfl⟩)
    ⟨rfl, fun _ => rfl, rfl⟩ session_sample
  exact ⟨sampleGrant (lit "alice") (by decide) (by decide), rfl,
    (hsound.1 _ _ sampleCheckpoint (lit "pay") (lit "high") 0 []
      (sampleGrant (lit "alice") (by decide) (by decide)) (.intro () le_rfl) rfl (by decide)
      rfl).1⟩

end ApprovalBroker

end AgentRoi
