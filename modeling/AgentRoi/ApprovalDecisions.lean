/-
How often an approval request is decided, across brokers over one repository.

* `OneDecision` — after a stored decision no record of the checkpoint is
  stored, no later `decide` stores anything or returns, and at most one
  `decide` of a checkpoint returns;
* `CurrentView` — when a `decide` works on what is stored: no decision hides
  behind a pending record in its cache, and nobody stores a record between
  its look at the record and its own;
* `one_decision` — then every decision is the only one.
-/
import AgentRoi.ApprovalSteps

namespace AgentRoi

namespace ApprovalBroker

open ApprovalState EventTrace

variable {W P : Type} {sys : ApprovalSystem W P} {passed : Checkpoint → Prop} {i : ℕ}

/-- A decision on the checkpoint was stored. -/
def DecidedBefore (checkpointId : Str) (trace : List (ℕ × BrokerEvent P)) : Prop :=
  ∃ j record, (j, .savedRecord record) ∈ trace ∧ record.request.checkpointId = checkpointId ∧
    record.status ≠ .pending

/-- The `decide` that the broker `i` is in began without a stored decision. -/
def BeganUndecided (i : ℕ) (trace : List (ℕ × BrokerEvent P)) : Prop :=
  ∀ c cached stored rest, upToLast i isOpening trace = (i, .decideBegan c cached stored) :: rest →
    ∀ record, stored = some record → record.status = .pending

/-- A record that is not pending. -/
def IsDecided (stored : Option ApprovalRecord) : Prop :=
  ∃ record, stored = some record ∧ record.status ≠ .pending

/-- One decision for each checkpoint: what each event says of the past. -/
def OneDecision : ℕ × BrokerEvent P → List (ℕ × BrokerEvent P) → Prop
  | (_, .decideBegan c _ stored), earlier => DecidedBefore c earlier → IsDecided stored
  | (i, .savedRecord record), earlier =>
    ¬ DecidedBefore record.request.checkpointId earlier ∧ BeganUndecided i earlier
  | (i, .savedGrant _), earlier => BeganUndecided i earlier
  | (i, .decided record), earlier =>
    (∀ j r, (j, .decided r) ∈ earlier →
      r.request.checkpointId ≠ record.request.checkpointId) ∧ BeganUndecided i earlier
  | _, _ => True

/-- What an operation takes for the record of its checkpoint is current. -/
def CurrentView : ℕ × BrokerEvent P → List (ℕ × BrokerEvent P) → Prop
  | (_, .decideBegan _ cached stored), _ => ∀ current, cached = some current →
    current.status = .pending → ¬ IsDecided stored
  | (i, .savedRecord record), earlier => ∀ j r,
    (j, .savedRecord r) ∈ sinceLast i isOpening earlier →
    r.request.checkpointId ≠ record.request.checkpointId
  | _, _ => True

/-- `OneDecision`, with what carries it through the steps. -/
def Decides : ℕ × BrokerEvent P → List (ℕ × BrokerEvent P) → Prop
  | (_, .lookedUp c stored), earlier => DecidedBefore c earlier → IsDecided stored
  | (i, .decided record), earlier => OneDecision (i, .decided record) earlier ∧
    (i, .savedRecord record) ∈ sinceLast i isOpening earlier ∧ record.status ≠ .pending
  | e, earlier => OneDecision e earlier

structure Decisions (s : ApprovalState W P) : Prop where
  memoryKeys : ∀ j c record, (s.brokers j).records c = some record →
    record.request.checkpointId = c
  storedKeys : ∀ c record, s.repository.records c = some record → record.request.checkpointId = c
  stored : ∀ c, DecidedBefore c s.trace → IsDecided (s.repository.records c)
  events : Every Decides s.trace

theorem sinceLast_subset (i : ℕ) (p : BrokerEvent P → Bool) (trace : List (ℕ × BrokerEvent P)) :
    sinceLast i p trace ⊆ trace := by
  conv_rhs => rw [← sinceLast_append_upToLast i p trace]
  exact List.subset_append_left _ _

theorem DecidedBefore.mono {c : Str} {trace trace' : List (ℕ × BrokerEvent P)}
    (h : DecidedBefore c trace) (hsub : trace ⊆ trace') : DecidedBefore c trace' := by
  obtain ⟨j, record, hmem, hc, hstatus⟩ := h
  exact ⟨j, record, hsub hmem, hc, hstatus⟩

/-- Where the last opening event of the broker is. -/
theorem Deciding.opened {s : ApprovalState W P} {c : Str}
    {cached stored : Option ApprovalRecord} {done : List (BrokerEvent P)}
    (h : Deciding i s c cached stored done) : ∃ earlier,
      upToLast i isOpening s.trace = (i, .decideBegan c cached stored) :: earlier ∧
      EventTrace.own i (sinceLast i isOpening s.trace) = done := by
  obtain ⟨old, hown⟩ := h.own
  exact upToLast_of_own hown h.opening rfl

/-- With a current view, `decide` began without a stored decision. -/
theorem Deciding.undecided {s : ApprovalState W P} {c : Str}
    {cached stored : Option ApprovalRecord} {done : List (BrokerEvent P)}
    (h : Deciding i s c cached stored done) (hview : Every CurrentView s.trace) :
    ¬ IsDecided stored := by
  obtain ⟨earlier, hup, -⟩ := h.opened
  obtain ⟨current, hfound, hpending⟩ := h.found
  rcases hfound with hcached | ⟨-, hstored⟩
  · rw [← sinceLast_append_upToLast i isOpening s.trace, hup] at hview
    exact hview.at current hcached hpending
  · rintro ⟨record, hrecord, hstatus⟩
    rw [hstored] at hrecord
    exact hstatus (Option.some.inj hrecord ▸ hpending)

theorem Deciding.beganUndecided {s : ApprovalState W P} {c : Str}
    {cached stored : Option ApprovalRecord} {done : List (BrokerEvent P)}
    (h : Deciding i s c cached stored done) (hview : Every CurrentView s.trace) :
    BeganUndecided i s.trace := by
  obtain ⟨earlier, hup, -⟩ := h.opened
  intro c' cached' stored' rest hup' record hrecord
  rw [hup] at hup'
  simp only [List.cons.injEq, Prod.mk.injEq, BrokerEvent.decideBegan.injEq] at hup'
  obtain ⟨⟨-, -, -, rfl⟩, -⟩ := hup'
  by_contra hstatus
  exact h.undecided hview ⟨record, hrecord, hstatus⟩

/-- An operation that looked at the record without finding a decision, and
that nobody forestalled, comes before any decision. -/
theorem not_decidedBefore {s : ApprovalState W P} {c : Str} {e : BrokerEvent P}
    {earlier : List (ℕ × BrokerEvent P)} {record : ApprovalRecord}
    (hup : upToLast i isOpening s.trace = (i, e) :: earlier) (he : ∀ r, e ≠ .savedRecord r)
    (hc : record.request.checkpointId = c)
    (hcurrent : ∀ j r, (j, .savedRecord r) ∈ sinceLast i isOpening s.trace →
      r.request.checkpointId ≠ record.request.checkpointId)
    (hearlier : ¬ DecidedBefore c earlier) : ¬ DecidedBefore c s.trace := by
  rintro ⟨j, r, hmem, hr, hstatus⟩
  rw [← sinceLast_append_upToLast i isOpening s.trace, hup] at hmem
  rcases List.mem_append.mp hmem with hmem | hmem
  · exact hcurrent j r hmem (hr.trans hc.symm)
  · rcases List.mem_cons.mp hmem with hmem | hmem
    · exact he r (Prod.mk.inj hmem).2.symm
    · exact hearlier ⟨j, r, hmem, hr, hstatus⟩

/-- Of two events of a trace, one comes before the other. -/
theorem mem_mem_ne {α : Type} {a b : α} {l : List α} (ha : a ∈ l) (hb : b ∈ l) (hab : a ≠ b) :
    (∃ later earlier, l = later ++ a :: earlier ∧ b ∈ earlier) ∨
      ∃ later earlier, l = later ++ b :: earlier ∧ a ∈ earlier := by
  obtain ⟨later, earlier, rfl⟩ := List.append_of_mem ha
  rcases List.mem_append.mp hb with hb | hb
  · obtain ⟨later', middle, rfl⟩ := List.append_of_mem hb
    refine .inr ⟨later', middle ++ a :: earlier, by simp, ?_⟩
    exact List.mem_append_right _ List.mem_cons_self
  · rcases List.mem_cons.mp hb with hb | hb
    · exact absurd hb.symm hab
    · exact .inl ⟨later, earlier, rfl, hb⟩

/-- Two stored decisions of one checkpoint are one event. -/
theorem decision_unique {trace : List (ℕ × BrokerEvent P)} {j k : ℕ} {r r' : ApprovalRecord}
    (h : Every Decides trace) (hr : (j, .savedRecord r) ∈ trace)
    (hr' : (k, .savedRecord r') ∈ trace)
    (hc : r.request.checkpointId = r'.request.checkpointId) (hs : r.status ≠ .pending)
    (hs' : r'.status ≠ .pending) : j = k := by
  by_contra hne
  have hab : ((j, .savedRecord r) : ℕ × BrokerEvent P) ≠ (k, .savedRecord r') := by
    intro heq
    exact hne (Prod.mk.inj heq).1
  rcases mem_mem_ne hr hr' hab with ⟨later, earlier, rfl, hmem⟩ | ⟨later, earlier, rfl, hmem⟩
  · exact h.at.1 ⟨k, r', hmem, hc.symm, hs'⟩
  · exact h.at.1 ⟨j, r, hmem, hc, hs⟩

/-- A `decide` that is about to return is the first of its checkpoint. -/
theorem first_decided {s : ApprovalState W P} {c : Str} {cached stored : Option ApprovalRecord}
    {done : List (BrokerEvent P)} {record : ApprovalRecord}
    (hdec : Deciding i s c cached stored done) (hsaved : .savedRecord record ∈ done)
    (hdone : ∀ r, .decided r ∉ done) (hstatus : record.status ≠ .pending)
    (hevents : Every Decides s.trace) {j : ℕ} {r : ApprovalRecord}
    (hmem : (j, .decided r) ∈ s.trace) :
    r.request.checkpointId ≠ record.request.checkpointId := by
  intro hc
  obtain ⟨earlier, hup, hown⟩ := hdec.opened
  have hmine : (i, .savedRecord record) ∈ sinceLast i isOpening s.trace :=
    mem_of_mem_own (by rw [hown]; exact hsaved)
  have hsplit := sinceLast_append_upToLast i isOpening s.trace
  rw [← hsplit] at hmem hevents
  rcases List.mem_append.mp hmem with hsince | hbefore
  · -- the other `decide` returned since this one began
    obtain ⟨l, e, hl⟩ := List.append_of_mem hsince
    have hother : (j, .savedRecord r) ∈ s.trace ∧ r.status ≠ .pending := by
      rw [hl, List.append_assoc, List.cons_append] at hevents
      obtain ⟨-, hsaved', hstatus'⟩ := hevents.at
      refine ⟨?_, hstatus'⟩
      rw [← hsplit, hl, List.append_assoc, List.cons_append]
      exact List.mem_append_right _ (List.mem_cons_of_mem _ (sinceLast_subset _ _ _ hsaved'))
    have hji : j = i := by
      rw [hsplit] at hevents
      exact decision_unique hevents hother.1 (sinceLast_subset _ _ _ hmine) hc hother.2 hstatus
    rw [hji] at hsince
    exact hdone r (hown ▸ mem_own_of_mem hsince)
  · -- it returned before, and so had stored its decision before
    obtain ⟨l, e, hl⟩ := List.append_of_mem hbefore
    have hother : (j, .savedRecord r) ∈ upToLast i isOpening s.trace ∧ r.status ≠ .pending := by
      rw [hl] at hevents
      obtain ⟨-, hsaved', hstatus'⟩ := hevents.of_append.at
      refine ⟨?_, hstatus'⟩
      rw [hl]
      exact List.mem_append_right _ (List.mem_cons_of_mem _ (sinceLast_subset _ _ _ hsaved'))
    obtain ⟨l', e', hl'⟩ := List.append_of_mem hmine
    rw [hl', List.append_assoc, List.cons_append] at hevents
    exact hevents.at.1 ⟨j, r, List.mem_append_right _ hother.1, hc, hother.2⟩

/-- The events that say nothing of records. -/
def isQuiet : BrokerEvent P → Bool
  | .lookedUp _ _ | .decideBegan _ _ _ | .savedRecord _ | .savedGrant _ | .decided _ => false
  | _ => true

theorem every_decides_append {events : List (BrokerEvent P)} {trace : List (ℕ × BrokerEvent P)}
    (h : Every Decides trace) (hevents : ∀ x ∈ events, isQuiet x = true) :
    Every Decides (events.map (i, ·) ++ trace) := by
  induction events with
  | nil => exact h
  | cons e events ih =>
    refine ⟨?_, ih fun x hx => hevents x (List.mem_cons_of_mem _ hx)⟩
    have he := hevents e List.mem_cons_self
    cases e <;> first | exact trivial | cases he

theorem decidedBefore_append {c : Str} {events : List (BrokerEvent P)}
    {trace : List (ℕ × BrokerEvent P)} (hevents : ∀ x ∈ events, ∀ r, x ≠ .savedRecord r)
    (h : DecidedBefore c (events.map (i, ·) ++ trace)) : DecidedBefore c trace := by
  obtain ⟨j, record, hmem, hc, hstatus⟩ := h
  rcases List.mem_append.mp hmem with hmem | hmem
  · obtain ⟨x, hx, hxe⟩ := List.mem_map.mp hmem
    exact absurd (Prod.mk.inj hxe).2 (hevents x hx record)
  · exact ⟨j, record, hmem, hc, hstatus⟩

theorem isQuiet_ne {x : BrokerEvent P} (h : isQuiet x = true) (r : ApprovalRecord) :
    x ≠ .savedRecord r := by
  rintro rfl
  cases h

theorem keys_putRecord {m : BrokerMemory} {c : Str} {record : ApprovalRecord}
    (h : ∀ c record, m.records c = some record → record.request.checkpointId = c)
    (hc : record.request.checkpointId = c) :
    ∀ c' r, (m.putRecord c record).records c' = some r → r.request.checkpointId = c' := by
  intro c' r hr
  change Function.update m.records c (some record) c' = some r at hr
  rw [Function.update_apply] at hr
  split_ifs at hr with hcc
  · obtain rfl := Option.some.inj hr
    rw [hc, hcc]
  · exact h c' r hr

/-- A record that is stored keeps its key, and its status is what is stored. -/
theorem putRecord_records {repo : ApprovalRepository} (record : ApprovalRecord)
    (h : ∀ c r, repo.records c = some r → r.request.checkpointId = c) :
    (∀ c r, (repo.putRecord record).records c = some r → r.request.checkpointId = c) ∧
      (∃ r, (repo.putRecord record).records record.request.checkpointId = some r ∧
        r.status = record.status) ∧
      ∀ c, c ≠ record.request.checkpointId →
        (repo.putRecord record).records c = repo.records c := by
  refine ⟨fun c r hr => ?_, ⟨_, Function.update_self _ _ _, rfl⟩,
    fun c hc => Function.update_of_ne hc _ _⟩
  change Function.update repo.records record.request.checkpointId _ c = some r at hr
  rw [Function.update_apply] at hr
  split_ifs at hr with hcc
  · obtain rfl := Option.some.inj hr
    rw [hcc]
    rcases hrow : repo.records record.request.checkpointId with _ | row
    · rfl
    · exact h _ row hrow
  · exact h c r hr

/-- A record stored by an operation that came before any decision. -/
theorem Decisions.store {s t : ApprovalState W P} {record : ApprovalRecord}
    (hs : Decisions s) (htrace : t.trace = (i, .savedRecord record) :: s.trace)
    (hrepo : t.repository = s.repository.putRecord record)
    (hkeys : ∀ j c r, (t.brokers j).records c = some r → r.request.checkpointId = c)
    (hfirst : ¬ DecidedBefore record.request.checkpointId s.trace)
    (hbegan : BeganUndecided i s.trace) : Decisions t := by
  obtain ⟨hstoredKeys, ⟨row, hrow, hstatus⟩, hothers⟩ := putRecord_records record hs.storedKeys
  refine ⟨hkeys, by rw [hrepo]; exact hstoredKeys, fun c hc => ?_, ?_⟩
  · rw [hrepo]
    rw [htrace] at hc
    obtain ⟨j, r, hmem, hrc, hr⟩ := hc
    rcases List.mem_cons.mp hmem with hmem | hmem
    · obtain rfl := BrokerEvent.savedRecord.inj (Prod.mk.inj hmem).2
      rw [← hrc]
      exact ⟨row, hrow, by rw [hstatus]; exact hr⟩
    · by_cases hcr : c = record.request.checkpointId
      · rw [hcr] at hrc
        exact absurd ⟨j, r, hmem, hrc, hr⟩ hfirst
      · rw [hothers c hcr]
        exact hs.stored c ⟨j, r, hmem, hrc, hr⟩
  · rw [htrace]
    exact ⟨⟨hfirst, hbegan⟩, hs.events⟩

/-- Every step keeps the decisions, as long as the operations have a current
view. -/
theorem decisions_step (hsome : sys.repository ≠ none) {s t : ApprovalState W P}
    (h : BrokerStep sys passed i s t) (hview : Every CurrentView t.trace) (hs : Decisions s) :
    Decisions t := by
  obtain ⟨events, htrace, heffect⟩ := h.effect
  have hview' : Every CurrentView s.trace := by
    rw [htrace] at hview
    exact hview.of_append
  -- the keys of all memories, from those of the broker's own
  have hkeys : ∀ m, t.brokers i = m →
      (∀ c r, m.records c = some r → r.request.checkpointId = c) →
      ∀ j c r, (t.brokers j).records c = some r → r.request.checkpointId = c := by
    intro m hm hmem j c r hr
    by_cases hj : j = i
    · rw [hj, hm] at hr
      exact hmem c r hr
    · rw [h.others j hj] at hr
      exact hs.memoryKeys j c r hr
  -- a step that stores no record
  have hkeep : (∀ j c r, (t.brokers j).records c = some r → r.request.checkpointId = c) →
      t.repository.records = s.repository.records →
      (∀ x ∈ events, ∀ r, x ≠ .savedRecord r) → Every Decides t.trace → Decisions t := by
    intro hmem hrecords hev hevery
    refine ⟨hmem, by rw [hrecords]; exact hs.storedKeys, fun c hc => ?_, hevery⟩
    rw [htrace] at hc
    rw [hrecords]
    exact hs.stored c (decidedBefore_append hev hc)
  have hquiet : (∀ j c r, (t.brokers j).records c = some r → r.request.checkpointId = c) →
      t.repository.records = s.repository.records → (∀ x ∈ events, isQuiet x = true) →
      Decisions t := by
    intro hmem hrecords hev
    refine hkeep hmem hrecords (fun x hx => isQuiet_ne (hev x hx)) ?_
    rw [htrace]
    exact every_decides_append hs.events hev
  have hsame := hs.memoryKeys i
  generalize hb : t.brokers i = memory at heffect
  generalize hr : t.repository = repo at heffect
  cases heffect with
  | idle hp => exact hquiet (hkeys _ hb (by rw [hp.records]; exact hsame)) (by rw [hr]) (by simp)
  | failed e => exact hquiet (hkeys _ hb hsame) (by rw [hr]) (by simp [isQuiet])
  | missed hp =>
    exact hquiet (hkeys _ hb (by rw [hp.records]; exact hsame)) (by rw [hr])
      (by simp [isQuiet, calledEvent])
  | held _ _ _ => exact hquiet (hkeys _ hb hsame) (by rw [hr]) (by simp [isQuiet, calledEvent])
  | @replayed cp a g m _ hp _ _ _ =>
    refine hquiet (hkeys _ hb ?_) (by rw [hr]) (by simp [isQuiet, calledEvent])
    show ∀ c r, m.records c = some r → _
    rw [hp.records]
    exact hsame
  | fetched _ _ _ _ _ _ => exact hquiet (hkeys _ hb hsame) (by rw [hr]) (by simp [isQuiet])
  | @lookedUp c m hm _ =>
    refine hkeep (hkeys _ hb ?_) (by rw [hr]) (by simp) ?_
    · rcases hm with rfl | ⟨record, hrecord, rfl⟩
      · exact hsame
      · exact keys_putRecord hsame (hs.storedKeys c record hrecord)
    · rw [htrace]
      exact ⟨hs.stored c, hs.events⟩
  | submitted _ hc _ _ _ _ =>
    exact hquiet (hkeys _ hb (keys_putRecord hsame hc)) (by rw [hr]) (by simp)
  | @requested record repo' written hopen hpending hw =>
    cases hw with
    | skipped hnone => exact absurd hnone hsome
    | failed e => exact hquiet (hkeys _ hb hsame) (by rw [hr]) (by simp [isQuiet])
    | saved _ =>
      obtain ⟨old, hown⟩ := hopen hsome
      rw [← List.nil_append (.lookedUp record.request.checkpointId none :: old)] at hown
      obtain ⟨earlier, hup, -⟩ := upToLast_of_own (p := isOpening) hown
        (fun _ hx => absurd hx List.not_mem_nil) rfl
      have hfirst : ¬ DecidedBefore record.request.checkpointId s.trace := by
        rw [htrace] at hview
        refine not_decidedBefore hup (by intro r h; cases h) rfl hview.1 fun hdb => ?_
        -- the look at the repository found no record
        have hev := hs.events
        rw [← sinceLast_append_upToLast i isOpening s.trace, hup] at hev
        obtain ⟨r, hr', -⟩ := hev.at hdb
        cases hr'
      refine hs.store htrace hr (hkeys _ hb hsame) hfirst ?_
      intro c cached stored rest hup'
      rw [hup] at hup'
      cases hup'
  | @began c m hm =>
    refine hkeep (hkeys _ hb ?_) (by rw [hr]) (by simp) ?_
    · rcases hm with rfl | ⟨-, record, hrecord, rfl⟩
      · exact hsame
      · exact keys_putRecord hsame (hs.storedKeys c record hrecord)
    · rw [htrace]
      exact ⟨hs.stored c, hs.events⟩
  | authorized _ _ _ => exact hquiet (hkeys _ hb hsame) (by rw [hr]) (by simp [isQuiet])
  | @settled c cached stored done current record repo' written hdec hfound hmem hsettles hw =>
    have hc : record.request.checkpointId = c := by
      rw [hsettles.request]
      exact hsame c current hmem
    have hkeys' := hkeys _ hb (keys_putRecord hsame hc)
    cases hw with
    | skipped hnone => exact absurd hnone hsome
    | failed e => exact hquiet hkeys' (by rw [hr]) (by simp [isQuiet])
    | saved _ =>
      obtain ⟨earlier, hup, -⟩ := hdec.opened
      have hfirst : ¬ DecidedBefore c s.trace := by
        rw [htrace] at hview
        refine not_decidedBefore hup (by intro r h; cases h) hc hview.1 fun hdb => ?_
        have hev := hs.events
        rw [← sinceLast_append_upToLast i isOpening s.trace, hup] at hev
        exact hdec.undecided hview' (hev.at hdb)
      rw [← hc] at hfirst
      exact hs.store htrace hr hkeys' hfirst (hdec.beganUndecided hview')
  | @minted c cached stored done record principal nowMs ttl grant repo' written hdec _ _ _ _ hw =>
    have hkeys' := hkeys _ hb hsame
    have hbegan := hdec.beganUndecided hview'
    cases hw with
    | skipped hnone => exact absurd hnone hsome
    | failed e => exact hquiet hkeys' (by rw [hr]) (by simp [isQuiet])
    | saved _ =>
      refine hkeep hkeys' (by rw [hr]; rfl) (by simp) ?_
      rw [htrace]
      refine ⟨?_, trivial, hs.events⟩
      -- the approval opens nothing
      intro c' cached' stored' rest hup'
      refine hbegan c' cached' stored' rest ?_
      rw [← hup']
      simp [upToLast, isOpening]
  | decided hdec hsaved hdone hstatus =>
    refine hkeep (hkeys _ hb hsame) (by rw [hr]) (by simp) ?_
    rw [htrace]
    obtain ⟨earlier, hup, hown⟩ := hdec.opened
    refine ⟨⟨⟨fun j r hmem => ?_, hdec.beganUndecided hview'⟩, ?_, hstatus⟩, hs.events⟩
    · exact first_decided hdec (hsaved hsome) hdone hstatus hs.events hmem
    · exact mem_of_mem_own (by
        show _ ∈ EventTrace.own i (sinceLast i isOpening s.trace)
        rw [hown]
        exact hsaved hsome)
  | consumed _ _ _ => exact hquiet (hkeys _ hb hsame) (by rw [hr]; rfl) (by simp [isQuiet])

theorem oneDecision_of_decides {e : ℕ × BrokerEvent P} {earlier : List (ℕ × BrokerEvent P)}
    (h : Decides e earlier) : OneDecision e earlier := by
  obtain ⟨j, event⟩ := e
  cases event with
  | decided record => exact h.1
  | lookedUp c stored => trivial
  | _ => exact h

/-- In every run in which the operations have a current view of the records,
each checkpoint is decided once. -/
theorem one_decision (hsome : sys.repository ≠ none)
    {pool : Pool ℕ (ApprovalState W P) PyExc Unit}
    (h : Pool.Reach Fresh (Programs sys passed) Passes pool)
    (hview : Every CurrentView pool.state.trace) : Every OneDecision pool.state.trace := by
  have hinv : Every CurrentView pool.state.trace → Decisions pool.state := by
    refine invariant_of_step (J := fun s => Every CurrentView s.trace → Decisions s) ?_ ?_ ?_ h
    · rintro s ⟨hrepo, hbrokers, htrace⟩ -
      refine ⟨fun j c r hr => ?_, fun c r hr => ?_, fun c hc => ?_, by rw [htrace]; trivial⟩
      · rw [hbrokers j] at hr
        cases hr
      · rw [hrepo] at hr
        cases hr
      · obtain ⟨j, r, hmem, -⟩ := hc
        rw [htrace] at hmem
        exact absurd hmem List.not_mem_nil
    · intro i s t hstep ih hview'
      refine decisions_step hsome hstep hview' (ih ?_)
      obtain ⟨events, htrace, -⟩ := hstep.effect
      rw [htrace] at hview'
      exact hview'.of_append
    · rintro s t ⟨w, hw⟩ ih hview'
      exact ⟨(ih hview').memoryKeys, (ih hview').storedKeys, (ih hview').stored,
        (ih hview').events⟩
  exact (hinv hview).events.imp fun _ _ => oneDecision_of_decides

/-! ### What is returned is logged -/

theorem finishDecide_returned {s : ApprovalState W P} {record r : ApprovalRecord}
    (h : (finishDecide sys i record s).1 = .ok r) :
    r = record ∧ (finishDecide sys i record s).2.trace = (i, .decided record) :: s.trace := by
  obtain ⟨w, hok | ⟨e, herror⟩⟩ := updateProvider_cases sys i record s
  · rw [finishDecide, PyM.bind_of_ok hok] at h ⊢
    cases h
    exact ⟨rfl, rfl⟩
  · rw [finishDecide, PyM.bind_of_error herror] at h
    cases h

/-- The broker logged that it returned the record. -/
def Returns (i : ℕ) (r : Except PyExc ApprovalRecord) (t : ApprovalState W P) : Prop :=
  ∀ record, r = .ok record → .decided record ∈ EventTrace.own i t.trace

theorem returns_finishDecide (record : ApprovalRecord) (s : ApprovalState W P) :
    Proc.Safe (Rely i) (fun _ _ => True) (fun _ => True) (Returns i)
      (.atomic (finishDecide sys i record)) s := by
  refine Proc.safe_atomic fun t _ _ => ⟨trivial, trivial, fun u hu _ r hr => ?_⟩
  obtain ⟨rfl, htrace⟩ := finishDecide_returned hr
  rw [hu.own, htrace, own_cons_self]
  exact List.mem_cons_self

/-- The rule for a step that says nothing of the result. -/
theorem returns_step {α : Type} {x : PyM (ApprovalState W P) α}
    {f : α → Proc (ApprovalState W P) PyExc ApprovalRecord} {s : ApprovalState W P}
    (h : ∀ a t, Proc.Safe (Rely i) (fun _ _ => True) (fun _ => True) (Returns i) (f a) t) :
    Proc.Safe (Rely i) (fun _ _ => True) (fun _ => True) (Returns i) (.atomic x >>= f) s := by
  have hx : Proc.Safe (Rely i) (fun _ _ => True) (fun _ => True) (fun _ _ => True)
      (.atomic x) s := Proc.safe_atomic fun _ _ _ => ⟨trivial, trivial, fun _ _ _ => trivial⟩
  exact Proc.safe_bind (Rely.refl i) hx trivial (fun a t _ _ => h a t) fun _ _ _ _ => nofun

/-- Whatever the other brokers do, a record that `decide` returns is logged. -/
theorem decide_returns (c : Str) (approved : Bool) (principal : P) (reason : Str)
    (ttlSeconds : Option Int) (s : ApprovalState W P) :
    Proc.Safe (Rely i) (fun _ _ => True) (fun _ => True) (Returns i)
      (ApprovalBroker.decide sys i c approved principal reason ttlSeconds) s := by
  have hraise : ∀ (e : PyExc) (t : ApprovalState W P), Proc.Safe (Rely i) (fun _ _ => True)
      (fun _ => True) (Returns i) (.raise e) t := fun e t => Proc.safe_raise fun _ _ _ => nofun
  have hconclude : ∀ (record : ApprovalRecord) (nowMs : Int) (t : ApprovalState W P),
      Proc.Safe (Rely i) (fun _ _ => True) (fun _ => True) (Returns i)
        (concludeDecide sys i c approved record principal nowMs ttlSeconds) t := by
    intro record nowMs t
    cases approved with
    | false => exact returns_finishDecide record t
    | true =>
      rcases hgrant : decisionGrant record c nowMs ttlSeconds with e | grant
      · simp only [concludeDecide, grantApproval, hgrant]
        exact hraise e t
      · simp only [concludeDecide, grantApproval, hgrant]
        exact returns_step fun _ u => returns_finishDecide record u
  refine returns_step fun current t => returns_step fun nowMs u => ?_
  split_ifs
  · exact returns_step fun _ _ => returns_step fun _ _ => hraise _ _
  · refine returns_step fun _ v => ?_
    rcases decisionRecord current approved (sys.subject principal) reason nowMs with e | record
    · exact hraise e v
    · exact returns_step fun _ w => hconclude record nowMs w

/-- Broker 1 decides what broker 0 requested, from the repository. -/
def sampleDenial : List (ℕ × Operation Str) :=
  [(0, sampleCall), (1, sampleDecide false (lit "alice"))]

theorem one_decision_denied :
    Every OneDecision (performAll (sampleSystem (fun _ => lit "bob") (some .sqlite)) sampleDenial
      freshState).trace := by
  refine one_decision (by simp [sampleSystem]) (reach_sample _ (fun _ => True) sampleDenial
    (by simp [sampleDenial, sampleCall, sampleDecide, Operation.Allowed])) ?_
  refine ⟨trivial, fun j r hmem => ?_, trivial, nofun, fun j r hmem => ?_, trivial, trivial,
    trivial⟩
  · exact absurd (List.mem_singleton.mp hmem) (by simp)
  · exact absurd hmem List.not_mem_nil

/-- Two brokers keep the pending record in memory; broker 1 denies, and then
broker 0 approves. -/
def sampleStale : List (ℕ × Operation Str) :=
  [(0, sampleCall), (1, sampleCall), (1, sampleDecide false (lit "carol")),
    (0, sampleDecide true (lit "alice"))]

def sampleRecord (status : ApprovalStatus) (decidedBy : Str) : ApprovalRecord :=
  ⟨.fromCheckpoint (lit "request") sampleCheckpoint (lit "org") (lit "prod") (lit "agent")
    (lit "bob") (lit "Approve pay (high risk)") 0 [], status, lit "ticket", decidedBy, [], 0⟩

/-- A broker that kept the pending record in memory overwrites the stored
denial with an approval. -/
theorem staleCache_counterexample :
    ¬ ∀ (sys : ApprovalSystem Unit Str) (pool : Pool ℕ (ApprovalState Unit Str) PyExc Unit),
      sys.repository ≠ none → Pool.Reach Fresh (Programs sys fun _ => True) Passes pool →
      Every OneDecision pool.state.trace := by
  intro h
  have hall := h (sampleSystem (fun _ => lit "bob") (some .sqlite)) _ (by simp [sampleSystem])
    (reach_sample _ (fun _ => True) sampleStale
      (by simp [sampleStale, sampleCall, sampleDecide, Operation.Allowed]))
  set trace := (performAll (sampleSystem (fun _ => lit "bob") (some .sqlite)) sampleStale
    freshState).trace with htrace
  have hsplit : trace = trace.take 3 ++
      (0, .savedRecord (sampleRecord .approved (lit "alice"))) :: trace.drop 4 := rfl
  have hdenied : (1, .savedRecord (sampleRecord .denied (lit "carol"))) ∈ trace.drop 4 := by decide
  exact (every_iff.mp hall _ _ _ hsplit).1 ⟨1, _, hdenied, rfl, nofun⟩

end ApprovalBroker

end AgentRoi
