/-
A queue of jobs under leases.

Nothing here mentions the package.  A worker claims a job for a time, and
then releases or finishes it; a job whose lease ran out may be claimed again.
A job nobody claimed waits.

* `Step`, `Reach` — what may happen to the jobs, one event at a time;
* `Reach.claims_eq` — a job knows how often it was claimed;
* `Reach.exclusive` — between two claims of a job the lease of the first ran
  out, or its owner released the job;
* `Reach.claimAll` — one worker claims several jobs at once.
-/
import Mathlib.Order.Lattice
import Mathlib.Data.List.Basic
import Mathlib.Logic.Function.Basic

namespace AgentRoi

namespace LeaseQueue

variable {K O T : Type}

inductive Phase (O T : Type) where
  | waiting
  | leased (owner : O) (expires : T)
  | finished

structure Job (O T : Type) where
  phase : Phase O T
  claims : ℕ

inductive Event (K O T : Type) where
  | claimed (k : K) (owner : O) (now expires : T)
  | released (k : K) (owner : O)
  | finished (k : K) (owner : O)

/-- The time of a claim. -/
def Event.claimTime : Event K O T → Option T
  | .claimed _ _ now _ => some now
  | _ => none

/-- Whether the event is a claim of the job. -/
def Event.isClaim [DecidableEq K] (k : K) : Event K O T → Bool
  | .claimed k' _ _ _ => k' = k
  | _ => false

variable [LinearOrder T]

/-- The job waits, or its lease ran out before `now`. -/
def Job.Claimable (job : Job O T) (now : T) : Prop :=
  job.phase = .waiting ∨ ∃ owner expires, job.phase = .leased owner expires ∧ expires < now

variable [DecidableEq K]

inductive Step (jobs : K → Job O T) : Event K O T → (K → Job O T) → Prop
  | claimed {k : K} {owner : O} {now expires : T} : (jobs k).Claimable now →
      Step jobs (.claimed k owner now expires)
        (Function.update jobs k ⟨.leased owner expires, (jobs k).claims + 1⟩)
  | released {k : K} {owner : O} {expires : T} : (jobs k).phase = .leased owner expires →
      Step jobs (.released k owner) (Function.update jobs k ⟨.waiting, (jobs k).claims⟩)
  | finished {k : K} {owner : O} {expires : T} : (jobs k).phase = .leased owner expires →
      Step jobs (.finished k owner) (Function.update jobs k ⟨.finished, (jobs k).claims⟩)

/-- The jobs after a trace of events, newest event first. -/
inductive Reach : List (Event K O T) → (K → Job O T) → Prop
  | init : Reach [] fun _ => ⟨.waiting, 0⟩
  | step {trace : List (Event K O T)} {jobs jobs' : K → Job O T} {e : Event K O T} :
      Reach trace jobs → Step jobs e jobs' → Reach (e :: trace) jobs'

/-- The jobs before the last events of a trace. -/
theorem Reach.before {later earlier : List (Event K O T)} {jobs : K → Job O T}
    (h : Reach (later ++ earlier) jobs) : ∃ jobs', Reach earlier jobs' := by
  induction later generalizing jobs with
  | nil => exact ⟨jobs, h⟩
  | cons e later ih =>
    rw [List.cons_append] at h
    cases h with
    | step hreach _ => exact ih hreach

/-- No claim is earlier than one before it. -/
def Clocked (trace : List (Event K O T)) : Prop :=
  trace.Pairwise fun later earlier =>
    ∀ t ∈ later.claimTime, ∀ u ∈ earlier.claimTime, u ≤ t

variable {trace : List (Event K O T)} {jobs jobs' : K → Job O T} {e : Event K O T} {k : K}

/-- An event counts a claim of its own job. -/
theorem Step.claims_eq (h : Step jobs e jobs') :
    (jobs' k).claims = (jobs k).claims + if e.isClaim k then 1 else 0 := by
  cases h with
  | @claimed k' owner now expires _ =>
    by_cases hk : k = k'
    · subst hk
      simp [Event.isClaim]
    · simp [hk, Ne.symm hk, Event.isClaim]
  | @released k' owner expires _ =>
    by_cases hk : k = k'
    · subst hk
      simp [Event.isClaim]
    · simp [hk, Event.isClaim]
  | @finished k' owner expires _ =>
    by_cases hk : k = k'
    · subst hk
      simp [Event.isClaim]
    · simp [hk, Event.isClaim]

/-- A job knows how often it was claimed. -/
theorem Reach.claims_eq (h : Reach trace jobs) : (jobs k).claims = trace.countP (Event.isClaim k) := by
  induction h with
  | init => rfl
  | step _ hstep ih => rw [hstep.claims_eq, ih, List.countP_cons]

/-- What can become of a lease in one step, other than its release: it still
runs, the job is finished, or the lease ran out and the job was claimed. -/
theorem Step.lease_fate {owner : O} {expires : T} (h : Step jobs e jobs')
    (hk : (jobs k).phase = .leased owner expires) :
    (jobs' k).phase = .leased owner expires ∨ (jobs' k).phase = .finished ∨
      e = .released k owner ∨
      ∃ owner' now' expires', e = .claimed k owner' now' expires' ∧ expires < now' := by
  cases h with
  | @claimed k' owner' now' expires' hclaim =>
    by_cases hkk : k = k'
    · subst hkk
      rcases hclaim with hw | ⟨o, t, hl, hlt⟩
      · rw [hk] at hw
        cases hw
      · rw [hk] at hl
        cases hl
        exact .inr (.inr (.inr ⟨owner', now', expires', rfl, hlt⟩))
    · rw [Function.update_of_ne hkk]
      exact .inl hk
  | @released k' owner' expires' hphase =>
    by_cases hkk : k = k'
    · subst hkk
      rw [hk] at hphase
      cases hphase
      exact .inr (.inr (.inl rfl))
    · rw [Function.update_of_ne hkk]
      exact .inl hk
  | @finished k' owner' expires' hphase =>
    by_cases hkk : k = k'
    · subst hkk
      rw [Function.update_self]
      exact .inr (.inl rfl)
    · rw [Function.update_of_ne hkk]
      exact .inl hk

/-- A finished job stays finished. -/
theorem Step.finished_kept (h : Step jobs e jobs') (hk : (jobs k).phase = .finished) :
    (jobs' k).phase = .finished := by
  -- no event is possible for a job that is finished
  have hne : ∀ {k' : K} {job : Job O T}, k ≠ k' →
      (Function.update jobs k' job k).phase = .finished := by
    intro k' job hne
    rw [Function.update_of_ne hne, hk]
  cases h with
  | claimed hclaim =>
    refine hne ?_
    rintro rfl
    rcases hclaim with hw | ⟨_, _, hl, -⟩
    · rw [hk] at hw
      cases hw
    · rw [hk] at hl
      cases hl
  | released hphase =>
    refine hne ?_
    rintro rfl
    rw [hk] at hphase
    cases hphase
  | finished hphase =>
    refine hne ?_
    rintro rfl
    rw [hk] at hphase
    cases hphase

/-- What became of a lease its owner did not release. -/
theorem Reach.lease_fate {mid earlier : List (Event K O T)} {owner : O} {now expires : T}
    (h : Reach (mid ++ .claimed k owner now expires :: earlier) jobs)
    (hmid : Event.released k owner ∉ mid) :
    (jobs k).phase = .leased owner expires ∨ (jobs k).phase = .finished ∨
      ∃ owner' now' expires', Event.claimed k owner' now' expires' ∈ mid ∧ expires < now' := by
  induction mid generalizing jobs with
  | nil =>
    cases h with
    | step _ hstep =>
      cases hstep with
      | claimed _ =>
        rw [Function.update_self]
        exact .inl rfl
  | cons e mid ih =>
    cases h with
    | @step _ jobs₀ _ _ hreach hstep =>
      rcases ih hreach fun hmem => hmid (List.mem_cons_of_mem _ hmem) with
        hk | hk | ⟨owner', now', expires', hmem, hlt⟩
      · rcases hstep.lease_fate hk with hk' | hk' | rfl | ⟨owner', now', expires', rfl, hlt⟩
        · exact .inl hk'
        · exact .inr (.inl hk')
        · exact absurd List.mem_cons_self hmid
        · exact .inr (.inr ⟨owner', now', expires', List.mem_cons_self, hlt⟩)
      · exact .inr (.inl (hstep.finished_kept hk))
      · exact .inr (.inr ⟨owner', now', expires', List.mem_cons_of_mem _ hmem, hlt⟩)

/-- Between two claims of a job the lease of the first ran out, or its owner
released the job. -/
theorem Reach.exclusive {mid earlier : List (Event K O T)} {owner owner' : O}
    {now expires now' expires' : T}
    (h : Reach (.claimed k owner' now' expires' :: (mid ++ .claimed k owner now expires :: earlier))
      jobs)
    (hclock : Clocked (.claimed k owner' now' expires' ::
      (mid ++ .claimed k owner now expires :: earlier)))
    (hmid : Event.released k owner ∉ mid) : expires < now' := by
  cases h with
  | @step _ jobs₀ _ _ hreach hstep =>
    cases hstep with
    | claimed hclaim =>
      rcases hreach.lease_fate hmid with hk | hk | ⟨o, t, u, hmem, hlt⟩
      · rcases hclaim with hw | ⟨_, _, hl, hlt⟩
        · rw [hk] at hw
          cases hw
        · rw [hk] at hl
          cases hl
          exact hlt
      · rcases hclaim with hw | ⟨_, _, hl, -⟩
        · rw [hk] at hw
          cases hw
        · rw [hk] at hl
          cases hl
      · -- the claim in between is not later than this one
        have hle : t ≤ now' :=
          (List.pairwise_cons.mp hclock).1 _ (List.mem_append_left _ hmem) now' rfl t rfl
        exact lt_of_lt_of_le hlt hle

/-- One worker claims several jobs. -/
theorem Reach.claimAll (owner : O) {now : T} (expires : T) (h : Reach trace jobs) {ks : List K}
    (hks : ks.Nodup) (hclaim : ∀ k ∈ ks, (jobs k).Claimable now) :
    ∃ jobs', Reach (ks.map (fun k => .claimed k owner now expires) ++ trace) jobs' ∧
      (∀ k ∈ ks, jobs' k = ⟨.leased owner expires, (jobs k).claims + 1⟩) ∧
      ∀ k, k ∉ ks → jobs' k = jobs k := by
  induction ks with
  | nil => exact ⟨jobs, h, fun _ hk => absurd hk List.not_mem_nil, fun _ _ => rfl⟩
  | cons k ks ih =>
    obtain ⟨hk, hks⟩ := List.nodup_cons.mp hks
    obtain ⟨jobs', hreach, hin, hout⟩ := ih hks fun k' hk' => hclaim k' (List.mem_cons_of_mem _ hk')
    have hjob : jobs' k = jobs k := hout k hk
    have hc : (jobs' k).Claimable now := hjob ▸ hclaim k List.mem_cons_self
    refine ⟨_, hreach.step (.claimed hc), ?_, ?_⟩
    · intro k' hk'
      by_cases heq : k' = k
      · subst heq
        rw [Function.update_self, hjob]
      · rw [Function.update_of_ne heq]
        exact hin k' ((List.mem_cons.mp hk').resolve_left heq)
    · intro k' hk'
      rw [List.mem_cons, not_or] at hk'
      rw [Function.update_of_ne hk'.1]
      exact hout k' hk'.2

end LeaseQueue

end AgentRoi
