/-
Mutual exclusion of the idempotency stores, over any sequence of calls.

* `Call`, `runCalls` — `begin`, `complete` and `fail` calls of any workers,
  each at its reading of the clock, whether it returns or raises;
* `settledOutcome` — what the calls of a sequence settled a key with;
* `Replays` — every response that the calls of a sequence store on a key can be
  returned again; a call that raises stores nothing, and nothing is asked of it;
* `call_step`, `runCalls_entry` — an entry that does not expire is kept by one
  call, and by a sequence of calls, and changes at most by being settled once;
* `mutual_exclusion` — what callers see of a started key until it expires.

The PostgreSQL store reads a response that is a string as JSON once more, so
it does not return it (`stringResponse_counterexample`).
-/
import AgentRoi.IdempotencyLedger

namespace AgentRoi

open KeyLedger

variable {F : Type}

namespace IdempotencyStore

/-- A call on the store. -/
inductive Call (F : Type) where
  | begin (namesp key requestDigest : Str) (ttlSeconds : Int)
  | complete (namesp key : Str) (response : PyVal F)
  | fail (namesp key error : Str)

def Call.key : Call F → Str × Str
  | .begin namesp key _ _ => (namesp, key)
  | .complete namesp key _ => (namesp, key)
  | .fail namesp key _ => (namesp, key)

variable [PyFloat F]

/-- The store after a call, whether it returned or raised. -/
def Call.run (now : Instant) (s : IdempotencyStore F) : Call F → IdempotencyStore F
  | .begin namesp key requestDigest ttlSeconds =>
    (IdempotencyStore.begin now namesp key requestDigest ttlSeconds s).2
  | .complete namesp key response => (IdempotencyStore.complete namesp key response s).2
  | .fail namesp key error => (IdempotencyStore.fail namesp key error s).2

def runCalls : List (Instant × Call F) → IdempotencyStore F → IdempotencyStore F
  | [], s => s
  | (now, call) :: calls, s => runCalls calls (call.run now s)

/-- The outcome a call gives the key `k`, when it is a `complete` or a `fail`
on that key and returns. -/
def Call.settles (k : Str × Str) (s : IdempotencyStore F) :
    Call F → Option (IdempotencyResult F)
  | .begin _ _ _ _ => none
  | .complete namesp key response =>
    if (namesp, key) = k ∧ (IdempotencyStore.complete namesp key response s).1.isOk then
      (stored s.driver? response).map .completed
    else none
  | .fail namesp key error =>
    if (namesp, key) = k ∧ (IdempotencyStore.fail namesp key error s).1.isOk then
      some (.failed error)
    else none

/-- The first outcome the calls of a sequence give the key `k`. -/
def settledOutcome (k : Str × Str) :
    List (Instant × Call F) → IdempotencyStore F → Option (IdempotencyResult F)
  | [], _ => none
  | (now, call) :: calls, s => (call.settles k s).or (settledOutcome k calls (call.run now s))

/-- What the call stores, when it returns, can be returned again. -/
def Call.Replayable (s : IdempotencyStore F) : Call F → Prop
  | .complete namesp key response =>
    (IdempotencyStore.complete namesp key response s).1 = .ok () →
      IdempotencyStore.Replayable s.driver? response
  | _ => True

/-- Every response that the calls of a sequence store on `k` can be returned again. -/
def Replays (k : Str × Str) : List (Instant × Call F) → IdempotencyStore F → Prop
  | [], _ => True
  | (now, call) :: calls, s =>
    (call.key = k → call.Replayable s) ∧ Replays k calls (call.run now s)

theorem Call.driver_run (now : Instant) (s : IdempotencyStore F) (call : Call F) :
    (call.run now s).driver? = s.driver? := by
  cases call with
  | begin namesp key requestDigest ttlSeconds => exact (begin_step rfl).1
  | complete namesp key response => exact (complete_step rfl).1
  | fail namesp key error => exact (fail_step rfl).1

/-- A call is a move of the ledger on its key. -/
theorem Call.move_run (now : Instant) (s : IdempotencyStore F) (call : Call F) :
    Move Entry.Late Entry.Settles now call.key s.entries (call.run now s).entries := by
  cases call with
  | begin namesp key requestDigest ttlSeconds => exact (begin_step rfl).2.move
  | complete namesp key response => exact (complete_step rfl).2.move
  | fail namesp key error => exact (fail_step rfl).2.move

omit [PyFloat F] in
/-- Settling on one key, as seen at the key `k`: a settled entry stays, and a
pending one takes the outcome when the call returns. -/
theorem settleStep_at {k k' : Str × Str} {p : Except PyExc (IdempotencyResult F) → Prop}
    {σ σ' : Str × Str → Option (Entry F)} {r : Except PyExc Unit} {e : Entry F}
    (h : SettleStep k' p σ r σ') (he : σ k = some e) :
    (σ' k = some e ∧ ¬(k' = k ∧ r.isOk)) ∨
      (k' = k ∧ r.isOk ∧ e.status = .pending ∧ ∃ status answer, status ≠ .pending ∧ p answer ∧
        σ' k = some { e with status, answer }) := by
  cases h with
  | refused exc => exact .inl ⟨he, fun h => (by cases h.2)⟩
  | @settled e' status answer he' hpend hs hp =>
    by_cases hk : k' = k
    · subst hk
      rw [he] at he'
      cases he'
      exact .inr ⟨rfl, rfl, hpend, status, answer, hs, hp, Function.update_self ..⟩
    · exact .inl ⟨by rw [Function.update_of_ne (Ne.symm hk), he], fun h => hk h.1⟩

/-- One call keeps an entry that is not late, or settles it. -/
theorem call_step {now : Instant} {s : IdempotencyStore F} {call : Call F} {k : Str × Str}
    {e : Entry F} (he : s.entries k = some e) (hlive : ¬e.Late now)
    (hreplay : call.key = k → call.Replayable s) :
    ((call.run now s).entries k = some e ∧ call.settles k s = none) ∨
      (e.status = .pending ∧ ∃ status result, status ≠ .pending ∧
        call.settles k s = some result ∧
        (call.run now s).entries k = some { e with status, answer := .ok result }) := by
  cases call with
  | begin namesp key requestDigest ttlSeconds =>
    left
    rcases hx : IdempotencyStore.begin now namesp key requestDigest ttlSeconds s with ⟨r, s'⟩
    refine ⟨?_, rfl⟩
    rw [Call.run, hx]
    exact (begin_step hx).2.kept he hlive
  | complete namesp key response =>
    rcases hx : IdempotencyStore.complete namesp key response s with ⟨r, s'⟩
    rw [Call.run, Call.settles, hx]
    rcases settleStep_at (complete_step hx).2 he with ⟨he', hnot⟩ |
      ⟨hk, hok, hpend, status, answer, hs, ⟨value, hv, ha⟩, he'⟩
    · exact .inl ⟨he', if_neg hnot⟩
    · refine .inr ⟨hpend, status, .completed value, hs, ?_, ?_⟩
      · rw [if_pos ⟨hk, hok⟩, hv]
        rfl
      · -- Only here is the response stored, since the call has returned.
        have hr : r = .ok () := by
          cases r with
          | error exc => cases hok
          | ok u => rfl
        have hkeeps : IdempotencyStore.Replayable s.driver? response :=
          hreplay hk (by rw [hx, hr])
        rw [he', ha hkeeps]
  | fail namesp key error =>
    rcases hx : IdempotencyStore.fail namesp key error s with ⟨r, s'⟩
    rw [Call.run, Call.settles, hx]
    rcases settleStep_at (fail_step hx).2 he with ⟨he', hnot⟩ |
      ⟨hk, hok, hpend, status, answer, hs, ha, he'⟩
    · exact .inl ⟨he', if_neg hnot⟩
    · exact .inr ⟨hpend, status, .failed error, hs, if_pos ⟨hk, hok⟩, by rw [he', ha]⟩

/-- A sequence of calls keeps a settled entry that does not expire. -/
theorem runCalls_settled {calls : List (Instant × Call F)} {s : IdempotencyStore F}
    {k : Str × Str} {e : Entry F} (he : s.entries k = some e) (hs : e.status ≠ .pending)
    (hlive : ∀ p ∈ calls, ¬e.Late p.1) : (runCalls calls s).entries k = some e := by
  induction calls generalizing s with
  | nil => exact he
  | cons p calls ih =>
    obtain ⟨now, call⟩ := p
    refine ih ?_ fun p hp => hlive p (by simp [hp])
    obtain ⟨e', he', hsame⟩ := (call.move_run now s).kept he (hlive (now, call) (by simp))
    rcases hsame with rfl | ⟨hpend, -⟩
    · exact he'
    · exact absurd hpend hs

/-- After a sequence of calls an entry that does not expire is still there, with
the same time of expiry. -/
theorem runCalls_live {calls : List (Instant × Call F)} {s : IdempotencyStore F}
    {k : Str × Str} {e : Entry F} (he : s.entries k = some e)
    (hlive : ∀ p ∈ calls, ¬e.Late p.1) :
    ∃ e', (runCalls calls s).entries k = some e' ∧ e'.expiresAt = e.expiresAt := by
  induction calls generalizing s e with
  | nil => exact ⟨e, he, rfl⟩
  | cons p calls ih =>
    obtain ⟨now, call⟩ := p
    obtain ⟨e₁, he₁, hsame⟩ := (call.move_run now s).kept he (hlive (now, call) (by simp))
    have hexp : e₁.expiresAt = e.expiresAt := by
      rcases hsame with rfl | ⟨-, status, answer, -, rfl⟩ <;> rfl
    have hlive₁ : ∀ p ∈ calls, ¬e₁.Late p.1 := by
      intro p hp
      rw [Entry.Late, hexp]
      exact hlive p (by simp [hp])
    obtain ⟨e₂, he₂, hexp₂⟩ := ih he₁ hlive₁
    exact ⟨e₂, he₂, hexp₂.trans hexp⟩

/-- A sequence of calls keeps an entry that does not expire, or settles it with
the first outcome it is given. -/
theorem runCalls_entry {calls : List (Instant × Call F)} {s : IdempotencyStore F}
    {k : Str × Str} {e : Entry F} (he : s.entries k = some e)
    (hlive : ∀ p ∈ calls, ¬e.Late p.1) (hreplay : Replays k calls s) :
    match settledOutcome k calls s with
    | none => (runCalls calls s).entries k = some e
    | some result => ∃ status, status ≠ .pending ∧
        (runCalls calls s).entries k = some { e with status, answer := .ok result } := by
  induction calls generalizing s with
  | nil => exact he
  | cons p calls ih =>
    obtain ⟨now, call⟩ := p
    rw [settledOutcome, runCalls]
    have hrest : ∀ p ∈ calls, ¬e.Late p.1 := fun p hp => hlive p (by simp [hp])
    rcases call_step he (hlive (now, call) (by simp)) hreplay.1 with
      ⟨he', hnone⟩ | ⟨-, status, result, hs, hsome, he'⟩
    · rw [hnone, Option.none_or]
      exact ih he' hrest hreplay.2
    · rw [hsome, Option.some_or]
      exact ⟨status, hs, runCalls_settled he' hs hrest⟩

theorem runCalls_driver (calls : List (Instant × Call F)) (s : IdempotencyStore F) :
    (runCalls calls s).driver? = s.driver? := by
  induction calls generalizing s with
  | nil => rfl
  | cons p calls ih => exact (ih _).trans (p.2.driver_run p.1 s)

omit [PyFloat F] in
/-- A later `begin` on the key of an entry that its store accepted once. -/
theorem accepts_again {driver : Option (PgDriver F)} {t now : Instant}
    {namesp key requestDigest requestDigest' : Str} {ttlSeconds ttlSeconds' : Int}
    (h : Accepts driver t namesp key requestDigest ttlSeconds)
    (hexp : ∃ expires, expiryAfter now ttlSeconds' = .ok expires)
    (hdigest : driver.isSome → pgText requestDigest' = .ok ()) :
    Accepts driver now namesp key requestDigest' ttlSeconds' := by
  cases driver with
  | none => exact ⟨h.1, h.2.1, h.2.2.1, h.2.2.2.1, hexp⟩
  | some driver => exact ⟨h.1, h.2.1, hdigest rfl, hexp⟩

/-- What callers see of a key after a `begin` on it returned `started` at `t`,
up to `t` plus its time to live.  After any calls, none later than `now`:

* no `begin` returns `started`;
* where every response the calls stored on the key can be returned again, a
  `begin` whose own expiry is a date, and whose digest the database can store,
  raises `IdempotencyConflict` for another digest, raises
  `IdempotencyInProgress` while nothing settled the key, and otherwise returns
  the outcome;
* `complete` and `fail` return on a pending record only, and a settled record
  is not changed by any calls until it expires;
* the records of other keys are changed by no call, except removed when late.
-/
theorem mutual_exclusion {s s₁ : IdempotencyStore F} {t : Instant}
    {namesp key requestDigest : Str} {ttlSeconds : Int}
    (hstart : begin t namesp key requestDigest ttlSeconds s = (.ok .started, s₁)) :
    (∃ expires : Instant, expires.micros = t.micros + (max 1 ttlSeconds).toNat * 1000000 ∧
      ∀ (calls : List (Instant × Call F)) (now : Instant), (∀ p ∈ calls, p.1 ≤ now) →
        now ≤ expires → ∀ requestDigest' ttlSeconds',
          (begin now namesp key requestDigest' ttlSeconds' (runCalls calls s₁)).1 ≠ .ok .started ∧
          (Replays (namesp, key) calls s₁ → (∃ e, expiryAfter now ttlSeconds' = .ok e) →
            (s.driver?.isSome → pgText requestDigest' = .ok ()) →
            (begin now namesp key requestDigest' ttlSeconds' (runCalls calls s₁)).1 =
              if requestDigest ≠ requestDigest' then .error idempotencyConflict
              else match settledOutcome (namesp, key) calls s₁ with
                | none => .error idempotencyInProgress
                | some result => .ok result)) ∧
    (∀ (u : IdempotencyStore F) (k : Str × Str),
      (∀ response, (complete k.1 k.2 response u).1 = .ok () →
        ∃ e, u.entries k = some e ∧ e.status = .pending) ∧
      (∀ error, (fail k.1 k.2 error u).1 = .ok () →
        ∃ e, u.entries k = some e ∧ e.status = .pending) ∧
      ∀ (e : Entry F) (calls : List (Instant × Call F)), u.entries k = some e →
        e.status ≠ .pending → (∀ p ∈ calls, ¬e.Late p.1) →
        (runCalls calls u).entries k = some e) ∧
    ∀ (u : IdempotencyStore F) (now : Instant) (call : Call F) (k : Str × Str), k ≠ call.key →
      (call.run now u).entries k = u.entries k ∨
        (call.run now u).entries k = none ∧ ∃ e, u.entries k = some e ∧ e.Late now := by
  obtain ⟨expires, hexp, haccepts, hentry⟩ := begin_started hstart
  have hdriver : s₁.driver? = s.driver? := (begin_step hstart).1
  refine ⟨⟨expires, expiryAfter_eq_ok hexp, ?_⟩, ?_, ?_⟩
  · intro calls now htimes hnow requestDigest' ttlSeconds'
    have hnotLate : ∀ u : Instant, u ≤ now → ¬(pendingEntry (F := F) requestDigest expires).Late u :=
      fun u hu => not_lt.mpr (Instant.isoformat_strictMono.monotone (hu.trans hnow))
    have hlive : ∀ p ∈ calls, ¬(pendingEntry (F := F) requestDigest expires).Late p.1 :=
      fun p hp => hnotLate p.1 (htimes p hp)
    rcases hb : begin now namesp key requestDigest' ttlSeconds' (runCalls calls s₁) with ⟨r, s₃⟩
    have hstep := (begin_step hb).2
    rw [runCalls_driver, hdriver] at hstep
    refine ⟨?_, fun hreplay he hd => ?_⟩
    · -- The entry is still there, settled or not, and no entry answers `started`.
      obtain ⟨e, hrun, hexpires⟩ := runCalls_live hentry hlive
      have hlate : ¬e.Late now := by
        rw [Entry.Late, hexpires]
        exact hnotLate now le_rfl
      exact (hstep.answer_of_live hrun hlate).2 (entries_answer_ne hrun)
    · -- It answers by what the calls made of the entry, which they can return again.
      have hrun := runCalls_entry hentry hlive hreplay
      cases ho : settledOutcome (namesp, key) calls s₁ with
      | none =>
        rw [ho] at hrun
        exact (hstep.answer_of_live hrun (hnotLate now le_rfl)).1 (accepts_again haccepts he hd)
      | some result =>
        rw [ho] at hrun
        obtain ⟨status, -, hrun⟩ := hrun
        exact (hstep.answer_of_live hrun (hnotLate now le_rfl)).1 (accepts_again haccepts he hd)
  · -- A settle step that returns found its record pending.
    intro u k
    have hsettle : ∀ {p : Except PyExc (IdempotencyResult F) → Prop} {r : Except PyExc Unit}
        {σ' : Str × Str → Option (Entry F)}, SettleStep k p u.entries r σ' → r = .ok () →
        ∃ e, u.entries k = some e ∧ e.status = .pending := by
      intro p r σ' h hr
      cases h with
      | refused exc => cases hr
      | settled he hpend _ _ => exact ⟨_, he, hpend⟩
    refine ⟨fun response h => hsettle (complete_step rfl).2 h,
      fun error h => hsettle (fail_step rfl).2 h, fun e calls he hs hlive => ?_⟩
    exact runCalls_settled he hs hlive
  · intro u now call k hk
    exact (call.move_run now u).frame hk

/-- A new PostgreSQL store whose column yields the value of the text. -/
def emptyPostgres : IdempotencyStore Half := .postgres ⟨Json.loads⟩ fun _ => none

def firstInstant : Instant := ⟨0, by decide⟩

/-- The request that the samples below begin. -/
def beginRequest (s : IdempotencyStore Half) :
    Except PyExc (IdempotencyResult Half) × IdempotencyStore Half :=
  begin firstInstant (lit "n") (lit "k") (lit "d") 60 s

/-- A worker completes the request with 5, and a slower one then with a string,
which raises and stores nothing. -/
def completedTwice : List (Instant × Call Half) :=
  [(firstInstant, .complete (lit "n") (lit "k") (.int 5)),
    (firstInstant, .complete (lit "n") (lit "k") (.str (lit "late")))]

theorem mutual_exclusion_completed :
    (beginRequest (runCalls completedTwice (beginRequest emptyPostgres).2)).1 =
      .ok (.completed (.int 5)) := by
  have hstart : beginRequest emptyPostgres = (.ok .started, (beginRequest emptyPostgres).2) := rfl
  obtain ⟨later, hlater, -⟩ := begin_started hstart
  obtain ⟨expires, -, hrun⟩ := (mutual_exclusion hstart).1
  have hle : firstInstant ≤ expires := Instant.le_iff.mpr (Nat.zero_le _)
  have htimes : ∀ p ∈ completedTwice, p.1 ≤ firstInstant := by
    simp [completedTwice]
  have hreplays : Replays (lit "n", lit "k") completedTwice (beginRequest emptyPostgres).2 := by
    refine ⟨?_, ?_, trivial⟩
    · intro _ _ _ text h
      cases h
    · intro _ h
      cases h
  exact (hrun completedTwice firstInstant htimes hle (lit "d") 60).2 hreplays
    ⟨later, hlater⟩ fun _ => rfl

/-- A request completed with a string is answered with an error. -/
theorem stringResponse_counterexample :
    (beginRequest emptyPostgres).1 = .ok .started ∧
    (complete (lit "n") (lit "k") (.str (lit "ok")) (beginRequest emptyPostgres).2).1 = .ok () ∧
    (beginRequest (complete (lit "n") (lit "k") (.str (lit "ok"))
      (beginRequest emptyPostgres).2).2).1.isOk = false := by
  refine ⟨rfl, ?_⟩
  decide +kernel

end IdempotencyStore

end AgentRoi
