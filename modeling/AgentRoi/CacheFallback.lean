/-
When `CachedControlPlaneClient` answers from its cache.

* `PolicyBundleCache.store` — what `save` does once the bundle is verified;
* `Obtains`, `FailsAt` — the client fetches a bundle and the cache verifies it,
  or one of the two raises;
* `Loaded` — a bundle of the cache that verifies, and how old it is;
* `PrefersFetched` — a bundle that is obtained is returned, and one of the
  cache only where none is;
* `prefersFetched_iff` — this holds exactly when what is obtained can be
  stored, or is what the cache has already.
-/
import AgentRoi.ControlPlaneClients

namespace AgentRoi

variable {F W : Type} [PyValues F]

namespace PolicyBundleCache

variable (cache : PolicyBundleCache W)

/-- `save`, after the bundle is verified. -/
def store (bundle : PolicyBundle F) (agentId : Str) : PyM (ClientWorld W) Unit := do
  let file ← PyM.ofExcept (cache.path F bundle.key agentId)
  let now ← beyond cache.clock
  let data ← PyM.ofExcept bundle.toDict
  cache.writeFile file (canonicalJson (.ofFields [
    (lit "cached_at_epoch_ms", .int now), (lit "bundle", .ofFields data)]))

theorem save_eq (bundle : PolicyBundle F) (agentId : Str) : cache.save bundle agentId =
    beyond (bundle.verify cache.hash cache.signer) >>= fun _ => cache.store bundle agentId := rfl

/-- The file of a policy has a bundle that verifies, saved no more than
`max_stale_seconds` ago if it may not be stale. -/
def Loaded (key : PolicyKey) (agentId : Str) (allowStale : Bool) (w : ClientWorld W)
    (bundle : PolicyBundle F) : Prop :=
  ∃ (file text : Str) (data saved document : Json F) (now savedAt : ℤ) (o : W) (age : ℚ),
    cache.path F key agentId = .ok file ∧ w.files file = some (.ok text) ∧
      loadsText text = .ok data ∧ data.item (lit "bundle") = .ok document ∧
      document.Names bundle.key ∧ bundle.VerifiedBy cache.hash cache.signer ∧
      data.item (lit "cached_at_epoch_ms") = .ok saved ∧ saved.pyInt = some savedAt ∧
      cache.clock w.outside = (.ok now, o) ∧ ageSeconds now savedAt = .ok age ∧
      (allowStale = false → age ≤ cache.maxStaleSeconds)

variable {cache} {key : PolicyKey} {agentId : Str} {allowStale : Bool} {w w' : ClientWorld W}
  {bundle : PolicyBundle F}

theorem checkAge_eq_ok {data : Json F} {now : ℤ} {u : Unit}
    (h : cache.checkAge data now allowStale = .ok u) : ∃ (saved : Json F) (savedAt : ℤ) (age : ℚ),
      data.item (lit "cached_at_epoch_ms") = .ok saved ∧ saved.pyInt = some savedAt ∧
        ageSeconds now savedAt = .ok age ∧ (allowStale = false → age ≤ cache.maxStaleSeconds) := by
  obtain ⟨saved, hsaved, h⟩ := except_bind_eq_ok.mp h
  obtain ⟨savedAt, hsavedAt, h⟩ := except_bind_eq_ok.mp h
  obtain ⟨age, hage, h⟩ := except_bind_eq_ok.mp h
  have hint : saved.pyInt = some savedAt := by
    cases hint : saved.pyInt with
    | none =>
      rw [hint] at hsavedAt
      cases hsavedAt
    | some i =>
      rw [hint] at hsavedAt
      cases hsavedAt
      rfl
  refine ⟨saved, savedAt, age, hsaved, hint, hage, fun hfresh => ?_⟩
  by_contra hold
  rw [if_pos ⟨not_le.mp hold, hfresh⟩] at h
  cases h

/-- What `load` returns. -/
theorem loaded_of_load (h : cache.load key agentId allowStale w = (.ok bundle, w')) :
    cache.Loaded key agentId allowStale w bundle := by
  obtain ⟨found, w₁, hdocument, hreceive⟩ := PyM.bind_eq_ok.mp h
  unfold document at hdocument
  obtain ⟨file, hfile, hdocument⟩ := PyM.ofExcept_bind_eq_ok.mp hdocument
  obtain ⟨text, w₂, hread, hdocument⟩ := PyM.bind_eq_ok.mp hdocument
  obtain ⟨data, hdata, hdocument⟩ := PyM.ofExcept_bind_eq_ok.mp hdocument
  obtain ⟨now, w₃, hclock, hdocument⟩ := PyM.bind_eq_ok.mp hdocument
  obtain ⟨u, hage, hdocument⟩ := PyM.ofExcept_bind_eq_ok.mp hdocument
  obtain ⟨saved, savedAt, age, hsaved, hsavedAt, hseconds, hfresh⟩ := checkAge_eq_ok hage
  have hitem : data.item (lit "bundle") = .ok found := by
    rw [PyM.ofExcept_apply] at hdocument
    exact congrArg Prod.fst hdocument
  have htext : w.files file = some (.ok text) ∧ w₂ = w := by
    unfold readFile at hread
    rw [PyM.get_bind, PyM.ofExcept_apply] at hread
    cases hw : w.files file with
    | none =>
      rw [hw] at hread
      cases hread
    | some content =>
      rw [hw] at hread
      cases hread
      exact ⟨rfl, rfl⟩
  obtain ⟨htext, rfl⟩ := htext
  obtain ⟨o, hnow, -⟩ := beyond_eq.mp hclock
  exact ⟨file, text, data, saved, found, now, savedAt, o, age, hfile, htext, hdata, hitem,
    names_of_receive hreceive, verifiedBy_of_receive hreceive, hsaved, hsavedAt, hnow, hseconds,
    hfresh⟩

end PolicyBundleCache

namespace CachedControlPlaneClient

variable (cached : CachedControlPlaneClient W)

/-- The client fetches the bundle, and the cache's signer verifies it; the
outside world is `o'` then. -/
def ObtainsAt (key : PolicyKey) (agent : Option Str) (w : ClientWorld W) (bundle : PolicyBundle F)
    (o' : W) : Prop :=
  ∃ o, cached.client.get key agent w.outside = (.ok bundle, o) ∧
    bundle.verify cached.cache.hash cached.cache.signer o = (.ok (), o')

def Obtains (key : PolicyKey) (agent : Option Str) (w : ClientWorld W)
    (bundle : PolicyBundle F) : Prop :=
  ∃ o', cached.ObtainsAt key agent w bundle o'

/-- Fetching raises an `Exception`, or verifying what was fetched; the outside
world is `o` then, and no file has been touched. -/
def FailsAt (F : Type) [PyValues F] (key : PolicyKey) (agent : Option Str) (w : ClientWorld W)
    (o : W) : Prop :=
  ∃ e : PyExc, e.isException = true ∧
    (cached.client.get (F := F) key agent w.outside = (.error e, o) ∨
      ∃ (bundle : PolicyBundle F) (o₁ : W),
        cached.client.get key agent w.outside = (.ok bundle, o₁) ∧
          bundle.verify cached.cache.hash cached.cache.signer o₁ = (.error e, o))

/-- The bundle that is obtained is returned.  One that is not was loaded from
the cache, with the files and at the time at which fetching or verifying
failed. -/
structure PrefersFetched (F : Type) [PyValues F] (key : PolicyKey) (agent : Option Str)
    (w : ClientWorld W) : Prop where
  fetched : ∀ bundle : PolicyBundle F, cached.Obtains key agent w bundle →
    (cached.get key agent w).1 = .ok bundle
  loaded : ∀ (bundle : PolicyBundle F) w', cached.get key agent w = (.ok bundle, w') →
    cached.Obtains key agent w bundle ∨
      (∀ other : PolicyBundle F, ¬ cached.Obtains key agent w other) ∧
        ∃ o, cached.FailsAt F key agent w o ∧
          cached.cache.Loaded key (agent.getD []) cached.allowStaleOnError
            { w with outside := o } bundle

/-- What is obtained is stored, or the cache has it already. -/
def CanStore (F : Type) [PyValues F] (key : PolicyKey) (agent : Option Str) (w : ClientWorld W) :
    Prop :=
  ∀ (bundle : PolicyBundle F) o', cached.ObtainsAt key agent w bundle o' →
    (∃ w', cached.cache.store bundle (agent.getD []) { w with outside := o' } = (.ok (), w')) ∨
      ∃ e w₁ w₂, cached.cache.store bundle (agent.getD []) { w with outside := o' } =
          (.error e, w₁) ∧ e.isException = true ∧
        cached.cache.load key (agent.getD []) cached.allowStaleOnError w₁ = (.ok bundle, w₂)

variable {cached} {key : PolicyKey} {agent : Option Str} {w w' : ClientWorld W}
  {bundle : PolicyBundle F} {o' : W}

/-- One bundle at most is obtained. -/
theorem ObtainsAt.unique {other : PolicyBundle F} {o₂ : W}
    (h : cached.ObtainsAt key agent w bundle o') (h' : cached.ObtainsAt key agent w other o₂) :
    bundle = other ∧ o' = o₂ := by
  obtain ⟨o, hget, hverify⟩ := h
  obtain ⟨o₁, hget', hverify'⟩ := h'
  rw [hget] at hget'
  cases hget'
  rw [hverify] at hverify'
  cases hverify'
  exact ⟨rfl, rfl⟩

/-- What is obtained is stored next. -/
theorem fetch_of_obtains (h : cached.ObtainsAt key agent w bundle o') :
    cached.fetch (cached.client.get key agent) (agent.getD []) w =
      (cached.cache.store bundle (agent.getD []) >>= fun _ => pure bundle)
        { w with outside := o' } := by
  obtain ⟨o, hget, hverify⟩ := h
  have hfetched : beyond (cached.client.get key agent) w = (.ok bundle, { w with outside := o }) :=
    beyond_eq.mpr ⟨o, hget, rfl⟩
  have hverified : beyond (bundle.verify cached.cache.hash cached.cache.signer)
      { w with outside := o } = (.ok (), { w with outside := o' }) :=
    beyond_eq.mpr ⟨o', hverify, rfl⟩
  unfold fetch
  rw [PyM.bind_of_ok hfetched, PolicyBundleCache.save_eq, PyM.bind_assoc,
    PyM.bind_of_ok hverified]

/-- What is fetched and stored was obtained. -/
theorem obtains_of_fetch
    (h : cached.fetch (cached.client.get key agent) (agent.getD []) w = (.ok bundle, w')) :
    cached.Obtains key agent w bundle := by
  obtain ⟨fetched, w₁, hfetched, h⟩ := PyM.bind_eq_ok.mp h
  obtain ⟨o, hget, rfl⟩ := beyond_eq.mp hfetched
  obtain ⟨u, w₂, hsaved, h⟩ := PyM.bind_eq_ok.mp h
  cases h
  obtain ⟨u, w₃, hverified, -⟩ := PyM.bind_eq_ok.mp hsaved
  obtain ⟨o', hverify, -⟩ := beyond_eq.mp hverified
  exact ⟨o', o, hget, hverify⟩

/-- Where nothing is obtained, `fetch` raises what fetching or verifying raised. -/
theorem failsAt_of_fetch {e : PyExc} {w₁ : ClientWorld W}
    (hnone : ∀ other : PolicyBundle F, ¬ cached.Obtains key agent w other)
    (he : e.isException = true) (h : cached.fetch (F := F) (cached.client.get key agent)
      (agent.getD []) w = (.error e, w₁)) :
    ∃ o, cached.FailsAt F key agent w o ∧ w₁ = { w with outside := o } := by
  rcases hget : cached.client.get (F := F) key agent w.outside with ⟨e₁ | fetched, o₁⟩
  · have hfetched : beyond (cached.client.get (F := F) key agent) w =
        (.error e₁, { w with outside := o₁ }) := beyond_eq.mpr ⟨o₁, hget, rfl⟩
    unfold fetch at h
    rw [PyM.bind_of_error hfetched] at h
    cases h
    exact ⟨o₁, ⟨e, he, .inl hget⟩, rfl⟩
  · rcases hverify : fetched.verify cached.cache.hash cached.cache.signer o₁ with ⟨e₂ | u, o₂⟩
    · have hfetched : beyond (cached.client.get (F := F) key agent) w =
          (.ok fetched, { w with outside := o₁ }) := beyond_eq.mpr ⟨o₁, hget, rfl⟩
      have hverified : beyond (fetched.verify cached.cache.hash cached.cache.signer)
          { w with outside := o₁ } = (.error e₂, { w with outside := o₂ }) :=
        beyond_eq.mpr ⟨o₂, hverify, rfl⟩
      unfold fetch at h
      rw [PyM.bind_of_ok hfetched, PolicyBundleCache.save_eq, PyM.bind_assoc,
        PyM.bind_of_error hverified] at h
      cases h
      exact ⟨o₂, ⟨e, he, .inr ⟨fetched, o₁, hget, hverify⟩⟩, rfl⟩
    · exact absurd ⟨o₂, o₁, hget, hverify⟩ (hnone fetched)

/-- How an obtained bundle is returned. -/
theorem get_of_obtains (h : cached.ObtainsAt key agent w bundle o') :
    (cached.get key agent w).1 = .ok bundle ↔
      (∃ w', cached.cache.store bundle (agent.getD []) { w with outside := o' } = (.ok (), w')) ∨
        ∃ e w₁ w₂, cached.cache.store bundle (agent.getD []) { w with outside := o' } =
            (.error e, w₁) ∧ e.isException = true ∧
          cached.cache.load key (agent.getD []) cached.allowStaleOnError w₁ = (.ok bundle, w₂) := by
  have hfetch := fetch_of_obtains h
  rw [get_eq]
  rcases hstore : cached.cache.store bundle (agent.getD []) { w with outside := o' } with
    ⟨e | u, w₁⟩
  · rw [PyM.bind_of_error hstore] at hfetch
    rw [PyM.tryExcept_of_error hfetch, fallBack]
    constructor
    · intro hreturned
      by_cases he : e.isException = true
      · rw [if_pos he] at hreturned
        exact .inr ⟨e, w₁, _, rfl, he, Prod.ext hreturned rfl⟩
      · rw [if_neg he] at hreturned
        cases hreturned
    · rintro (⟨w', hstored⟩ | ⟨e', w₁', w₂, hfailed, he, hload⟩)
      · cases hstored
      · cases hfailed
        rw [if_pos he, hload]
  · rw [PyM.bind_of_ok hstore] at hfetch
    rw [PyM.tryExcept_of_ok hfetch]
    exact iff_of_true rfl (.inl ⟨w₁, rfl⟩)

/-- Where nothing is obtained, the client with a cache returns what it finds in
the cache after the failure. -/
theorem loaded_of_get (hnone : ∀ other : PolicyBundle F, ¬ cached.Obtains key agent w other)
    (h : cached.get key agent w = (.ok bundle, w')) :
    ∃ o, cached.FailsAt F key agent w o ∧ cached.cache.Loaded key (agent.getD [])
      cached.allowStaleOnError { w with outside := o } bundle := by
  rw [get_eq] at h
  rcases PyM.tryExcept_eq_ok.mp h with hfetch | ⟨e, w₁, hfetch, hfallBack⟩
  · exact absurd (obtains_of_fetch hfetch) (hnone bundle)
  · unfold fallBack at hfallBack
    split at hfallBack
    · next he =>
      obtain ⟨o, hfails, rfl⟩ := failsAt_of_fetch hnone he hfetch
      exact ⟨o, hfails, PolicyBundleCache.loaded_of_load hfallBack⟩
    · cases hfallBack

/-- The cache answers only where nothing was obtained, exactly when what is
obtained can be stored or is in the cache. -/
theorem prefersFetched_iff (cached : CachedControlPlaneClient W) (key : PolicyKey)
    (agent : Option Str) (w : ClientWorld W) :
    cached.PrefersFetched F key agent w ↔ cached.CanStore F key agent w := by
  constructor
  · intro h bundle o' hobtains
    exact (get_of_obtains hobtains).mp (h.fetched bundle ⟨o', hobtains⟩)
  · intro h
    have hfetched : ∀ bundle : PolicyBundle F, cached.Obtains key agent w bundle →
        (cached.get key agent w).1 = .ok bundle := by
      rintro bundle ⟨o', hobtains⟩
      exact (get_of_obtains hobtains).mpr (h bundle o' hobtains)
    refine ⟨hfetched, fun bundle w' hget => ?_⟩
    by_cases hobtained : ∃ other : PolicyBundle F, cached.Obtains key agent w other
    · obtain ⟨other, hother⟩ := hobtained
      have hsame := hfetched other hother
      rw [hget] at hsame
      cases hsame
      exact .inl hother
    · rw [not_exists] at hobtained
      exact .inr ⟨hobtained, loaded_of_get hobtained hget⟩

/-! ### A disk that fails -/

def diskFull : PyExc := .other (lit "OSError") (some (lit "No space left on device")) true

/-- The server has version 1, and files of the cache cannot be replaced. -/
def failingDisk : CachedControlPlaneClient Unit where
  client := otherServer.client
  cache := { otherServer.cache with replace := fun _ _ => PyM.raise diskFull }
  allowStaleOnError := false

def olderBundle : PolicyBundle SmallFloat := { otherBundle with version := lit "0" }

/-- Every file has version 0. -/
def olderFiles : ClientWorld Unit where
  files _ := some (.ok (canonicalJson (.ofFields [(lit "cached_at_epoch_ms", .int 0),
    (lit "bundle", .ofFields ((olderBundle.toDict).toOption.getD []))])))
  outside := ()

/-- Version 1 is fetched and verified, and version 0 is returned. -/
theorem older_preferred :
    (∃ bundle : PolicyBundle SmallFloat, failingDisk.Obtains otherBundle.key none olderFiles bundle ∧
      bundle.version = lit "1") ∧
    (∃ (bundle : PolicyBundle SmallFloat) (w' : ClientWorld Unit),
      failingDisk.getActivePolicy otherBundle.key olderFiles = (.ok bundle, w') ∧
        bundle.version = lit "0") ∧
    ¬ failingDisk.PrefersFetched SmallFloat otherBundle.key none olderFiles := by
  have hfetched : (failingDisk.client.get (F := SmallFloat) otherBundle.key none ()).1.toOption.map
      (fun bundle => (bundle.version,
        (bundle.verify failingDisk.cache.hash failingDisk.cache.signer ()).1.isOk)) =
        some (lit "1", true) := by
    decide +kernel
  have hreturned : (failingDisk.getActivePolicy (F := SmallFloat) otherBundle.key
      olderFiles).1.toOption.map PolicyBundle.version = some (lit "0") := by
    decide +kernel
  obtain ⟨bundle, o, hget, hpair⟩ := PyM.exists_of_map_eq_some hfetched
  obtain ⟨hversion, hverified⟩ := Prod.mk.inj hpair
  obtain ⟨u, o', hverify⟩ := PyM.exists_of_isOk hverified
  obtain ⟨older, w', hgot, holder⟩ := PyM.exists_of_map_eq_some hreturned
  have hobtains : failingDisk.Obtains otherBundle.key none olderFiles bundle :=
    ⟨o', o, hget, hverify⟩
  refine ⟨⟨bundle, hobtains, hversion⟩, ⟨older, w', hgot, holder⟩, fun hprefers => ?_⟩
  have hsame := hprefers.fetched bundle hobtains
  replace hsame : (failingDisk.getActivePolicy otherBundle.key olderFiles).1 = .ok bundle := hsame
  rw [hgot] at hsame
  cases hsame
  rw [hversion] at holder
  exact absurd holder (by decide)

end CachedControlPlaneClient

end AgentRoi
