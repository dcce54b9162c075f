/-
The digests of a call bind the JSON form of its arguments.

SHA-256 is assumed to have no collision among the texts that are digested.

* `digestValue_eq_iff_form` — then two digests are equal exactly when the
  values have one JSON form;
* `ContextConfig.actionDigest_eq_iff`, `ContextConfig.argumentsDigest_eq_iff` —
  the digests of two calls of one tool;
* `IdempotencyStore.begin_other` — `begin` answers from no record of another
  digest;
* `ContextConfig.payload_binding` — approval grants and idempotency records are
  bound to the form of the arguments, and among plain values to the arguments.

Values of other kinds may share a form with something else, so the digests do
not tell the `Decimal` 1.5 from the string `"1.5"` (`decimal_digests`).
-/
import AgentRoi.CanonicalJson
import AgentRoi.PayloadForms
import AgentRoi.ToolRuns

namespace AgentRoi

variable {F W C J : Type}

/-- No two texts of the values are digested to one string. -/
def Sha256.CollisionFree [PyFloat F] (H : Sha256) (vs : Set (PyVal F)) : Prop :=
  Set.InjOn H.hexdigest {m | ∃ v ∈ vs, encodeUtf8 (canonicalJson v) = some m}

section

variable [PyFloat F] {H : Sha256} {vs : Set (PyVal F)} {v w : PyVal F}

theorem digestValue_eq_iff_form (hH : H.CollisionFree vs) (hv : v ∈ vs) (hw : w ∈ vs) {d e : Str}
    (hd : digestValue H v = .ok d) (he : digestValue H w = .ok e) : d = e ↔ v.form = w.form := by
  obtain ⟨m, hm, rfl⟩ := digestValue_eq_ok_iff.mp hd
  obtain ⟨n, hn, rfl⟩ := digestValue_eq_ok_iff.mp he
  constructor
  · intro h
    have hmn : m = n := hH ⟨v, hv, hm⟩ ⟨w, hw, hn⟩ h
    subst hmn
    exact canonicalJson_eq_iff.mp (encodeUtf8_inj hm hn)
  · intro h
    have htext : canonicalJson v = canonicalJson w := canonicalJson_eq_iff.mpr h
    rw [htext, hn] at hm
    rw [Option.some.inj hm]

/-! ### Dictionaries with the same keys -/

/-- Two arrangements of one dictionary with the keys in one order are equal. -/
theorem eq_of_perm_of_keys {κ α : Type} {d d' : List (κ × α)} (hkeys : (d'.map Prod.fst).Nodup)
    (hnames : d.map Prod.fst = d'.map Prod.fst) (h : d.Perm d') : d = d' := by
  refine List.ext_getElem h.length_eq fun n hn hn' => ?_
  have hkey : (d[n]).1 = (d'[n]).1 := by
    have := congrArg (fun l => l[n]?) hnames
    simpa [hn, hn'] using this
  exact List.inj_on_of_nodup_map hkeys (h.mem_iff.mp (List.getElem_mem hn))
    (List.getElem_mem hn') hkey

/-- Dictionaries with the same keys have one form when their values have. -/
theorem PyVal.form_ofFields_eq_iff {d d' : PyDict F} (hkeys : (d'.map Prod.fst).Nodup)
    (hnames : d.map Prod.fst = d'.map Prod.fst) :
    (PyVal.ofFields d).form = (PyVal.ofFields d').form ↔
      d.map (fun p => p.2.form) = d'.map fun p => p.2.form := by
  have hcopy : ∀ d : PyDict F, (d.map fun p => (p.1, p.2.form)).map Prod.fst = d.map Prod.fst := by
    intro d
    rw [List.map_map]
    rfl
  have hforms : ∀ d : PyDict F, (d.map fun p => (p.1, p.2.form)).map Prod.snd =
      d.map fun p => p.2.form := by
    intro d
    rw [List.map_map]
    rfl
  rw [PyVal.ofFields, PyVal.ofFields, PyVal.form_dict (hnames ▸ hkeys), PyVal.form_dict hkeys,
    Json.obj.injEq, ← sortByKey_map_snd, ← sortByKey_map_snd,
    sortByKey_eq_iff_perm (by rw [hcopy, hnames]; exact hkeys)]
  constructor
  · intro h
    rw [← hforms, ← hforms, eq_of_perm_of_keys (by rwa [hcopy]) (by rw [hcopy, hcopy, hnames]) h]
  · intro h
    have hzip : (d.map fun p => (p.1, p.2.form)) = d'.map fun p => (p.1, p.2.form) := by
      rw [← List.zip_map', ← List.zip_map', hnames, h]
    rw [hzip]

end

namespace ContextConfig

section

variable [PyFloat F] (cfg : ContextConfig F W C J)

/-- The action of `_approval_checkpoint`. -/
def action (toolName : Str) (spec : ToolSpec F W C) (p : Payload F) (selectedCost : ℚ) : PyDict F := [
  (lit "tool_name", .str toolName),
  (lit "tool_version", .str spec.version),
  (lit "handler", cfg.callableIdentity spec.handler),
  (lit "risk", .str spec.risk),
  (lit "cost_usd", .float (cfg.costFloat selectedCost)),
  (lit "args", .tuple p.args),
  (lit "kwargs", .ofFields p.kwargs),
  (lit "policy_digest", .str cfg.policyDigest),
  (lit "principal_subject", cfg.principalSubject),
  (lit "organization_id", .str cfg.organizationId),
  (lit "environment", .str cfg.environment),
  (lit "agent_id", .str cfg.agentId)]

omit [PyFloat F] in
/-- What the request digest is of. -/
def requestFields (p : Payload F) : PyDict F :=
  [(lit "args", .tuple p.args), (lit "kwargs", .ofFields p.kwargs)]

/-- The values digested for a call. -/
def digested (toolName : Str) (spec : ToolSpec F W C) (p : Payload F) (selectedCost : ℚ) :
    Set (PyVal F) :=
  {.ofFields (cfg.action toolName spec p selectedCost), .ofFields (requestFields p)}

variable {cfg} {toolName : Str} {spec : ToolSpec F W C} {p q : Payload F} {cost cost' : ℚ}
  {vs : Set (PyVal F)} {d e : Str}

/-- A call's action digest is the digest of its action. -/
theorem actionDigest_eq : cfg.actionDigest toolName spec p.args p.kwargs cost =
    digestValue cfg.hash (.ofFields (cfg.action toolName spec p cost)) := rfl

theorem argumentsDigest_eq : cfg.argumentsDigest p.args p.kwargs =
    digestValue cfg.hash (.ofFields (requestFields p)) := rfl

theorem actionDigest_eq_iff (hH : cfg.hash.CollisionFree vs)
    (hp : .ofFields (cfg.action toolName spec p cost) ∈ vs)
    (hq : .ofFields (cfg.action toolName spec q cost') ∈ vs)
    (hd : cfg.actionDigest toolName spec p.args p.kwargs cost = .ok d)
    (he : cfg.actionDigest toolName spec q.args q.kwargs cost' = .ok e) :
    d = e ↔ p.SameForm q ∧ (PyVal.float (cfg.costFloat cost)).form =
      (PyVal.float (cfg.costFloat cost')).form := by
  rw [actionDigest_eq] at hd he
  rw [digestValue_eq_iff_form hH hp hq hd he, PyVal.form_ofFields_eq_iff]
  · simp only [action, List.map_cons, List.map_nil, List.cons.injEq, and_true, true_and]
    constructor
    · rintro ⟨hcost, hargs, hkwargs⟩
      exact ⟨⟨hargs, hkwargs⟩, hcost⟩
    · rintro ⟨⟨hargs, hkwargs⟩, hcost⟩
      exact ⟨hcost, hargs, hkwargs⟩
  · simp only [action, List.map_cons, List.map_nil]
    decide
  · rfl

theorem argumentsDigest_eq_iff (hH : cfg.hash.CollisionFree vs)
    (hp : .ofFields (requestFields p) ∈ vs) (hq : .ofFields (requestFields q) ∈ vs)
    (hd : cfg.argumentsDigest p.args p.kwargs = .ok d)
    (he : cfg.argumentsDigest q.args q.kwargs = .ok e) : d = e ↔ p.SameForm q := by
  rw [argumentsDigest_eq] at hd he
  rw [digestValue_eq_iff_form hH hp hq hd he, PyVal.form_ofFields_eq_iff]
  · simp only [requestFields, List.map_cons, List.map_nil, List.cons.injEq, and_true]
    exact ⟨fun h => ⟨h.1, h.2⟩, fun h => ⟨h.args, h.kwargs⟩⟩
  · simp only [requestFields, List.map_cons, List.map_nil]
    decide
  · rfl

/-- A checkpoint carries the digest of its action. -/
theorem actionDigest_of_checkpoint {args : List (PyVal F)} {kwargs : PyDict F}
    {s s' : ContextState F W C J} {cp : Checkpoint}
    (h : cfg.approvalCheckpoint toolName spec args kwargs cost s = (.ok cp, s')) :
    cfg.actionDigest toolName spec args kwargs cost = .ok cp.actionDigest := by
  rw [approvalCheckpoint] at h
  obtain ⟨d, hd, h⟩ := PyM.ofExcept_bind_eq_ok.mp h
  obtain ⟨now, t, -, h⟩ := PyM.bind_eq_ok.mp h
  obtain ⟨id, -, h⟩ := PyM.ofExcept_bind_eq_ok.mp h
  obtain ⟨a, -, h⟩ := PyM.ofExcept_bind_eq_ok.mp h
  obtain ⟨created, t', -, h⟩ := PyM.bind_eq_ok.mp h
  cases h
  exact hd

/-! ### The idempotency record -/

variable (cfg) in
/-- What `prepare` hands to the store: the key, the request digest and the
time. -/
def requestOf (policy : IdempotencyPolicy F W) (args : List (PyVal F)) (kwargs : PyDict F) :
    PyM (ContextState F W C J) (Str × Str × Instant) := do
  let text ← ContextState.onWorld (policy.keyFactory args kwargs)
  if strip text = [] then
    .raise (.valueError (lit "Idempotency key factory returned an empty key"))
  else do
    let requestDigest ← PyM.ofExcept (cfg.argumentsDigest args kwargs)
    let now ← ContextState.onWorld cfg.utcNow
    ContextState.onWorld cfg.reachStore
    return (strip text, requestDigest, now)

variable {policy : IdempotencyPolicy F W} {args : List (PyVal F)} {kwargs : PyDict F}
  {s s' : ContextState F W C J} {key : Str} {now : Instant}

/-- `prepare` up to the store, and the store's `begin`. -/
theorem prepareRequest_eq : cfg.prepareRequest policy args kwargs =
    (cfg.requestOf policy args kwargs >>= fun r => do
      let answer ← ContextState.inStore policy.store
        (IdempotencyStore.begin r.2.2 policy.namesp r.1 r.2.1 policy.ttlSeconds)
      return (r.1, answer) : PyM (ContextState F W C J) _) := by
  rw [prepareRequest, requestOf, PyM.bind_assoc]
  congr 1
  funext text
  split_ifs with hblank
  · rfl
  · rw [PyM.bind_assoc]
    congr 1
    funext requestDigest
    rw [PyM.bind_assoc]
    congr 1
    funext now
    rw [PyM.bind_assoc]
    rfl

/-- On the way to the store nothing in it changes, and the digest is that of
the arguments. -/
theorem requestOf_eq_ok (h : cfg.requestOf policy args kwargs s = (.ok (key, d, now), s')) :
    cfg.argumentsDigest args kwargs = .ok d ∧ s'.stores = s.stores := by
  rw [requestOf] at h
  obtain ⟨text, t, ht, h⟩ := PyM.bind_eq_ok.mp h
  split_ifs at h with hblank
  · cases h
  obtain ⟨requestDigest, hdigest, h⟩ := PyM.ofExcept_bind_eq_ok.mp h
  obtain ⟨now', t', ht', h⟩ := PyM.bind_eq_ok.mp h
  obtain ⟨_, t'', ht'', h⟩ := PyM.bind_eq_ok.mp h
  obtain ⟨w, -, rfl⟩ := PyM.on_eq_ok.mp ht
  obtain ⟨w', -, rfl⟩ := PyM.on_eq_ok.mp ht'
  obtain ⟨w'', -, rfl⟩ := PyM.on_eq_ok.mp ht''
  cases h
  exact ⟨hdigest, rfl⟩

end

end ContextConfig

/-- While a record of another digest is there, `begin` on its key raises, and
raises `IdempotencyConflict` if it accepts its arguments. -/
theorem IdempotencyStore.begin_other [PyFloat F] {now : Instant} {namesp key requestDigest : Str}
    {ttlSeconds : Int} {store store' : IdempotencyStore F}
    {r : Except PyExc (IdempotencyResult F)} {entry : Entry F}
    (h : begin now namesp key requestDigest ttlSeconds store = (r, store'))
    (hentry : store.entries (namesp, key) = some entry)
    (hne : entry.requestDigest ≠ requestDigest) :
    (r = .ok .started ∧ entry.Late now ∨ ∃ exc, r = .error exc) ∧
      (¬entry.Late now → Accepts store.driver? now namesp key requestDigest ttlSeconds →
        r = .error idempotencyConflict) := by
  have hstep := (begin_step h).2
  generalize store'.entries = entries' at hstep
  refine ⟨?_, fun hlive haccepts => ?_⟩
  · cases hstep with
    | refused exc => exact .inr ⟨exc, rfl⟩
    | conflict => exact .inr ⟨_, rfl⟩
    | answered _ he _ hsame =>
      rw [hentry] at he
      cases he
      exact absurd hsame hne
    | started hswept hnone =>
      refine .inl ⟨rfl, ?_⟩
      by_contra hlive
      rw [hswept.kept hentry hlive] at hnone
      cases hnone
  · rw [(hstep.answer_of_live hentry hlive).1 haccepts, if_pos hne]

namespace ContextConfig

variable [PyFloat F] {cfg : ContextConfig F W C J}

/-- A request whose key has a record of other arguments. -/
theorem prepareRequest_other {policy : IdempotencyPolicy F W} {args : List (PyVal F)}
    {kwargs : PyDict F} {s s' : ContextState F W C J} {key d : Str} {now : Instant}
    {entry : Entry F} (hrequest : cfg.requestOf policy args kwargs s = (.ok (key, d, now), s'))
    (hentry : (s.stores policy.store).entries (policy.namesp, key) = some entry)
    (hne : entry.requestDigest ≠ d) :
    ((cfg.prepareRequest policy args kwargs s).1 = .ok (key, .started) ∧ entry.Late now ∨
        ∃ exc, (cfg.prepareRequest policy args kwargs s).1 = .error exc) ∧
      (¬entry.Late now → IdempotencyStore.Accepts (s.stores policy.store).driver? now
          policy.namesp key d policy.ttlSeconds →
        (cfg.prepareRequest policy args kwargs s).1 = .error idempotencyConflict) := by
  obtain ⟨-, hstores⟩ := requestOf_eq_ok hrequest
  rcases hbegin : IdempotencyStore.begin now policy.namesp key d policy.ttlSeconds
    (s'.stores policy.store) with ⟨r, store'⟩
  obtain ⟨hends, hconflict⟩ :=
    IdempotencyStore.begin_other hbegin (by rwa [hstores]) hne
  rw [hstores] at hconflict
  have hresult : (cfg.prepareRequest policy args kwargs s).1 = r.map fun answer => (key, answer) := by
    rw [prepareRequest_eq, PyM.bind_of_ok hrequest]
    have hin : ContextState.inStore policy.store
        (IdempotencyStore.begin now policy.namesp key d policy.ttlSeconds) s' =
          (r, { s' with stores := Function.update s'.stores policy.store store' }) := by
      rw [ContextState.inStore, PyM.on, hbegin]
    rcases r with exc | answer
    · rw [PyM.bind_of_error hin]
      rfl
    · rw [PyM.bind_of_ok hin]
      rfl
  rw [hresult]
  refine ⟨?_, fun hlive haccepts => ?_⟩
  · rcases hends with ⟨rfl, hlate⟩ | ⟨exc, rfl⟩
    · exact .inl ⟨rfl, hlate⟩
    · exact .inr ⟨exc, rfl⟩
  · rw [hconflict hlive haccepts]
    rfl

/-- Digests bind the JSON form of the arguments.  Of two calls of a tool in one
context,

* the action digests are equal exactly when the arguments have one form and the
  calls one cost, and the request digests when the arguments have one form;
* the forms are equal, if all arguments are plain, exactly when the arguments
  are;
* a grant that is valid for a checkpoint of one call is valid for none of the
  other, if the forms differ;
* the idempotency record of one call does not answer the other, if the forms
  differ: until it expires the other is rejected, with `IdempotencyConflict`
  where the store accepts the request at all. -/
theorem payload_binding (cfg : ContextConfig F W C J) (toolName : Str) (spec : ToolSpec F W C)
    (p q : Payload F) (cost cost' : ℚ)
    (hH : cfg.hash.CollisionFree
      (cfg.digested toolName spec p cost ∪ cfg.digested toolName spec q cost')) :
    (∀ d e, cfg.actionDigest toolName spec p.args p.kwargs cost = .ok d →
      cfg.actionDigest toolName spec q.args q.kwargs cost' = .ok e →
      (d = e ↔ p.SameForm q ∧ (PyVal.float (cfg.costFloat cost)).form =
        (PyVal.float (cfg.costFloat cost')).form)) ∧
    (∀ d e, cfg.argumentsDigest p.args p.kwargs = .ok d →
      cfg.argumentsDigest q.args q.kwargs = .ok e → (d = e ↔ p.SameForm q)) ∧
    (p.Plain → q.Plain → (p.SameForm q ↔ p.Alike q)) ∧
    (¬p.SameForm q →
      (∀ (s s' t t' : ContextState F W C J) (cp cq : Checkpoint),
        cfg.approvalCheckpoint toolName spec p.args p.kwargs cost s = (.ok cp, s') →
        cfg.approvalCheckpoint toolName spec q.args q.kwargs cost' t = (.ok cq, t') →
        ∀ (grant : ApprovalGrant) (now now' : Int), grant.validate cp now = .ok () →
          grant.validate cq now' ≠ .ok ()) ∧
      ∀ (policy : IdempotencyPolicy F W) (s s' : ContextState F W C J) (key d : Str)
        (now : Instant) (entry : Entry F),
        cfg.requestOf policy q.args q.kwargs s = (.ok (key, d, now), s') →
        (s.stores policy.store).entries (policy.namesp, key) = some entry →
        cfg.argumentsDigest p.args p.kwargs = .ok entry.requestDigest →
        ((cfg.prepareRequest policy q.args q.kwargs s).1 = .ok (key, .started) ∧
            entry.Late now ∨
          ∃ exc, (cfg.prepareRequest policy q.args q.kwargs s).1 = .error exc) ∧
        (¬entry.Late now → IdempotencyStore.Accepts (s.stores policy.store).driver? now
            policy.namesp key d policy.ttlSeconds →
          (cfg.prepareRequest policy q.args q.kwargs s).1 = .error idempotencyConflict)) := by
  have hactionP : .ofFields (cfg.action toolName spec p cost) ∈
      cfg.digested toolName spec p cost ∪ cfg.digested toolName spec q cost' := .inl (.inl rfl)
  have hactionQ : .ofFields (cfg.action toolName spec q cost') ∈
      cfg.digested toolName spec p cost ∪ cfg.digested toolName spec q cost' := .inr (.inl rfl)
  have hrequestP : .ofFields (requestFields p) ∈
      cfg.digested toolName spec p cost ∪ cfg.digested toolName spec q cost' := .inl (.inr rfl)
  have hrequestQ : .ofFields (requestFields q) ∈
      cfg.digested toolName spec p cost ∪ cfg.digested toolName spec q cost' := .inr (.inr rfl)
  refine ⟨fun d e hd he => actionDigest_eq_iff hH hactionP hactionQ hd he,
    fun d e hd he => argumentsDigest_eq_iff hH hrequestP hrequestQ hd he,
    Payload.sameForm_iff, fun hforms => ⟨?_, ?_⟩⟩
  · intro s s' t t' cp cq hcp hcq grant now now' hvalid hvalid'
    -- a valid grant carries the action digest of its checkpoint
    have hp := (ApprovalGrant.validate_eq_ok_iff.mp hvalid).1
    have hq := (ApprovalGrant.validate_eq_ok_iff.mp hvalid').1
    exact hforms ((actionDigest_eq_iff hH hactionP hactionQ (actionDigest_of_checkpoint hcp)
      (actionDigest_of_checkpoint hcq)).mp (hp.symm.trans hq)).1
  · intro policy s s' key d now entry hrequest hentry hdigest
    refine prepareRequest_other hrequest hentry fun hsame => hforms ?_
    exact (argumentsDigest_eq_iff hH hrequestP hrequestQ hdigest
      (requestOf_eq_ok hrequest).1).mp hsame

end ContextConfig

/-! ### Calls of one tool with a decimal and with strings -/

/-- SHA-256 on the texts of the calls below, which differ at the places looked
at. -/
def payloadDigest (m : List UInt8) : Str :=
  if m[10]? = some 49 then lit "c59b81aaee1dc008d6a9286b7ad637e23ff7db8ddd0a76a3a318d58f4114ed08"
  else if m[10]? = some 50 then
    lit "065814d34237255ea626ab7bd1c12ea68463f95d72d9595aa180b739ee922f13"
  else if m[25]? = some 49 then
    lit "3db56603c07989366e20984ec14ea3c389855f91091f58a1b43160d510df409b"
  else lit "675664481c630a05c211a43393d1f8413cbeda7f85ee5ff56ccf9c8c27351eb9"

theorem length_payloadDigest (m : List UInt8) : (payloadDigest m).length = 64 := by
  rw [payloadDigest]
  split_ifs <;> decide

theorem payloadDigest_hex (m : List UInt8) :
    ∀ c ∈ payloadDigest m, (48 ≤ c ∧ c ≤ 57) ∨ (97 ≤ c ∧ c ≤ 102) := by
  rw [payloadDigest]
  split_ifs <;> decide

def sampleSha256 : Sha256 := ⟨payloadDigest, length_payloadDigest, payloadDigest_hex⟩

/-- `payContext` with that hash function. -/
def digestContext : ContextConfig Half Unit Bool Unit := { payContext with hash := sampleSha256 }

/-- The payload of one argument. -/
def Payload.single (v : PyVal Half) : Payload Half := ⟨[v], []⟩

/-- What is digested of a call with one argument. -/
def digestedOf (v : PyVal Half) : Set (PyVal Half) :=
  digestContext.digested (lit "pay") payTool (.single v) 1

theorem digests_of_decimal :
    digestContext.actionDigest (lit "pay") payTool [.decimal (lit "1.5")] [] 1 =
        .ok (lit "3db56603c07989366e20984ec14ea3c389855f91091f58a1b43160d510df409b") ∧
      digestContext.argumentsDigest [.decimal (lit "1.5")] [] =
        .ok (lit "c59b81aaee1dc008d6a9286b7ad637e23ff7db8ddd0a76a3a318d58f4114ed08") := by
  decide +kernel

theorem digests_of_string :
    digestContext.actionDigest (lit "pay") payTool [.str (lit "2.5")] [] 1 =
        .ok (lit "675664481c630a05c211a43393d1f8413cbeda7f85ee5ff56ccf9c8c27351eb9") ∧
      digestContext.argumentsDigest [.str (lit "2.5")] [] =
        .ok (lit "065814d34237255ea626ab7bd1c12ea68463f95d72d9595aa180b739ee922f13") := by
  decide +kernel

/-- Values whose digests are pairwise different have no collision. -/
theorem collisionFree_of_digests {F : Type} [PyFloat F] {H : Sha256} {vs : Set (PyVal F)}
    (h : ∀ v ∈ vs, ∀ w ∈ vs, digestValue H v = digestValue H w →
      canonicalJson v = canonicalJson w) : H.CollisionFree vs := by
  rintro m ⟨v, hv, hm⟩ n ⟨w, hw, hn⟩ hmn
  have hdigests : digestValue H v = digestValue H w := by
    simp only [digestValue, hm, hn, hmn]
  rw [h v hv w hw hdigests, hn] at hm
  exact (Option.some.inj hm).symm

/-- What is digested of the calls with one of two arguments. -/
def digestedValues (v w : PyVal Half) : List (PyVal Half) :=
  [v, w].flatMap fun v =>
    [.ofFields (digestContext.action (lit "pay") payTool (.single v) 1),
      .ofFields (ContextConfig.requestFields (.single v))]

theorem mem_digestedValues {v w x : PyVal Half} (h : x ∈ digestedOf v ∪ digestedOf w) :
    x ∈ digestedValues v w := by
  rcases h with (rfl | rfl) | (rfl | rfl)
  · exact .head _
  · exact .tail _ (.head _)
  · exact .tail _ (.tail _ (.head _))
  · exact .tail _ (.tail _ (.tail _ (.head _)))

theorem collisionFree_of_texts {v w : PyVal Half}
    (h : ∀ x ∈ digestedValues v w, ∀ y ∈ digestedValues v w,
      digestValue sampleSha256 x = digestValue sampleSha256 y →
        canonicalJson x = canonicalJson y) :
    digestContext.hash.CollisionFree (digestedOf v ∪ digestedOf w) :=
  collisionFree_of_digests fun x hx y hy hxy =>
    h x (mem_digestedValues hx) y (mem_digestedValues hy) hxy

/-- The calls with the decimal 1.5 and with the string "2.5" have other
digests, and no grant is valid for both. -/
theorem payload_binding_sample :
    ¬(Payload.single (.decimal (lit "1.5"))).SameForm (.single (.str (lit "2.5"))) ∧
      ∀ (s s' t t' : ContextState Half Unit Bool Unit) (cp cq : Checkpoint),
        digestContext.approvalCheckpoint (lit "pay") payTool [.decimal (lit "1.5")] [] 1 s =
          (.ok cp, s') →
        digestContext.approvalCheckpoint (lit "pay") payTool [.str (lit "2.5")] [] 1 t =
          (.ok cq, t') →
        ∀ (grant : ApprovalGrant) (now now' : Int), grant.validate cp now = .ok () →
          grant.validate cq now' ≠ .ok () := by
  have hcollision : digestContext.hash.CollisionFree
      (digestedOf (.decimal (lit "1.5")) ∪ digestedOf (.str (lit "2.5"))) :=
    collisionFree_of_texts (by decide +kernel)
  obtain ⟨-, hrequests, -, hother⟩ := digestContext.payload_binding (lit "pay") payTool
    (.single (.decimal (lit "1.5"))) (.single (.str (lit "2.5"))) 1 1 hcollision
  have hforms : ¬(Payload.single (.decimal (lit "1.5"))).SameForm (.single (.str (lit "2.5"))) :=
    fun h => absurd ((hrequests _ _ digests_of_decimal.2 digests_of_string.2).mpr h) (by decide)
  exact ⟨hforms, (hother hforms).1⟩

/-! The decimal 1.5 and the string "1.5" have one form. -/

theorem decimalDigest_hex : isSha256Hex
    (lit "3db56603c07989366e20984ec14ea3c389855f91091f58a1b43160d510df409b") = true := by
  decide

theorem approver_ne_nil : lit "bob" ≠ [] := by decide

theorem strip_approver : strip (lit "bob") = lit "bob" := by decide

/-- A grant for the payment of the decimal. -/
def decimalGrant : ApprovalGrant where
  actionDigest := lit "3db56603c07989366e20984ec14ea3c389855f91091f58a1b43160d510df409b"
  approvedBy := lit "bob"
  expiresAtEpochMs := 900000
  checkpointId := none
  reason := []
  digest_hex := decimalDigest_hex
  approvedBy_ne := approver_ne_nil
  approvedBy_strip := strip_approver

theorem namesp_of_paymentPolicy : isBlank (lit "n") = false := by decide

/-- Every payment has the key `k`. -/
def paymentPolicy : IdempotencyPolicy Half Unit where
  store := 0
  namesp := lit "n"
  keyFactory := fun _ _ => pure (lit "k")
  ttlSeconds := 1
  namesp_not_blank := namesp_of_paymentPolicy
  ttlSeconds_pos := one_second_accepted

/-- A payment of the decimal was answered with 1. -/
def decimalPaid : ContextState Half Unit Bool Unit :=
  (digestContext.completeRequest paymentPolicy (lit "k") (.int 1)
    (digestContext.prepareRequest paymentPolicy [.decimal (lit "1.5")] [] newContextState).2).2

/-- The store has an outcome for the request. -/
def IdempotencyResult.isCompleted : IdempotencyResult F → Bool
  | .completed _ => true
  | _ => false

/-- The decimal and the string are different arguments with one action digest
and one request digest, though their texts have no collision: the grant for one
is valid for the other, and the record of one answers the other. -/
theorem decimal_string_counterexample :
    digestContext.hash.CollisionFree
        (digestedOf (.decimal (lit "1.5")) ∪ digestedOf (.str (lit "1.5"))) ∧
      (PyVal.decimal (lit "1.5") : PyVal Half) ≠ .str (lit "1.5") ∧
      digestContext.actionDigest (lit "pay") payTool [.decimal (lit "1.5")] [] 1 =
        .ok decimalGrant.actionDigest ∧
      digestContext.actionDigest (lit "pay") payTool [.str (lit "1.5")] [] 1 =
        .ok decimalGrant.actionDigest ∧
      digestContext.argumentsDigest [.decimal (lit "1.5")] [] =
        digestContext.argumentsDigest [.str (lit "1.5")] [] ∧
      (∀ (s s' : ContextState Half Unit Bool Unit) (cp : Checkpoint),
        digestContext.approvalCheckpoint (lit "pay") payTool [.str (lit "1.5")] [] 1 s =
          (.ok cp, s') → decimalGrant.validate cp 0 = .ok ()) ∧
      (digestContext.prepareRequest paymentPolicy [.str (lit "1.5")] [] decimalPaid).1.toOption.any
        (fun r => r.2.isCompleted) = true := by
  have haction : digestContext.actionDigest (lit "pay") payTool [.str (lit "1.5")] [] 1 =
      .ok decimalGrant.actionDigest := by decide +kernel
  have hrequest : digestContext.argumentsDigest [.decimal (lit "1.5")] [] =
      digestContext.argumentsDigest [.str (lit "1.5")] [] := by decide +kernel
  have hne : (PyVal.decimal (lit "1.5") : PyVal Half) ≠ .str (lit "1.5") := by
    intro h
    cases h
  refine ⟨collisionFree_of_texts (by decide +kernel), hne, digests_of_decimal.1, haction,
    hrequest, ?_, by decide +kernel⟩
  intro s s' cp h
  have hcp := ContextConfig.actionDigest_of_checkpoint h
  rw [haction] at hcp
  refine ApprovalGrant.validate_eq_ok_iff.mpr ⟨Except.ok.inj hcp, fun c hc => ?_, by decide⟩
  cases hc

end AgentRoi
