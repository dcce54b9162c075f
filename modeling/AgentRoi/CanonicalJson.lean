/-
What the canonical text of a value depends on.

* `canonicalJson_fixpoint` — reading the text back and printing it again
  changes nothing;
* `Reordered` — two values that differ only in the order of their mappings and
  of their sets, at any depth;
* `Reordered.toJsonable_eq` — they have one converted form;
* `same_digests_of_reordered` — and so one text, one digest, one checkpoint and
  one idempotency record.
-/
import AgentRoi.IdempotencyRuns
import AgentRoi.PolicyService
import AgentRoi.ToolCalls

namespace AgentRoi

variable {F W C J : Type}

section

variable [PyFloat F]

/-- The text of a value that was read from a canonical text is that text, and
so is the digest. -/
theorem canonicalJson_fixpoint (H : Sha256) (v : PyVal F) :
    ∃ j : Json F, Json.loads (canonicalJson v) = some j ∧
      canonicalJson (PyVal.ofJson j) = canonicalJson v ∧
      digestValue H (PyVal.ofJson j) = digestValue H v := by
  have hloads := loads_canonicalJson v
  have htext := canonicalJson_loads hloads
  exact ⟨_, hloads, htext, digestValue_congr htext⟩

end

/-- The two values differ only in the insertion order of mappings and in the
iteration order of sets. -/
inductive Reordered : PyVal F → PyVal F → Prop
  | none : Reordered .none .none
  | bool (b : Bool) : Reordered (.bool b) (.bool b)
  | int (i : Int) : Reordered (.int i) (.int i)
  | float (f : F) : Reordered (.float (.finite f)) (.float (.finite f))
  | str (s : Str) : Reordered (.str s) (.str s)
  | bytes (bs : List UInt8) : Reordered (.bytes bs) (.bytes bs)
  | decimal (text : Str) : Reordered (.decimal text) (.decimal text)
  | list (ps : List (PyVal F × PyVal F)) (h : ∀ p ∈ ps, Reordered p.1 p.2) :
      Reordered (.list (ps.map Prod.fst)) (.list (ps.map Prod.snd))
  | tuple (ps : List (PyVal F × PyVal F)) (h : ∀ p ∈ ps, Reordered p.1 p.2) :
      Reordered (.tuple (ps.map Prod.fst)) (.tuple (ps.map Prod.snd))
  | set (ps : List (PyVal F × PyVal F)) {xs ys : List (PyVal F)}
      (h : ∀ p ∈ ps, Reordered p.1 p.2) (hxs : xs.Perm (ps.map Prod.fst))
      (hys : ys.Perm (ps.map Prod.snd)) : Reordered (.set xs) (.set ys)
  | frozenset (ps : List (PyVal F × PyVal F)) {xs ys : List (PyVal F)}
      (h : ∀ p ∈ ps, Reordered p.1 p.2) (hxs : xs.Perm (ps.map Prod.fst))
      (hys : ys.Perm (ps.map Prod.snd)) : Reordered (.frozenset xs) (.frozenset ys)
  | dict (ps : List (Str × PyVal F × PyVal F)) {items items' : List (PyKey F × PyVal F)}
      (hkeys : (ps.map Prod.fst).Nodup) (h : ∀ p ∈ ps, Reordered p.2.1 p.2.2)
      (hitems : items.Perm (ps.map fun p => (.str p.1, p.2.1)))
      (hitems' : items'.Perm (ps.map fun p => (.str p.1, p.2.2))) :
      Reordered (.dict items) (.dict items')
  | mapping (ps : List (Str × PyVal F × PyVal F)) {items items' : List (PyKey F × PyVal F)}
      (hkeys : (ps.map Prod.fst).Nodup) (h : ∀ p ∈ ps, Reordered p.2.1 p.2.2)
      (hitems : items.Perm (ps.map fun p => (.str p.1, p.2.1)))
      (hitems' : items'.Perm (ps.map fun p => (.str p.1, p.2.2))) :
      Reordered (.mapping items) (.mapping items')

/-! ### One converted form -/

section

variable [PyFloat F] {v w : PyVal F}

/-- The keys of every object in it are sorted. -/
def Json.KeysSorted (j : Json F) : Prop := j.sortKeys = j

theorem keysSorted_bytes (bs : List UInt8) : (toJsonable (.bytes bs : PyVal F)).KeysSorted := by
  rw [Json.KeysSorted, toJsonable, Json.sortKeys_obj]
  rfl

omit [PyFloat F] in
theorem keysSorted_arr {xs : List (Json F)} (h : ∀ x ∈ xs, x.KeysSorted) :
    (Json.arr xs).KeysSorted := by
  rw [Json.KeysSorted, Json.sortKeys_arr]
  exact congrArg _ ((List.map_congr_left h).trans (List.map_id _))

omit [PyFloat F] in
/-- A sorted dictionary of sorted values. -/
theorem keysSorted_obj {kvs : List (Str × Json F)} (h : ∀ p ∈ kvs, p.2.KeysSorted) :
    (Json.obj (sortByKey kvs)).KeysSorted := by
  rw [Json.KeysSorted, Json.sortKeys_obj, sortByKey_sortByKey]
  refine congrArg _ ((List.map_congr_left fun p hp => ?_).trans (List.map_id _))
  exact Prod.ext rfl (h p (mem_sortByKey.mp hp))

/-- Sorting by the text forgets the order: elements with one text are equal
once their keys are sorted. -/
theorem sortByText_eq_of_perm {xs ys : List (Json F)} (hclean : ∀ x ∈ xs, x.Clean)
    (hsorted : ∀ x ∈ xs, x.KeysSorted) (h : xs.Perm ys) : sortByText xs = sortByText ys := by
  have hperm : (sortByText xs).Perm (sortByText ys) :=
    (List.perm_insertionSort _ xs).trans (h.trans (List.perm_insertionSort _ ys).symm)
  have hmem : ∀ {x}, x ∈ sortByText xs → x ∈ xs := (List.mem_insertionSort _).mp
  refine hperm.eq_of_pairwise (fun a b ha hb hab hba => ?_) (List.pairwise_insertionSort _ _)
    (List.pairwise_insertionSort _ _)
  have ha := hmem ha
  have hb := h.mem_iff.mpr ((List.mem_insertionSort _).mp hb)
  have htext : a.sortKeys.render = b.sortKeys.render := le_antisymm hab hba
  have heq := Json.render_inj (hclean a ha).sortKeys (hclean b hb).sortKeys htext
  rwa [hsorted a ha, hsorted b hb] at heq

/-- The converted elements of two sets that list the same elements. -/
theorem sortByText_reordered {ps : List (PyVal F × PyVal F)} {xs ys : List (PyVal F)}
    (hsame : ∀ p ∈ ps, toJsonable p.1 = toJsonable p.2 ∧ (toJsonable p.1).KeysSorted)
    (hxs : xs.Perm (ps.map Prod.fst)) (hys : ys.Perm (ps.map Prod.snd)) :
    sortByText (toJsonableAll xs) = sortByText (toJsonableAll ys) ∧
      (Json.arr (sortByText (toJsonableAll xs))).KeysSorted := by
  have hperm : (toJsonableAll xs).Perm (toJsonableAll ys) := by
    rw [toJsonableAll_eq_map, toJsonableAll_eq_map]
    refine (hxs.map _).trans (List.Perm.trans ?_ (hys.map _).symm)
    rw [List.map_map, List.map_map]
    exact List.Perm.of_eq (List.map_congr_left fun p hp => (hsame p hp).1)
  have hmem : ∀ j ∈ toJsonableAll xs, ∃ p ∈ ps, j = toJsonable p.1 := by
    intro j hj
    rw [toJsonableAll_eq_map] at hj
    obtain ⟨v, hv, rfl⟩ := List.mem_map.mp hj
    obtain ⟨p, hp, rfl⟩ := List.mem_map.mp (hxs.mem_iff.mp hv)
    exact ⟨p, hp, rfl⟩
  have hsorted : ∀ j ∈ toJsonableAll xs, j.KeysSorted := by
    intro j hj
    obtain ⟨p, hp, rfl⟩ := hmem j hj
    exact (hsame p hp).2
  refine ⟨sortByText_eq_of_perm (fun j hj => ?_) hsorted hperm, keysSorted_arr fun j hj =>
    hsorted j ((List.mem_insertionSort _).mp hj)⟩
  obtain ⟨p, hp, rfl⟩ := hmem j hj
  exact toJsonable_clean _

/-- The converted elements of two lists. -/
theorem toJsonableAll_reordered {ps : List (PyVal F × PyVal F)}
    (hsame : ∀ p ∈ ps, toJsonable p.1 = toJsonable p.2 ∧ (toJsonable p.1).KeysSorted) :
    toJsonableAll (ps.map Prod.fst) = toJsonableAll (ps.map Prod.snd) ∧
      (Json.arr (toJsonableAll (ps.map Prod.fst))).KeysSorted := by
  rw [toJsonableAll_eq_map, toJsonableAll_eq_map, List.map_map, List.map_map]
  refine ⟨List.map_congr_left fun p hp => (hsame p hp).1, keysSorted_arr fun j hj => ?_⟩
  obtain ⟨p, hp, rfl⟩ := List.mem_map.mp hj
  exact (hsame p hp).2

/-- The converted entries of two mappings that hold the same entries. -/
theorem sortByKey_reordered {ps : List (Str × PyVal F × PyVal F)}
    {items items' : List (PyKey F × PyVal F)} (hkeys : (ps.map Prod.fst).Nodup)
    (hsame : ∀ p ∈ ps, toJsonable p.2.1 = toJsonable p.2.2 ∧ (toJsonable p.2.1).KeysSorted)
    (hitems : items.Perm (ps.map fun p => (.str p.1, p.2.1)))
    (hitems' : items'.Perm (ps.map fun p => (.str p.1, p.2.2))) :
    dictOf (sortByKey (toJsonableItems items)) = dictOf (sortByKey (toJsonableItems items')) ∧
      (Json.obj (dictOf (sortByKey (toJsonableItems items)))).KeysSorted := by
  -- the converted entries are those of the pairs, in some order
  have hfirst : (toJsonableItems items).Perm (ps.map fun p => (p.1, toJsonable p.2.1)) := by
    rw [toJsonableItems_eq_map]
    exact (hitems.map _).trans (List.Perm.of_eq (by rw [List.map_map]; rfl))
  have hsecond : (toJsonableItems items').Perm (ps.map fun p => (p.1, toJsonable p.2.1)) := by
    rw [toJsonableItems_eq_map]
    refine (hitems'.map _).trans (List.Perm.of_eq ?_)
    rw [List.map_map]
    exact List.map_congr_left fun p hp => Prod.ext rfl (hsame p hp).1.symm
  have hnodup : ((toJsonableItems items).map Prod.fst).Nodup := by
    refine (hfirst.map Prod.fst).nodup_iff.mpr ?_
    rwa [List.map_map]
  have hdict : dictOf (sortByKey (toJsonableItems items)) = sortByKey (toJsonableItems items) :=
    dictOf_of_nodup (nodup_keys_sortByKey.mpr hnodup)
  refine ⟨by rw [sortByKey_eq_of_perm hnodup (hfirst.trans hsecond.symm)], ?_⟩
  rw [hdict]
  refine keysSorted_obj fun q hq => ?_
  obtain ⟨p, hp, rfl⟩ := List.mem_map.mp (hfirst.mem_iff.mp hq)
  exact (hsame p hp).2

/-- Reordering changes nothing in the converted form, in which every key has
its place already; by induction on the reordering. -/
theorem Reordered.toJsonable_eq_and (h : Reordered v w) :
    toJsonable v = toJsonable w ∧ (toJsonable v).KeysSorted := by
  induction h with
  | bytes bs => exact ⟨rfl, keysSorted_bytes bs⟩
  | list ps _ ih | tuple ps _ ih =>
    obtain ⟨heq, hsorted⟩ := toJsonableAll_reordered ih
    exact ⟨by rw [toJsonable, toJsonable, heq], by rwa [toJsonable]⟩
  | set ps _ hxs hys ih | frozenset ps _ hxs hys ih =>
    obtain ⟨heq, hsorted⟩ := sortByText_reordered ih hxs hys
    exact ⟨by rw [toJsonable, toJsonable, heq], by rwa [toJsonable]⟩
  | dict ps hkeys _ hitems hitems' ih | mapping ps hkeys _ hitems hitems' ih =>
    obtain ⟨heq, hsorted⟩ := sortByKey_reordered hkeys ih hitems hitems'
    exact ⟨by rw [toJsonable, toJsonable, heq], by rwa [toJsonable]⟩
  | _ => exact ⟨rfl, rfl⟩

theorem Reordered.toJsonable_eq (h : Reordered v w) : toJsonable v = toJsonable w :=
  h.toJsonable_eq_and.1

theorem Reordered.canonicalJson_eq (h : Reordered v w) : canonicalJson v = canonicalJson w := by
  rw [canonicalJson, canonicalJson, h.toJsonable_eq]

/-! ### What is digested -/

variable {cfg : ContextConfig F W C J} {args args' : List (PyVal F)} {kwargs kwargs' : PyDict F}

/-- A dictionary of fields is converted field by field. -/
theorem canonicalJson_of_map_eq {d d' : PyDict F}
    (h : d.map (fun p => (p.1, toJsonable p.2)) = d'.map fun p => (p.1, toJsonable p.2)) :
    canonicalJson (.ofFields d) = canonicalJson (.ofFields d') := by
  have hitems : ∀ d : PyDict F, toJsonableItems (d.map fun p => (.str p.1, p.2)) =
      d.map fun p => (p.1, toJsonable p.2) := by
    intro d
    rw [toJsonableItems_eq_map, List.map_map]
    rfl
  rw [canonicalJson, canonicalJson, PyVal.ofFields, PyVal.ofFields, toJsonable, toJsonable,
    hitems, hitems, h]

theorem ContextConfig.argumentsDigest_reordered (hargs : Reordered (.tuple args) (.tuple args'))
    (hkwargs : Reordered (.ofFields kwargs) (.ofFields kwargs')) :
    cfg.argumentsDigest args kwargs = cfg.argumentsDigest args' kwargs' := by
  refine digestValue_congr (canonicalJson_of_map_eq ?_)
  simp only [List.map_cons, List.map_nil, hargs.toJsonable_eq, hkwargs.toJsonable_eq]

theorem ContextConfig.actionDigest_reordered (hargs : Reordered (.tuple args) (.tuple args'))
    (hkwargs : Reordered (.ofFields kwargs) (.ofFields kwargs')) (toolName : Str)
    (spec : ToolSpec F W C) (selectedCost : ℚ) :
    cfg.actionDigest toolName spec args kwargs selectedCost =
      cfg.actionDigest toolName spec args' kwargs' selectedCost := by
  refine digestValue_congr (canonicalJson_of_map_eq ?_)
  simp only [List.map_cons, List.map_nil, hargs.toJsonable_eq, hkwargs.toJsonable_eq]

theorem PolicyBundle.normalized_reordered {policy policy' : List (PyKey F × PyVal F)}
    (h : Reordered (.dict policy) (.dict policy')) : normalized policy = normalized policy' := by
  have heq := h.toJsonable_eq
  rw [toJsonable, toJsonable] at heq
  exact Json.obj.inj heq

end

variable [PyFloatOps F]

/-- Two values that differ only in the order of what has none have one
canonical text and one digest.  So a call with reordered arguments asks for the
same approval and finds the same idempotency record, and a reordered policy has
the same bundle. -/
theorem same_digests_of_reordered (H : Sha256) (cfg : ContextConfig F W C J) :
    (∀ v w : PyVal F, Reordered v w →
      canonicalJson v = canonicalJson w ∧ digestValue H v = digestValue H w) ∧
    (∀ (args args' : List (PyVal F)) (kwargs kwargs' : PyDict F),
      Reordered (.tuple args) (.tuple args') → Reordered (.ofFields kwargs) (.ofFields kwargs') →
      (∀ toolName spec selectedCost,
        cfg.actionDigest toolName spec args kwargs selectedCost =
            cfg.actionDigest toolName spec args' kwargs' selectedCost ∧
          cfg.approvalCheckpoint toolName spec args kwargs selectedCost =
            cfg.approvalCheckpoint toolName spec args' kwargs' selectedCost) ∧
      ∀ policy : IdempotencyPolicy F W,
        policy.keyFactory args kwargs = policy.keyFactory args' kwargs' →
        cfg.prepareRequest policy args kwargs = cfg.prepareRequest policy args' kwargs') ∧
    ∀ policy policy' : List (PyKey F × PyVal F), Reordered (.dict policy) (.dict policy') →
      ∀ (now : PyM W Str) (key : PolicyKey) (version : Str) (signer : PolicySigner W)
        (createdBy : Str), PolicyBundle.create H now key version policy signer createdBy =
          PolicyBundle.create H now key version policy' signer createdBy := by
  refine ⟨fun v w h => ⟨h.canonicalJson_eq, digestValue_congr h.canonicalJson_eq⟩, ?_, ?_⟩
  · intro args args' kwargs kwargs' hargs hkwargs
    have hdigest : cfg.argumentsDigest args kwargs = cfg.argumentsDigest args' kwargs' :=
      cfg.argumentsDigest_reordered hargs hkwargs
    refine ⟨fun toolName spec selectedCost => ?_, fun policy hkey => ?_⟩
    · have haction := cfg.actionDigest_reordered hargs hkwargs toolName spec selectedCost
      refine ⟨haction, ?_⟩
      rw [ContextConfig.approvalCheckpoint, ContextConfig.approvalCheckpoint, haction, hdigest]
    · rw [ContextConfig.prepareRequest, ContextConfig.prepareRequest, hkey, hdigest]
  · intro policy policy' h now key version signer createdBy
    rw [PolicyBundle.create, PolicyBundle.create, PolicyBundle.normalized_reordered h]

/-! A call that is tried again, its arguments in another order. -/

def firstOrder : List (PyKey SmallFloat × PyVal SmallFloat) :=
  [(.str (lit "ids"), .set [.int 1, .str (lit "x")]), (.str (lit "note"), .none)]

def secondOrder : List (PyKey SmallFloat × PyVal SmallFloat) :=
  [(.str (lit "note"), .none), (.str (lit "ids"), .set [.str (lit "x"), .int 1])]

theorem reordered_orders : Reordered (.dict firstOrder) (.dict secondOrder) := by
  refine .dict [(lit "ids", .set [.int 1, .str (lit "x")], .set [.str (lit "x"), .int 1]),
    (lit "note", .none, .none)] (by decide) ?_ (.refl _) (.swap _ _ _)
  simp only [List.forall_mem_cons, List.not_mem_nil, IsEmpty.forall_iff, implies_true, and_true]
  refine ⟨.set [(.int 1, .int 1), (.str (lit "x"), .str (lit "x"))] ?_ (.refl _) (.swap _ _ _),
    .none⟩
  simp only [List.forall_mem_cons, List.not_mem_nil, IsEmpty.forall_iff, implies_true, and_true]
  exact ⟨.int 1, .str (lit "x")⟩

/-- A context with neither tools nor rules. -/
def bareContext : ContextConfig SmallFloat Unit Unit Unit where
  hash := default
  callables := {
    module := fun _ => .none
    qualname := fun _ => .none
    isCoroutineFunction := fun _ => false
    call := fun _ _ _ => pure ⟨.none, lit "NoneType", false⟩ }
  asyncio := ⟨fun _ p => p, fun p => p, id⟩
  guardrails := none
  toolRegistry := none
  approvalCallback := none
  auditEmitter := none
  principal := none
  authorizer := none
  correlationId := lit "c"
  runId := lit "r"
  startedAtEpochMs := 0
  metadata := []
  policyDigest := []
  organizationId := []
  environment := []
  agentId := []
  clockMs := pure 0
  perfCounter := fun w => (0, w)
  utcNow := pure IdempotencyStore.firstInstant
  sleep := fun _ => pure ()
  asyncSleep := fun _ => pure ()
  close := pure ()
  reachStore := pure ()
  costFloat := fun _ => .nan

/-- The shortest lifetime a policy accepts. -/
theorem one_second_accepted : (1 : ℕ) ≤ 1 := le_rfl

def retryPolicy : IdempotencyPolicy SmallFloat Unit where
  store := 0
  namesp := lit "n"
  keyFactory := fun _ _ => pure (lit "k")
  ttlSeconds := 1
  namesp_not_blank := rfl
  ttlSeconds_pos := one_second_accepted

theorem same_digests_of_reordered_orders :
    digestValue default (.dict firstOrder) = digestValue default (.dict secondOrder) ∧
      bareContext.prepareRequest retryPolicy [.dict firstOrder] [] =
        bareContext.prepareRequest retryPolicy [.dict secondOrder] [] ∧
      ∀ (now : PyM Unit Str) (key : PolicyKey) (version : Str) (signer : PolicySigner Unit)
        (createdBy : Str), PolicyBundle.create default now key version firstOrder signer createdBy =
          PolicyBundle.create default now key version secondOrder signer createdBy := by
  obtain ⟨hvalues, hcalls, hpolicies⟩ := same_digests_of_reordered default bareContext
  have hargs : Reordered (.tuple [.dict firstOrder]) (.tuple [.dict secondOrder]) :=
    .tuple [(.dict firstOrder, .dict secondOrder)] (by simpa using reordered_orders)
  have hkwargs : Reordered (PyVal.ofFields ([] : PyDict SmallFloat)) (.ofFields []) :=
    .dict [] .nil (by simp) .nil .nil
  exact ⟨(hvalues _ _ reordered_orders).2, (hcalls _ _ _ _ hargs hkwargs).2 retryPolicy rfl,
    hpolicies _ _ reordered_orders⟩

end AgentRoi
