/-
What `create_user` and `create_group` of `SCIMDirectory` do to the entries that
are there.

The id of a new entry may come from the payload; the methods look for another
entry of the same name, not for one of the same id.

* `newKeys`, `Retains` — what a dictionary gained, and that it lost nothing;
* `ScimDicts.AcceptsUser`, `ScimDicts.AcceptsGroup` — a payload is not refused;
* `ScimDicts.NeverOverwrites` — a call raises and changes nothing, or adds one
  entry and changes no other;
* `createUser_neverOverwrites_iff`, `createGroup_neverOverwrites_iff` — it does,
  except where an accepted payload has the id of an entry;
* `creating_never_overwrites_iff` — both.
-/
import AgentRoi.ScimAgreement
import AgentRoi.ScimDictionaries

namespace AgentRoi

/-! ### Two moments of a dictionary -/

section

variable {κ α : Type} [DecidableEq κ] {k : κ} {v : α} {d : List (κ × α)}

/-- The keys that `d'` has and `d` has not. -/
def newKeys (d d' : List (κ × α)) : List κ :=
  (d'.map Prod.fst).filter fun k => k ∉ d.map Prod.fst

/-- Every entry is there, with its value. -/
def Retains (d d' : List (κ × α)) : Prop := ∀ k v, dictGet k d = some v → dictGet k d' = some v

theorem newKeys_self (d : List (κ × α)) : newKeys d d = [] := by
  refine List.filter_eq_nil_iff.mpr fun k hk => ?_
  simpa using hk

theorem newKeys_dictInsert_of_notMem (h : k ∉ d.map Prod.fst) :
    newKeys d (dictInsert k v d) = [k] := by
  have hold : (d.map Prod.fst).filter (fun k => k ∉ d.map Prod.fst) = [] := newKeys_self d
  have hnew : [k].filter (fun k => k ∉ d.map Prod.fst) = [k] :=
    List.filter_cons_of_pos (decide_eq_true h)
  rw [newKeys, dictInsert_of_notMem h, List.map_append, List.filter_append, hold]
  exact hnew

theorem newKeys_dictInsert_of_mem (h : k ∈ d.map Prod.fst) : newKeys d (dictInsert k v d) = [] := by
  refine List.filter_eq_nil_iff.mpr fun k' hk' => ?_
  have hthere : k' ∈ d.map Prod.fst := by
    rcases mem_keys_dictInsert.mp hk' with rfl | hk'
    · exact h
    · exact hk'
  simpa using hthere

theorem Retains.refl (d : List (κ × α)) : Retains d d := fun _ _ h => h

theorem retains_dictInsert (h : k ∉ d.map Prod.fst) : Retains d (dictInsert k v d) := by
  intro k' v' hget
  rw [dictInsert_of_notMem h]
  exact dictGet_append_of_some hget

end

namespace ScimDicts

variable {F α : Type} {s s' : ScimDicts F}

/-- One entry more, and no other change. -/
structure AddsOne (s s' : ScimDicts F) : Prop where
  one : (newKeys s.users s'.users).length + (newKeys s.groups s'.groups).length = 1
  users : Retains s.users s'.users
  groups : Retains s.groups s'.groups

/-- A call on `s` raises and changes nothing, or adds one entry. -/
def NeverOverwrites (x : PyM (ScimDicts F) α) (s : ScimDicts F) : Prop :=
  (∃ e, x s = (.error e, s)) ∨ ∃ a s', x s = (.ok a, s') ∧ s.AddsOne s'

theorem addsOne_of_ok {x : PyM (ScimDicts F) α} {a : α} (hx : x s = (.ok a, s'))
    (h : NeverOverwrites x s) : s.AddsOne s' := by
  rcases h with ⟨e, he⟩ | ⟨a', s'', hok, hone⟩
  · rw [hx] at he
    cases he
  · rw [hx] at hok
    cases hok
    exact hone

variable [PyBuiltins F] {p : ScimPayload F} {userId groupId : Str}

/-- The payload has a user name that no user has. -/
def AcceptsUser (s : ScimDicts F) (p : ScimPayload F) : Prop :=
  p.userName ≠ [] ∧ ¬ ∃ existing ∈ s.users.map Prod.snd, existing.userName = p.userName

/-- The payload has a name that no group has, and its members are users. -/
def AcceptsGroup (s : ScimDicts F) (p : ScimPayload F) : Prop :=
  strip p.displayName ≠ [] ∧
    (textItems p.members).toFinset \ (s.users.map Prod.fst).toFinset = ∅ ∧
    ¬ ∃ existing ∈ s.groups.map Prod.snd, existing.displayName = strip p.displayName

/-! ### The outcomes -/

theorem createUserAs_of_refused (h : ¬ s.AcceptsUser p) :
    ∃ e, createUserAs p userId s = (.error e, s) := by
  by_cases hname : p.userName = []
  · exact ⟨userNameRequired, by rw [createUserAs, if_pos hname]; rfl⟩
  · have hnamed : ∃ existing ∈ s.users.map Prod.snd, existing.userName = p.userName := by
      by_contra hfree
      exact h ⟨hname, hfree⟩
    refine ⟨userExists p.userName, ?_⟩
    rw [createUserAs, if_neg hname]
    exact congrFun (if_pos hnamed) s

theorem createUserAs_of_accepted (h : s.AcceptsUser p) :
    createUserAs p userId s = (.ok (p.user userId (textItems p.emails)),
      { s with users := dictInsert userId (p.user userId (textItems p.emails)) s.users }) := by
  rw [createUserAs, if_neg h.1]
  exact congrFun (if_neg h.2) s

theorem createGroupAs_of_refused (h : ¬ s.AcceptsGroup p) :
    ∃ e, createGroupAs p groupId s = (.error e, s) := by
  by_cases hname : strip p.displayName = []
  · exact ⟨groupNameRequired, by rw [createGroupAs, if_pos hname]; rfl⟩
  rw [createGroupAs, if_neg hname, PyM.get_bind]
  by_cases hknown : (textItems p.members).toFinset \ (s.users.map Prod.fst).toFinset = ∅
  · have hnamed : ∃ existing ∈ s.groups.map Prod.snd,
        existing.displayName = strip p.displayName := by
      by_contra hfree
      exact h ⟨hname, hknown, hfree⟩
    refine ⟨groupExists (strip p.displayName), ?_⟩
    refine (congrFun (if_neg (not_not_intro hknown)) s).trans ?_
    exact congrFun (if_pos hnamed) s
  · exact ⟨_, congrFun (if_pos hknown) s⟩

theorem createGroupAs_of_accepted (h : s.AcceptsGroup p) :
    createGroupAs p groupId s = (.ok (p.group groupId (textItems p.members)),
      { s with groups :=
          dictInsert groupId (p.group groupId (textItems p.members)) s.groups }) := by
  rw [createGroupAs, if_neg h.1, PyM.get_bind]
  refine (congrFun (if_neg (not_not_intro h.2.1)) s).trans ?_
  exact congrFun (if_neg h.2.2) s

/-! ### The id of an accepted payload -/

theorem createUser_neverOverwrites_iff {fresh : Str} :
    NeverOverwrites (createUser p fresh) s ↔
      (s.AcceptsUser p → p.id fresh ∉ s.users.map Prod.fst) := by
  constructor
  · intro h haccepted htaken
    -- the entry under the id is assigned, and none is added
    have hone := (addsOne_of_ok (createUserAs_of_accepted haccepted) h).one
    rw [newKeys_dictInsert_of_mem htaken, newKeys_self] at hone
    cases hone
  · intro h
    by_cases haccepted : s.AcceptsUser p
    · have hnew := h haccepted
      refine .inr ⟨_, _, createUserAs_of_accepted haccepted, ?_, retains_dictInsert hnew, .refl _⟩
      rw [newKeys_dictInsert_of_notMem hnew, newKeys_self]
      rfl
    · exact .inl (createUserAs_of_refused haccepted)

theorem createGroup_neverOverwrites_iff {fresh : Str} :
    NeverOverwrites (createGroup p fresh) s ↔
      (s.AcceptsGroup p → p.id fresh ∉ s.groups.map Prod.fst) := by
  constructor
  · intro h haccepted htaken
    have hone := (addsOne_of_ok (createGroupAs_of_accepted haccepted) h).one
    rw [newKeys_dictInsert_of_mem htaken, newKeys_self] at hone
    cases hone
  · intro h
    by_cases haccepted : s.AcceptsGroup p
    · have hnew := h haccepted
      refine .inr ⟨_, _, createGroupAs_of_accepted haccepted, ?_, .refl _, retains_dictInsert hnew⟩
      rw [newKeys_dictInsert_of_notMem hnew, newKeys_self]
      rfl
    · exact .inl (createGroupAs_of_refused haccepted)

/-- Creating overwrites nothing exactly where no payload is accepted under an id
that is taken. -/
theorem creating_never_overwrites_iff (s : ScimDicts F) (p : ScimPayload F) (fresh : Str) :
    (NeverOverwrites (createUser p fresh) s ↔
      (s.AcceptsUser p → p.id fresh ∉ s.users.map Prod.fst)) ∧
    (NeverOverwrites (createGroup p fresh) s ↔
      (s.AcceptsGroup p → p.id fresh ∉ s.groups.map Prod.fst)) :=
  ⟨createUser_neverOverwrites_iff, createGroup_neverOverwrites_iff⟩

/-- The user `b` is created under the id of the user `a`, who is gone. -/
theorem creating_overwrites_user :
    ¬ ∀ (ops : List (ScimOp Half)) (p : ScimPayload Half) (fresh : Str),
      NeverOverwrites (createUser p fresh) (after ops) := by
  intro hnever
  have h := hnever [.createUser (userPayload joined_u1 joined_a) []]
    (userPayload joined_u1 joined_b) []
  refine createUser_neverOverwrites_iff.mp h ⟨?_, ?_⟩ ?_
  · decide
  · decide
  · decide

end ScimDicts

end AgentRoi
