/-
The SCIM resources that `to_scim` prints, and what the stores read out of them.

* `SCIMUser.toScim`, `SCIMGroup.toScim` — the two printers;
* `SCIMUser.Canonical`, `SCIMGroup.Canonical` — a record that came out of a
  payload: names and e-mails are stripped, attributes are no fields of SCIM;
* `PrintsContainers` — what `str` makes of lists and dictionaries;
* `canonical_user`, `canonical_group` — what is read from a payload is
  canonical;
* `SCIMUser.Resource.user_eq`, `SCIMGroup.Resource.group_eq` — a canonical
  record is read back from its own resource.
-/
import AgentRoi.Identity
import AgentRoi.ScimTables

namespace AgentRoi

variable {F : Type}

/-! ### The printers -/

/-- `text or None`. -/
def orNull (text : Str) : Json F := if text = [] then .null else .str text

/-- `[{"value": email, "primary": index == 0} for index, email in enumerate(emails)]`. -/
def emailItems (emails : List Str) : List (Json F) :=
  emails.zipIdx.map fun entry =>
    .obj [(lit "value", .str entry.1), (lit "primary", .bool (entry.2 = 0))]

/-- `[{"value": member} for member in sorted(members)]`. -/
def memberItems (members : Finset Str) : List (Json F) :=
  (sortedTexts members).map fun member => .obj [(lit "value", .str member)]

namespace SCIMUser

/-- The fields of SCIM. -/
def core (user : SCIMUser F) : List (Str × Json F) :=
  [(lit "schemas", .arr [.str (lit "urn:ietf:params:scim:schemas:core:2.0:User")]),
    (lit "id", .str user.id),
    (lit "externalId", orNull user.externalId),
    (lit "userName", .str user.userName),
    (lit "active", .bool user.active),
    (lit "displayName", .str user.displayName),
    (lit "emails", .arr (emailItems user.emails))]

/-- `{…, **dict(self.attributes)}`. -/
def toScim (user : SCIMUser F) : List (Str × Json F) := dictOf (user.core ++ user.attributes)

end SCIMUser

def SCIMGroup.toScim (group : SCIMGroup) : List (Str × Json F) :=
  [(lit "schemas", .arr [.str (lit "urn:ietf:params:scim:schemas:core:2.0:Group")]),
    (lit "id", .str group.id),
    (lit "externalId", orNull group.externalId),
    (lit "displayName", .str group.displayName),
    (lit "members", .arr (memberItems group.members))]

/-! ### Records that came out of payloads -/

structure SCIMUser.Canonical (user : SCIMUser F) : Prop where
  id : user.id ≠ []
  named : IsClean user.userName
  emails : ∀ email ∈ user.emails, IsClean email
  free : ∀ member ∈ user.attributes, member.1 ∉ ScimPayload.coreFields
  clean : (Json.obj user.attributes).Clean
  joined : (Json.obj user.attributes).AllJoined
  texts : ∀ text ∈ ScimTables.userTexts user, IsJoined text
  joinedEmails : ∀ email ∈ user.emails, IsJoined email

structure SCIMGroup.Canonical (group : SCIMGroup) : Prop where
  named : IsClean group.displayName
  members : ∀ member ∈ group.members, IsClean member
  texts : ∀ text ∈ ScimTables.groupTexts group, IsJoined text
  joinedMembers : ∀ member ∈ group.members, IsJoined member

/-- `str` of a list or a dictionary: it has brackets, and `repr` escapes the
surrogates within. -/
def PrintsContainers (F : Type) [PyBuiltins F] : Prop :=
  ∀ value : Json F, PyBuiltins.strOf value ≠ [] ∧ IsJoined (PyBuiltins.strOf value)

theorem isClean_of_ne_nil {text : Str} (h : strip text ≠ []) : IsClean (strip text) := by
  refine ⟨?_, strip_strip text⟩
  rw [isBlank_strip, Bool.eq_false_iff]
  exact fun hblank => h (strip_eq_nil_iff.mpr hblank)

theorem IsClean.ne_nil {text : Str} (h : IsClean text) : text ≠ [] := by
  rintro rfl
  exact absurd h.1 (by decide)

theorem isDigit_lt {c : ℕ} (h : isDigit c = true) : c < 0xD800 := by
  simp only [isDigit, Bool.and_eq_true, decide_eq_true_eq] at h
  omega

theorem intText_lt (i : Int) : ∀ c ∈ intText i, c < 0xD800 := by
  have hnat := fun c hc => isDigit_lt (natDigits_all_digit i.natAbs c hc)
  unfold intText
  split
  · exact List.forall_mem_cons.mpr ⟨by omega, hnat⟩
  · exact hnat

theorem repr_lt [PyFloat F] (x : F) : ∀ c ∈ PyFloat.repr x, c < 0xD800 := by
  obtain ⟨neg, w, f, e, ht, hw, hf, he, -⟩ := PyFloat.repr_isFloatText x
  have hdigits : ∀ {ds : Str}, (∀ d ∈ ds, isDigit d = true) → ∀ c ∈ ds, c < 0xD800 :=
    fun h c hc => isDigit_lt (h c hc)
  have hwhole : ∀ c ∈ w, c < 0xD800 := by
    rcases hw with rfl | ⟨d, ds, rfl, _, _, h⟩
    · decide
    · exact List.forall_mem_cons.mpr ⟨by omega, hdigits h⟩
  have hfrac : ∀ c ∈ f, c < 0xD800 := by
    rcases hf with rfl | ⟨ds, rfl, _, h⟩
    · exact fun _ hc => absurd hc List.not_mem_nil
    · exact List.forall_mem_cons.mpr ⟨by omega, hdigits h⟩
  have hexp : ∀ c ∈ e, c < 0xD800 := by
    rcases he with rfl | ⟨s, ds, rfl, hs, _, h⟩
    · exact fun _ hc => absurd hc List.not_mem_nil
    · exact List.forall_mem_cons.mpr ⟨by omega, List.forall_mem_cons.mpr ⟨by omega, hdigits h⟩⟩
  have hsign : ∀ c ∈ (if neg then [45] else [] : Str), c < 0xD800 := by
    cases neg <;> decide
  rw [ht]
  exact List.forall_mem_append.mpr ⟨hsign,
    List.forall_mem_append.mpr ⟨hwhole, List.forall_mem_append.mpr ⟨hfrac, hexp⟩⟩⟩

theorem text_lt [PyFloat F] (x : FloatVal F) : ∀ c ∈ x.text, c < 0xD800 := by
  cases x with
  | finite f => exact repr_lt f
  | nan => exact (by decide : ∀ c ∈ lit "nan", c < 0xD800)
  | inf => exact (by decide : ∀ c ∈ lit "inf", c < 0xD800)
  | negInf => exact (by decide : ∀ c ∈ lit "-inf", c < 0xD800)

theorem intText_ne_nil (i : Int) : intText i ≠ [] := by
  obtain ⟨c, rest, heq, -⟩ := Json.opens_intText i
  rw [heq]
  exact List.cons_ne_nil c rest

theorem text_ne_nil [PyFloat F] (x : FloatVal F) : x.text ≠ [] := by
  cases x with
  | finite f =>
    obtain ⟨c, rest, heq, -⟩ := Json.opens_repr f
    rw [FloatVal.text, heq]
    exact List.cons_ne_nil c rest
  | _ => exact List.cons_ne_nil _ _

theorem hexText_lt (width n : ℕ) : ∀ c ∈ hexText width n, c < 0xD800 := by
  intro c hc
  obtain ⟨i, -, rfl⟩ := List.mem_map.mp hc
  have hdigit : n / 16 ^ i % 16 < 16 := Nat.mod_lt _ (by decide)
  dsimp only
  split_ifs <;> omega

theorem reprChar_lt {quote : ℕ} (hquote : quote < 0xD800) (c : ℕ) :
    ∀ d ∈ reprChar quote c, d < 0xD800 := by
  have hhex : ∀ (mark : Str) (width : ℕ), (∀ d ∈ mark, d < 0xD800) →
      ∀ d ∈ mark ++ hexText width c, d < 0xD800 :=
    fun _ width hmark => List.forall_mem_append.mpr ⟨hmark, hexText_lt width c⟩
  unfold reprChar
  split_ifs with hescaped _ _ _ hplain
  · have hc : c < 0xD800 := by
      rcases hescaped with rfl | rfl
      · decide
      · exact hquote
    exact List.forall_mem_cons.mpr ⟨by decide, List.forall_mem_singleton.mpr hc⟩
  · decide
  · decide
  · decide
  · exact List.forall_mem_singleton.mpr (by omega)
  · exact hhex _ _ (by decide)
  · exact hhex _ _ (by decide)
  · exact hhex _ _ (by decide)

theorem reprText_lt (s : Str) : ∀ c ∈ reprText s, c < 0xD800 := by
  have hbody : ∀ quote < 0xD800, ∀ c ∈ quote :: s.flatMap (reprChar quote) ++ [quote],
      c < 0xD800 := by
    intro quote hquote
    refine List.forall_mem_append.mpr ⟨List.forall_mem_cons.mpr ⟨hquote, ?_⟩,
      List.forall_mem_singleton.mpr hquote⟩
    intro d hd
    obtain ⟨c, -, hd⟩ := List.mem_flatMap.mp hd
    exact reprChar_lt hquote c d hd
  unfold reprText
  split_ifs
  · exact hbody 34 (by decide)
  · exact hbody 39 (by decide)

namespace Json

variable [PyFloat F]

theorem reprItems_eq_map (xs : List (Json F)) : reprItems xs = xs.map repr := by
  induction xs with
  | nil => rfl
  | cons x xs ih => rw [reprItems, ih, List.map_cons]

theorem reprMembers_eq_map (kvs : List (Str × Json F)) :
    reprMembers kvs = kvs.map fun p => reprText p.1 ++ lit ": " ++ p.2.repr := by
  induction kvs with
  | nil => rfl
  | cons p kvs ih => rw [reprMembers, ih, List.map_cons]

/-- `repr` prints no surrogate. -/
theorem repr_lt_surrogate (value : Json F) : ∀ c ∈ value.repr, c < 0xD800 := by
  -- brackets around parts with a comma between them
  have hparts : ∀ (left right : ℕ) (parts : List Str), left < 0xD800 → right < 0xD800 →
      (∀ part ∈ parts, ∀ c ∈ part, c < 0xD800) →
      ∀ c ∈ left :: (lit ", ").intercalate parts ++ [right], c < 0xD800 := by
    intro left right parts hleft hright hmem
    refine List.forall_mem_append.mpr ⟨List.forall_mem_cons.mpr ⟨hleft, ?_⟩,
      List.forall_mem_singleton.mpr hright⟩
    intro c hc
    rcases mem_intercalate hc with hsep | ⟨part, hpart, hc⟩
    · exact (by decide : ∀ c ∈ lit ", ", c < 0xD800) c hsep
    · exact hmem part hpart c hc
  induction value using Json.induct with
  | null => exact (by decide : ∀ c ∈ lit "None", c < 0xD800)
  | bool b =>
    cases b with
    | true => exact (by decide : ∀ c ∈ lit "True", c < 0xD800)
    | false => exact (by decide : ∀ c ∈ lit "False", c < 0xD800)
  | int i => exact intText_lt i
  | float x => exact text_lt x
  | str s => exact reprText_lt s
  | arr xs ih =>
    rw [repr, reprItems_eq_map]
    exact hparts _ _ _ (by decide) (by decide) (List.forall_mem_map.mpr ih)
  | obj kvs ih =>
    have hcolon : ∀ c ∈ lit ": ", c < 0xD800 := by decide
    rw [repr, reprMembers_eq_map]
    refine hparts _ _ _ (by decide) (by decide) (List.forall_mem_map.mpr fun p hp => ?_)
    exact List.forall_mem_append.mpr ⟨List.forall_mem_append.mpr ⟨reprText_lt p.1, hcolon⟩, ih p hp⟩

theorem repr_ne_nil (value : Json F) : value.repr ≠ [] := by
  cases value with
  | null => exact List.cons_ne_nil _ _
  | bool b => cases b <;> exact List.cons_ne_nil _ _
  | int i => exact intText_ne_nil i
  | float x => exact text_ne_nil x
  | str s => exact List.cons_ne_nil _ _
  | arr xs => exact List.cons_ne_nil _ _
  | obj kvs => exact List.cons_ne_nil _ _

end Json

section

variable [PyBuiltins F]

/-- `str` is `repr` on what it prints with brackets. -/
theorem printsContainers_of_repr (h : ∀ value : Json F, PyBuiltins.strOf value = value.repr) :
    PrintsContainers F := by
  intro value
  rw [h value]
  exact ⟨value.repr_ne_nil, isJoined_of_lt value.repr_lt_surrogate⟩

/-- What is printed of a value that was read from JSON has no pair of
surrogates. -/
theorem joined_pyStr (hprints : PrintsContainers F) {value : Json F} (h : value.AllJoined) :
    IsJoined value.pyStr := by
  have hnames : IsJoined (lit "None") ∧ IsJoined (lit "True") ∧ IsJoined (lit "False") :=
    ⟨isJoined_of_lt (by decide), isJoined_of_lt (by decide), isJoined_of_lt (by decide)⟩
  cases h with
  | null => exact hnames.1
  | bool b =>
    cases b with
    | true => exact hnames.2.1
    | false => exact hnames.2.2
  | int i => exact isJoined_of_lt (intText_lt i)
  | float x => exact isJoined_of_lt (text_lt x)
  | str hs => exact hs
  | arr _ => exact (hprints _).2
  | obj _ _ => exact (hprints _).2

/-- A value that counts as true is not printed as the empty text. -/
theorem pyStr_ne_nil (hprints : PrintsContainers F) {value : Json F} (h : value.truthy = true) :
    value.pyStr ≠ [] := by
  cases value with
  | null => cases h
  | bool b =>
    cases b with
    | true => exact List.cons_ne_nil _ _
    | false => cases h
  | int i => exact intText_ne_nil i
  | float x => exact text_ne_nil x
  | str s => exact of_decide_eq_true h
  | arr _ => exact (hprints _).1
  | obj _ => exact (hprints _).1

end

/-! ### What is read from a payload -/

theorem clean_textItems (raw : Json F) : ∀ name ∈ textItems raw, IsClean name := by
  intro name hname
  cases raw with
  | arr items =>
    obtain ⟨item, -, htext⟩ := List.mem_filterMap.mp hname
    unfold itemText at htext
    split at htext
    · split at htext
      · cases htext
      · next hblank =>
        cases htext
        exact isClean_of_ne_nil (strip_eq_nil_iff.not.mpr hblank)
    · cases htext
  | _ => exact absurd hname List.not_mem_nil

/-- What a loop runs over was read from JSON, if the whole was. -/
theorem joined_iterate {raw : Json F} (hclean : raw.Clean) (hjoined : raw.AllJoined)
    {items : List (Json F)} (h : iterate raw = some items) :
    ∀ item ∈ items, item.Clean ∧ item.AllJoined := by
  cases raw with
  | arr xs =>
    cases h
    cases hclean with
    | arr hcleans =>
      cases hjoined with
      | arr hjoineds => exact fun item hitem => ⟨hcleans item hitem, hjoineds item hitem⟩
  | str text =>
    cases h
    exact List.forall_mem_map.mpr fun c _ => ⟨.str _, .str (List.isChain_singleton c)⟩
  | obj kvs =>
    cases h
    have hkeys := (Json.allJoined_obj_iff.mp hjoined).1
    exact List.forall_mem_map.mpr fun member hmember => ⟨.str _, .str (hkeys member hmember)⟩
  | _ => cases h

namespace ScimPayload

variable (p : ScimPayload F)

theorem joined_list {name : String} :
    (p.get name (.arr [])).Clean ∧ (p.get name (.arr [])).AllJoined :=
  p.joined_get ⟨.arr fun _ h => absurd h List.not_mem_nil, .arr fun _ h => absurd h List.not_mem_nil⟩

theorem joined_string {name : String} :
    (p.get name (.str [])).Clean ∧ (p.get name (.str [])).AllJoined :=
  p.joined_get ⟨.str [], .str .nil⟩

/-- E-mails and members, as `create_user` and `create_group` read them. -/
theorem readable_textItems {name : String} :
    ∀ text ∈ textItems (p.get name (.arr [])), IsClean text ∧ IsJoined text :=
  fun text htext => ⟨clean_textItems _ text htext,
    joined_textItems p.joined_list.1 p.joined_list.2 text htext⟩

end ScimPayload

section

variable [PyBuiltins F] (hprints : PrintsContainers F) (p : ScimPayload F)
  {userId groupId fresh : Str} {names : List Str}

include hprints

/-- E-mails and members, as the tables' other methods read them. -/
theorem readable_anyItems {name : String} (h : anyItems (p.get name (.arr [])) = some names) :
    ∀ text ∈ names, IsClean text ∧ IsJoined text := by
  obtain ⟨items, hitems, rfl⟩ := Option.map_eq_some_iff.mp h
  intro text htext
  obtain ⟨item, hitem, hprinted⟩ := List.mem_filterMap.mp htext
  obtain ⟨hclean, hjoined⟩ := joined_iterate p.joined_list.1 p.joined_list.2 hitems item hitem
  unfold printedItem at hprinted
  split at hprinted
  · cases hprinted
  · next hblank =>
    cases hprinted
    exact ⟨isClean_of_ne_nil (strip_eq_nil_iff.not.mpr hblank),
      (joined_pyStr hprints (ScimPayload.joined_itemValue hclean hjoined)).strip⟩

theorem joined_externalId : IsJoined p.externalId := by
  unfold ScimPayload.externalId
  split
  · exact joined_pyStr hprints p.joined_string.2
  · exact .nil

/-- The id of a new entry, where `fresh` is the text of a uuid. -/
theorem readable_id (hfresh : fresh ≠ [] ∧ IsJoined fresh) :
    p.id fresh ≠ [] ∧ IsJoined (p.id fresh) := by
  have hjoined : (p.get "id" .null).AllJoined := (p.joined_get ⟨.null, .null⟩).2
  unfold ScimPayload.id
  split
  · next htrue => exact ⟨pyStr_ne_nil hprints htrue, joined_pyStr hprints hjoined⟩
  · exact hfresh

theorem canonical_user (hid : userId ≠ [] ∧ IsJoined userId) (hname : p.userName ≠ [])
    (hnames : ∀ name ∈ names, IsClean name ∧ IsJoined name) : (p.user userId names).Canonical where
  id := hid.1
  named := isClean_of_ne_nil hname
  emails name hmem := (hnames name hmem).1
  free member hmember := of_decide_eq_true (List.mem_filter.mp hmember).2
  clean := p.joined_attributes.1
  joined := p.joined_attributes.2
  texts := by
    have htext : IsJoined p.userName := (joined_pyStr hprints p.joined_string.2).strip
    have hdisplay : IsJoined p.displayName := joined_pyStr hprints p.joined_string.2
    exact List.forall_mem_cons.mpr ⟨hid.2, List.forall_mem_cons.mpr ⟨htext,
      List.forall_mem_cons.mpr ⟨hdisplay, List.forall_mem_singleton.mpr
        (joined_externalId hprints p)⟩⟩⟩
  joinedEmails name hmem := (hnames name hmem).2

theorem canonical_group (hid : IsJoined groupId) (hname : strip p.displayName ≠ [])
    (hnames : ∀ name ∈ names, IsClean name ∧ IsJoined name) :
    (p.group groupId names).Canonical where
  named := isClean_of_ne_nil hname
  members name hmem := (hnames name (List.mem_toFinset.mp hmem)).1
  texts := by
    have hdisplay : IsJoined (strip p.displayName) := (joined_pyStr hprints p.joined_string.2).strip
    exact List.forall_mem_cons.mpr ⟨hid, List.forall_mem_cons.mpr ⟨hdisplay,
      List.forall_mem_singleton.mpr (joined_externalId hprints p)⟩⟩
  joinedMembers name hmem := (hnames name (List.mem_toFinset.mp hmem)).2

end

/-! ### A resource is read back -/

/-- An item with a text that needs no stripping is read as that text. -/
theorem itemText_obj {text : Str} (h : IsClean text) (rest : List (Str × Json F)) :
    itemText (.obj ((lit "value", .str text) :: rest)) = some text := by
  have hvalue : itemValue (.obj ((lit "value", .str text) :: rest)) = (.str text : Json F) := rfl
  rw [itemText, hvalue]
  show (if isBlank text = true then none else some (strip text)) = some text
  rw [if_neg (Bool.eq_false_iff.mp h.1), h.2]

theorem textItems_emailItems {emails : List Str} (h : ∀ email ∈ emails, IsClean email) :
    textItems (.arr (emailItems emails) : Json F) = emails := by
  have hread : ∀ entry ∈ emails.zipIdx, itemText (.obj [(lit "value", .str entry.1),
      (lit "primary", .bool (entry.2 = 0))] : Json F) = some entry.1 :=
    fun entry hentry => itemText_obj (h entry.1 (List.fst_mem_of_mem_zipIdx hentry)) _
  show (emails.zipIdx.map _).filterMap itemText = emails
  rw [List.filterMap_map]
  refine (List.filterMap_congr hread).trans ?_
  rw [List.filterMap_eq_map', List.zipIdx_map_fst]

theorem textItems_memberItems {members : Finset Str} (h : ∀ member ∈ members, IsClean member) :
    textItems (.arr (memberItems members) : Json F) = sortedTexts members := by
  have hread : ∀ member ∈ sortedTexts members,
      itemText (.obj [(lit "value", .str member)] : Json F) = some member :=
    fun member hmember => itemText_obj (h member ((Finset.mem_sort _).mp hmember)) _
  show ((sortedTexts members).map _).filterMap itemText = _
  rw [List.filterMap_map]
  refine (List.filterMap_congr hread).trans ?_
  rw [List.filterMap_eq_map', List.map_id']

section

variable [PyBuiltins F]

theorem anyItems_emailItems {emails : List Str} (h : ∀ email ∈ emails, IsClean email) :
    anyItems (.arr (emailItems emails) : Json F) = some emails := by
  have honly : OnlyTexts (.arr (emailItems emails) : Json F) :=
    List.forall_mem_map.mpr fun entry _ => .inl ⟨entry.1, rfl⟩
  rw [anyItems_eq_textItems_iff.mpr honly, textItems_emailItems h]

theorem anyItems_memberItems {members : Finset Str} (h : ∀ member ∈ members, IsClean member) :
    anyItems (.arr (memberItems members) : Json F) = some (sortedTexts members) := by
  have honly : OnlyTexts (.arr (memberItems members) : Json F) :=
    List.forall_mem_map.mpr fun member _ => .inl ⟨member, rfl⟩
  rw [anyItems_eq_textItems_iff.mpr honly, textItems_memberItems h]

theorem toFinset_sortedTexts (members : Finset Str) : (sortedTexts members).toFinset = members :=
  Finset.sort_toFinset _ _

end

/-! ### Resources as payloads -/

theorem joined_obj {kvs : List (Str × Json F)} (hkeys : (kvs.map Prod.fst).Nodup)
    (hnames : ∀ key ∈ kvs.map Prod.fst, IsJoined key)
    (hvalues : ∀ member ∈ kvs, member.2.Clean ∧ member.2.AllJoined) :
    (Json.obj kvs).Clean ∧ (Json.obj kvs).AllJoined :=
  ⟨.obj hkeys fun member h => (hvalues member h).1,
    .obj (List.forall_mem_map.mp hnames) fun member h => (hvalues member h).2⟩

theorem joined_arr {items : List (Json F)} (h : ∀ item ∈ items, item.Clean ∧ item.AllJoined) :
    (Json.arr items).Clean ∧ (Json.arr items).AllJoined :=
  ⟨.arr fun item hitem => (h item hitem).1, .arr fun item hitem => (h item hitem).2⟩

theorem joined_orNull {text : Str} (h : IsJoined text) :
    (orNull text : Json F).Clean ∧ (orNull text : Json F).AllJoined := by
  unfold orNull
  split
  · exact ⟨.null, .null⟩
  · exact ⟨.str text, .str h⟩

/-- `str(value or "")`, of what was printed by `text or None`. -/
theorem pyStr_orNull [PyBuiltins F] (text : Str) : (if (orNull text : Json F).truthy = true then
    (orNull text : Json F).pyStr else []) = text := by
  unfold orNull
  split
  · next hempty => exact hempty.symm
  · next hfull => exact if_pos (decide_eq_true hfull)

theorem joined_emailItems {emails : List Str} (h : ∀ email ∈ emails, IsJoined email) :
    (Json.arr (emailItems emails) : Json F).Clean ∧
      (Json.arr (emailItems emails) : Json F).AllJoined := by
  refine joined_arr (List.forall_mem_map.mpr fun entry hentry => joined_obj ?_ ?_ ?_)
  · exact (by decide : [lit "value", lit "primary"].Nodup)
  · have hkeys : ∀ key ∈ [lit "value", lit "primary"], ∀ c ∈ key, c < 0xD800 := by decide
    exact fun key hkey => isJoined_of_lt (hkeys key hkey)
  · have hjoined := h entry.1 (List.fst_mem_of_mem_zipIdx hentry)
    exact List.forall_mem_cons.mpr ⟨⟨.str _, .str hjoined⟩,
      List.forall_mem_singleton.mpr ⟨.bool _, .bool _⟩⟩

theorem joined_memberItems {members : Finset Str} (h : ∀ member ∈ members, IsJoined member) :
    (Json.arr (memberItems members) : Json F).Clean ∧
      (Json.arr (memberItems members) : Json F).AllJoined := by
  refine joined_arr (List.forall_mem_map.mpr fun member hmember => joined_obj ?_ ?_ ?_)
  · exact List.nodup_singleton _
  · have hkey : IsJoined (lit "value") := isJoined_of_lt (by decide)
    exact List.forall_mem_singleton.mpr hkey
  · exact List.forall_mem_singleton.mpr ⟨.str _, .str (h member ((Finset.mem_sort _).mp hmember))⟩

namespace SCIMUser

variable {user : SCIMUser F}

theorem joined_core (h : user.Canonical) :
    ∀ member ∈ user.core, member.2.Clean ∧ member.2.AllJoined := by
  obtain ⟨hid, htexts⟩ := List.forall_mem_cons.mp h.texts
  obtain ⟨hname, htexts⟩ := List.forall_mem_cons.mp htexts
  obtain ⟨hdisplay, hexternal⟩ := List.forall_mem_cons.mp htexts
  have hschema : IsJoined (lit "urn:ietf:params:scim:schemas:core:2.0:User") :=
    isJoined_of_lt (by decide)
  refine List.forall_mem_cons.mpr ⟨joined_arr (List.forall_mem_singleton.mpr
    ⟨.str _, .str hschema⟩), ?_⟩
  refine List.forall_mem_cons.mpr ⟨⟨.str _, .str hid⟩, ?_⟩
  refine List.forall_mem_cons.mpr ⟨joined_orNull (List.forall_mem_singleton.mp hexternal), ?_⟩
  refine List.forall_mem_cons.mpr ⟨⟨.str _, .str hname⟩, ?_⟩
  refine List.forall_mem_cons.mpr ⟨⟨.bool _, .bool _⟩, ?_⟩
  refine List.forall_mem_cons.mpr ⟨⟨.str _, .str hdisplay⟩, ?_⟩
  exact List.forall_mem_singleton.mpr (joined_emailItems h.joinedEmails)

theorem nodup_toScim (h : user.Canonical) : ((user.core ++ user.attributes).map Prod.fst).Nodup := by
  have hcore : ScimPayload.coreFields.Nodup := by decide
  rw [List.map_append]
  refine hcore.append (Json.clean_obj_iff.mp h.clean).1 fun key hkey hmem => ?_
  obtain ⟨member, hmember, rfl⟩ := List.mem_map.mp hmem
  exact h.free member hmember hkey

/-- No attribute takes the place of a field of SCIM. -/
theorem toScim_eq (h : user.Canonical) : user.toScim = user.core ++ user.attributes :=
  dictOf_of_nodup (nodup_toScim h)

theorem joined_toScim (h : user.Canonical) :
    (Json.obj user.toScim).Clean ∧ (Json.obj user.toScim).AllJoined := by
  rw [toScim_eq h]
  have hfields : ∀ key ∈ ScimPayload.coreFields, ∀ c ∈ key, c < 0xD800 := by decide
  obtain ⟨hkeys, hvalues⟩ := Json.allJoined_obj_iff.mp h.joined
  refine joined_obj (nodup_toScim h) ?_ (List.forall_mem_append.mpr ⟨joined_core h, ?_⟩)
  · rw [List.map_append]
    exact List.forall_mem_append.mpr ⟨fun key hkey => isJoined_of_lt (hfields key hkey),
      List.forall_mem_map.mpr hkeys⟩
  · exact fun member hmember => ⟨(Json.clean_obj_iff.mp h.clean).2 member hmember,
      hvalues member hmember⟩

/-- `to_scim()`, as a payload. -/
def resource (user : SCIMUser F) (h : user.Canonical) : ScimPayload F :=
  ⟨user.toScim, (joined_toScim h).1, (joined_toScim h).2⟩

theorem get_resource (h : user.Canonical) {name : String} {default value : Json F}
    (hcore : dictGet (lit name) user.core = some value) :
    (user.resource h).get name default = value := by
  show (dictGet (lit name) user.toScim).getD default = value
  rw [toScim_eq h, dictGet_append_of_some hcore]
  rfl

theorem emails_resource (h : user.Canonical) :
    (user.resource h).emails = .arr (emailItems user.emails) := get_resource h rfl

theorem attributes_resource (h : user.Canonical) : (user.resource h).attributes = user.attributes := by
  show user.toScim.filter _ = user.attributes
  have hcore : user.core.filter (fun member => member.1 ∉ ScimPayload.coreFields) = [] := by
    refine List.filter_eq_nil_iff.mpr fun member hmember => ?_
    have hkey : member.1 ∈ ScimPayload.coreFields := List.mem_map_of_mem hmember
    simpa using hkey
  rw [toScim_eq h, List.filter_append, hcore, List.nil_append]
  exact List.filter_eq_self.mpr fun member hmember => decide_eq_true (h.free member hmember)

section

variable [PyBuiltins F]

theorem userName_resource (h : user.Canonical) : (user.resource h).userName = user.userName := by
  have hget : (user.resource h).get "userName" (.str []) = .str user.userName := get_resource h rfl
  rw [ScimPayload.userName, hget]
  exact h.named.2

theorem id_resource (h : user.Canonical) (fresh : Str) : (user.resource h).id fresh = user.id := by
  have hget : (user.resource h).get "id" .null = .str user.id := get_resource h rfl
  rw [ScimPayload.id, hget]
  exact if_pos (decide_eq_true h.id)

/-- A user is read back from its resource. -/
theorem user_resource (h : user.Canonical) :
    (user.resource h).user user.id user.emails = user := by
  have hactive : (user.resource h).get "active" (.bool true) = .bool user.active :=
    get_resource h rfl
  have hdisplay : (user.resource h).get "displayName" (.str []) = .str user.displayName :=
    get_resource h rfl
  have hexternal : (user.resource h).get "externalId" (.str []) = orNull user.externalId :=
    get_resource h rfl
  rw [ScimPayload.user, userName_resource h, attributes_resource h, ScimPayload.active, hactive,
    ScimPayload.displayName, hdisplay, ScimPayload.externalId, hexternal, pyStr_orNull]
  rfl

end

end SCIMUser

namespace SCIMGroup

variable {group : SCIMGroup}

theorem joined_toScim (h : group.Canonical) :
    (Json.obj (group.toScim (F := F))).Clean ∧ (Json.obj (group.toScim (F := F))).AllJoined := by
  obtain ⟨hid, htexts⟩ := List.forall_mem_cons.mp h.texts
  obtain ⟨hdisplay, hexternal⟩ := List.forall_mem_cons.mp htexts
  have hfields : ∀ key ∈ [lit "schemas", lit "id", lit "externalId", lit "displayName",
      lit "members"], ∀ c ∈ key, c < 0xD800 := by decide
  have hschema : IsJoined (lit "urn:ietf:params:scim:schemas:core:2.0:Group") :=
    isJoined_of_lt (by decide)
  refine joined_obj ?_ (fun key hkey => isJoined_of_lt (hfields key hkey)) ?_
  · exact (by decide : [lit "schemas", lit "id", lit "externalId", lit "displayName",
      lit "members"].Nodup)
  · refine List.forall_mem_cons.mpr ⟨joined_arr (List.forall_mem_singleton.mpr
      ⟨.str _, .str hschema⟩), ?_⟩
    refine List.forall_mem_cons.mpr ⟨⟨.str _, .str hid⟩, ?_⟩
    refine List.forall_mem_cons.mpr ⟨joined_orNull (List.forall_mem_singleton.mp hexternal), ?_⟩
    refine List.forall_mem_cons.mpr ⟨⟨.str _, .str hdisplay⟩, ?_⟩
    exact List.forall_mem_singleton.mpr (joined_memberItems h.joinedMembers)

/-- `to_scim()`, as a payload. -/
def resource (F : Type) (group : SCIMGroup) (h : group.Canonical) : ScimPayload F :=
  ⟨group.toScim, (joined_toScim h).1, (joined_toScim h).2⟩

section

variable [PyBuiltins F]

theorem displayName_resource (h : group.Canonical) :
    strip (group.resource F h).displayName = group.displayName := h.named.2

/-- A group is read back from its resource. -/
theorem group_resource (h : group.Canonical) :
    (group.resource F h).group group.id (sortedTexts group.members) = group := by
  have hexternal : (group.resource F h).get "externalId" (.str []) = orNull group.externalId := rfl
  rw [ScimPayload.group, displayName_resource h, toFinset_sortedTexts, ScimPayload.externalId,
    hexternal, pyStr_orNull]

end

end SCIMGroup

end AgentRoi
