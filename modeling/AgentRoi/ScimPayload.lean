/-
SCIM users and groups, and what the identity stores read out of a payload.

The stores read a list of e-mails or members in two ways.  One takes the items
of a list that are strings; the other takes every item of whatever can be
iterated, and prints it.

* `SCIMUser`, `SCIMGroup` — the two records;
* `ScimPayload` — a JSON object, with what `create_user` and `create_group`
  read from its fields;
* `textItems`, `anyItems` — the two readings;
* `anyItems_eq_textItems_iff` — they agree on lists of texts.
-/
import AgentRoi.AuditEvent
import AgentRoi.JsonAscii
import AgentRoi.PyM
import Mathlib.Data.Finset.Basic

namespace AgentRoi

/-- `attributes` are the members of a dictionary. -/
structure SCIMUser (F : Type) where
  id : Str
  userName : Str
  active : Bool
  displayName : Str
  emails : List Str
  externalId : Str
  attributes : List (Str × Json F)

structure SCIMGroup where
  id : Str
  displayName : Str
  members : Finset Str
  externalId : Str
  deriving DecidableEq

/-- A JSON object that was read from a text. -/
structure ScimPayload (F : Type) where
  fields : List (Str × Json F)
  clean : (Json.obj fields).Clean
  joined : (Json.obj fields).AllJoined

variable {F : Type}

/-- The members of a dictionary, in an order that does not depend on how they
were inserted. -/
def sortedFields (kvs : List (Str × Json F)) : List (Str × Json F) :=
  sortByKey (Json.sortKeysMembers kvs)

/-- The user as Python compares it. -/
def SCIMUser.value (user : SCIMUser F) : SCIMUser F :=
  { user with attributes := sortedFields user.attributes }

theorem SCIMUser.value_value (user : SCIMUser F) : user.value.value = user.value := by
  have h : sortedFields (sortedFields user.attributes) = sortedFields user.attributes := by
    have hsorted := Json.sortKeys_sortKeys (Json.obj user.attributes)
    rw [Json.sortKeys] at hsorted
    exact Json.obj.inj hsorted
  rw [value, value]
  simp only [h]

/-! ### E-mails and members -/

/-- `item.get("value") if isinstance(item, Mapping) else item`. -/
def itemValue : Json F → Json F
  | .obj kvs => (dictGet (lit "value") kvs).getD .null
  | item => item

/-- `value.strip()`, where `isinstance(value, str) and value.strip()`. -/
def itemText (item : Json F) : Option Str :=
  match itemValue item with
  | .str s => if isBlank s then none else some (strip s)
  | _ => none

/-- The items of a list that are texts, not blank. -/
def textItems : Json F → List Str
  | .arr items => items.filterMap itemText
  | _ => []

section

variable [PyBuiltins F]

/-- `str(…).strip()`, where that is not empty. -/
def printedItem (item : Json F) : Option Str :=
  if isBlank (itemValue item).pyStr then none else some (strip (itemValue item).pyStr)

/-- Whatever a loop runs over, printed; none where the loop raises. -/
def anyItems (raw : Json F) : Option (List Str) :=
  (iterate raw).map fun items => items.filterMap printedItem

/-- `anyItems`, as the stores run it. -/
def readItems (raw : Json F) : Except PyExc (List Str) := (anyItems raw).elim (.error notIterable) .ok

/-- A list of texts, or of objects whose `value` is a text; or something to loop
over that has nothing to print. -/
def OnlyTexts : Json F → Prop
  | .arr items => ∀ item ∈ items, (∃ s, itemValue item = .str s) ∨ isBlank (itemValue item).pyStr
  | raw => ∃ items, iterate raw = some items ∧
      ∀ item ∈ items, isBlank (itemValue item).pyStr

/-- A text is printed as it is read. -/
theorem printedItem_of_text {item : Json F} {name : Str} (h : itemText item = some name) :
    printedItem item = some name := by
  unfold itemText at h
  split at h
  · next s hs =>
    rw [printedItem, hs]
    exact h
  · cases h

theorem itemText_eq_printedItem_iff {item : Json F} : itemText item = printedItem item ↔
    (∃ s, itemValue item = .str s) ∨ isBlank (itemValue item).pyStr := by
  constructor
  · intro h
    by_cases hblank : isBlank (itemValue item).pyStr = true
    · exact .inr hblank
    · rw [printedItem, if_neg hblank] at h
      unfold itemText at h
      split at h
      · next s hs => exact .inl ⟨s, hs⟩
      · cases h
  · rintro (⟨s, hs⟩ | hblank)
    · rw [itemText, printedItem, hs]
      rfl
    · rw [printedItem, if_pos hblank]
      cases hname : itemText item with
      | none => rfl
      | some name =>
        have hprinted := printedItem_of_text hname
        rw [printedItem, if_pos hblank] at hprinted
        cases hprinted

/-- Of a list, nothing is read that is not printed. -/
theorem filterMap_itemText_sublist (items : List (Json F)) :
    (items.filterMap itemText).Sublist (items.filterMap printedItem) := by
  induction items with
  | nil => exact .slnil
  | cons item items ih =>
    cases htext : itemText item with
    | none =>
      rw [List.filterMap_cons_none htext]
      cases hprinted : printedItem item with
      | none => rwa [List.filterMap_cons_none hprinted]
      | some name => rw [List.filterMap_cons_some hprinted]; exact ih.cons name
    | some name =>
      rw [List.filterMap_cons_some htext, List.filterMap_cons_some (printedItem_of_text htext)]
      exact ih.cons_cons name

theorem textItems_subset {raw : Json F} {names : List Str} (h : anyItems raw = some names) :
    ∀ name ∈ textItems raw, name ∈ names := by
  intro name hname
  cases raw with
  | arr items =>
    cases h
    exact (filterMap_itemText_sublist items).subset hname
  | _ => exact absurd hname List.not_mem_nil

theorem filterMap_eq_iff (items : List (Json F)) :
    items.filterMap printedItem = items.filterMap itemText ↔
      ∀ item ∈ items, (∃ s, itemValue item = .str s) ∨ isBlank (itemValue item).pyStr := by
  simp only [← itemText_eq_printedItem_iff]
  constructor
  · intro h
    induction items with
    | nil => exact fun _ hitem => absurd hitem List.not_mem_nil
    | cons item items ih =>
      cases htext : itemText item with
      | some name =>
        have hprinted := printedItem_of_text htext
        rw [List.filterMap_cons_some hprinted, List.filterMap_cons_some htext] at h
        refine List.forall_mem_cons.mpr ⟨htext.trans hprinted.symm, ih (List.cons.inj h).2⟩
      | none =>
        rw [List.filterMap_cons_none htext] at h
        cases hprinted : printedItem item with
        | none =>
          rw [List.filterMap_cons_none hprinted] at h
          exact List.forall_mem_cons.mpr ⟨htext.trans hprinted.symm, ih h⟩
        | some name =>
          -- one item more is printed than is read
          rw [List.filterMap_cons_some hprinted] at h
          have hle := (filterMap_itemText_sublist items).length_le
          rw [← h, List.length_cons] at hle
          omega
  · exact fun h => List.filterMap_congr fun item hitem => (h item hitem).symm

/-- The two readings agree on lists of texts, and where there is nothing to
read. -/
theorem anyItems_eq_textItems_iff {raw : Json F} :
    anyItems raw = some (textItems raw) ↔ OnlyTexts raw := by
  have hnothing : ∀ loop : Option (List (Json F)), loop.map (List.filterMap printedItem) = some [] ↔
      ∃ items, loop = some items ∧ ∀ item ∈ items, isBlank (itemValue item).pyStr = true := by
    intro loop
    cases loop with
    | none => simp
    | some items =>
      rw [Option.map_some, Option.some_inj, List.filterMap_eq_nil_iff]
      simp [printedItem]
  cases raw with
  | arr items =>
    rw [OnlyTexts, ← filterMap_eq_iff]
    exact Option.some_inj
  | _ => exact hnothing _

end

/-! ### The fields of a payload -/

namespace ScimPayload

/-- `payload.get(name, default)`. -/
def get (p : ScimPayload F) (name : String) (default : Json F) : Json F :=
  (dictGet (lit name) p.fields).getD default

def emails (p : ScimPayload F) : Json F := p.get "emails" (.arr [])

def members (p : ScimPayload F) : Json F := p.get "members" (.arr [])

def coreFields : List Str :=
  [lit "schemas", lit "id", lit "externalId", lit "userName", lit "active", lit "displayName",
    lit "emails"]

/-- The members that are no field of SCIM. -/
def attributes (p : ScimPayload F) : List (Str × Json F) :=
  p.fields.filter fun member => member.1 ∉ coreFields

theorem joined_of_get {kvs : List (Str × Json F)} (hclean : (Json.obj kvs).Clean)
    (hjoined : (Json.obj kvs).AllJoined) {k : Str} {v : Json F} (h : dictGet k kvs = some v) :
    v.Clean ∧ v.AllJoined := by
  obtain ⟨hnd, hvalues⟩ := Json.clean_obj_iff.mp hclean
  have hmem := (dictGet_eq_some_iff hnd).mp h
  exact ⟨hvalues _ hmem, (Json.allJoined_obj_iff.mp hjoined).2 _ hmem⟩

theorem joined_get (p : ScimPayload F) {name : String} {default : Json F}
    (h : default.Clean ∧ default.AllJoined) :
    (p.get name default).Clean ∧ (p.get name default).AllJoined := by
  rw [get]
  cases hget : dictGet (lit name) p.fields with
  | none => exact h
  | some v => exact joined_of_get p.clean p.joined hget

theorem joined_itemValue {item : Json F} (hclean : item.Clean) (hjoined : item.AllJoined) :
    (itemValue item).AllJoined := by
  cases item with
  | obj kvs =>
    rw [itemValue]
    cases hget : dictGet (lit "value") kvs with
    | none => exact .null
    | some v => exact (joined_of_get hclean hjoined hget).2
  | _ => exact hjoined

/-- The e-mails that are read come back from a column as they are. -/
theorem joined_textItems {raw : Json F} (hclean : raw.Clean) (hjoined : raw.AllJoined) :
    ∀ name ∈ textItems raw, IsJoined name := by
  intro name hname
  cases hjoined with
  | @arr items hitems =>
    cases hclean with
    | arr hcleans =>
      obtain ⟨item, hitem, htext⟩ := List.mem_filterMap.mp hname
      have hvalue := joined_itemValue (hcleans item hitem) (hitems item hitem)
      unfold itemText at htext
      split at htext
      · next s hs =>
        split at htext
        · cases htext
        · cases htext
          rw [hs] at hvalue
          cases hvalue with
          | str hs => exact hs.strip
      · cases htext
  | _ => exact absurd hname List.not_mem_nil

theorem joined_emails (p : ScimPayload F) : ∀ name ∈ textItems p.emails, IsJoined name := by
  have hlist : (Json.arr [] : Json F).Clean ∧ (Json.arr [] : Json F).AllJoined :=
    ⟨.arr fun _ h => absurd h List.not_mem_nil, .arr fun _ h => absurd h List.not_mem_nil⟩
  exact joined_textItems (p.joined_get hlist).1 (p.joined_get hlist).2

theorem joined_attributes (p : ScimPayload F) :
    (Json.obj p.attributes).Clean ∧ (Json.obj p.attributes).AllJoined := by
  obtain ⟨hnd, hcleans⟩ := Json.clean_obj_iff.mp p.clean
  obtain ⟨hkeys, hvalues⟩ := Json.allJoined_obj_iff.mp p.joined
  have hsub : ∀ {member}, member ∈ p.attributes → member ∈ p.fields :=
    fun h => (List.mem_filter.mp h).1
  exact ⟨.obj (hnd.sublist (List.filter_sublist.map _)) fun member h => hcleans member (hsub h),
    .obj (fun member h => hkeys member (hsub h)) fun member h => hvalues member (hsub h)⟩

/-- The attributes come back from a column with their keys sorted. -/
theorem readBack_attributes (p : ScimPayload F) :
    (Json.obj p.attributes).readBack = .obj (sortedFields p.attributes) := by
  obtain ⟨hclean, hjoined⟩ := p.joined_attributes
  rw [Json.readBack_of_allJoined hjoined hclean, Json.sortKeys, sortedFields]

variable [PyBuiltins F]

/-- `str(payload.get("userName", "")).strip()`. -/
def userName (p : ScimPayload F) : Str := strip (p.get "userName" (.str [])).pyStr

/-- `str(payload.get("displayName", ""))`. -/
def displayName (p : ScimPayload F) : Str := (p.get "displayName" (.str [])).pyStr

/-- `str(payload.get("id") or uuid.uuid4())`. -/
def id (p : ScimPayload F) (fresh : Str) : Str :=
  if (p.get "id" .null).truthy then (p.get "id" .null).pyStr else fresh

/-- `bool(payload.get("active", True))`. -/
def active (p : ScimPayload F) : Bool := (p.get "active" (.bool true)).truthy

/-- `str(payload.get("externalId", "") or "")`. -/
def externalId (p : ScimPayload F) : Str :=
  if (p.get "externalId" (.str [])).truthy then (p.get "externalId" (.str [])).pyStr else []

/-- The user of a payload, under an id and with the e-mails that were read. -/
def user (p : ScimPayload F) (userId : Str) (emails : List Str) : SCIMUser F where
  id := userId
  userName := p.userName
  active := p.active
  displayName := p.displayName
  emails := emails
  externalId := p.externalId
  attributes := p.attributes

/-- The group of a payload, under an id and with the members that were read. -/
def group (p : ScimPayload F) (groupId : Str) (members : List Str) : SCIMGroup where
  id := groupId
  displayName := strip p.displayName
  members := members.toFinset
  externalId := p.externalId

/-- The same members, listed otherwise. -/
theorem group_congr {p : ScimPayload F} {groupId : Str} {names names' : List Str}
    (h : ∀ name ∈ names, name ∈ names') (h' : ∀ name ∈ names', name ∈ names) :
    p.group groupId names = p.group groupId names' := by
  have hmembers : names.toFinset = names'.toFinset := by
    ext name
    rw [List.mem_toFinset, List.mem_toFinset]
    exact ⟨h name, h' name⟩
  rw [group, group, hmembers]

theorem subset_of_group_eq {p : ScimPayload F} {groupId : Str} {names names' : List Str}
    (h : p.group groupId names' = p.group groupId names) : ∀ name ∈ names, name ∈ names' := by
  intro name hname
  have hmembers : names'.toFinset = names.toFinset := congrArg SCIMGroup.members h
  rwa [← List.mem_toFinset, hmembers, List.mem_toFinset]

end ScimPayload

def userNameRequired : PyExc := .valueError (lit "SCIM userName is required")

def groupNameRequired : PyExc := .valueError (lit "SCIM group displayName is required")

def userExists (userName : Str) : PyExc :=
  .valueError (lit "SCIM userName already exists: " ++ userName)

def groupExists (displayName : Str) : PyExc :=
  .valueError (lit "SCIM group already exists: " ++ displayName)

/-- `unknown` are the members, sorted. -/
def unknownUsers (F : Type) [PyBuiltins F] (unknown : List Str) : PyExc :=
  .valueError (lit "SCIM group references unknown users: " ++
    Json.pyStr (.arr (unknown.map .str) : Json F))

end AgentRoi
