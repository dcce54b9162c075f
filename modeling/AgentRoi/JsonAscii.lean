/-
What `json.loads` makes of a text that `json.dumps` wrote with `sort_keys`, and
with the escapes of `ensure_ascii`.

A high surrogate that stands before a low one is read back as one code point;
a text that came out of JSON has none.

* `joinSurrogates`, `IsJoined` — reading the escapes, and the texts it keeps;
* `Json.readBack` — the value read back;
* `Json.AllJoined`, `readBack_of_allJoined` — a value whose texts came out of
  JSON comes back with its keys sorted.
-/
import AgentRoi.Json
import Mathlib.Data.List.Chain

namespace AgentRoi

/-- A high surrogate before a low one. -/
def IsPair (c d : ℕ) : Prop := (0xD800 ≤ c ∧ c < 0xDC00) ∧ 0xDC00 ≤ d ∧ d < 0xE000

instance (c d : ℕ) : Decidable (IsPair c d) := inferInstanceAs (Decidable (_ ∧ _))

/-- The text that is read from the escapes of a text. -/
def joinSurrogates : Str → Str
  | [] => []
  | [c] => [c]
  | c :: d :: s =>
    if IsPair c d then (0x10000 + (c - 0xD800) * 0x400 + (d - 0xDC00)) :: joinSurrogates s
    else c :: joinSurrogates (d :: s)

/-- No high surrogate stands before a low one. -/
def IsJoined (s : Str) : Prop := s.IsChain fun c d => ¬ IsPair c d

theorem joinSurrogates_of_isJoined {s : Str} (h : IsJoined s) : joinSurrogates s = s := by
  induction s with
  | nil => rfl
  | cons c s ih =>
    cases s with
    | nil => rfl
    | cons d s =>
      obtain ⟨hcd, hrest⟩ := List.isChain_cons_cons.mp h
      rw [joinSurrogates, if_neg hcd, ih hrest]

theorem IsJoined.strip {s : Str} (h : IsJoined s) : IsJoined (strip s) := by
  obtain ⟨before, after, hs, -⟩ := exists_eq_append_strip s
  refine List.IsChain.infix h ⟨before, after, ?_⟩
  rw [List.append_assoc]
  exact hs.symm

/-- Text below the surrogates. -/
theorem isJoined_of_lt {s : Str} (h : ∀ c ∈ s, c < 0xD800) : IsJoined s := by
  induction s with
  | nil => exact .nil
  | cons c s ih =>
    refine List.isChain_cons.mpr ⟨fun d _ hpair => ?_, ih fun d hd => h d (List.mem_cons_of_mem _ hd)⟩
    exact absurd hpair.1.1 (Nat.not_le.mpr (h c List.mem_cons_self))

namespace Json

variable {F : Type}

mutual
/-- `json.loads` of `json.dumps`, members in the order they stand. -/
def joinTexts : Json F → Json F
  | .null => .null
  | .bool b => .bool b
  | .int i => .int i
  | .float x => .float x
  | .str s => .str (joinSurrogates s)
  | .arr xs => .arr (joinItems xs)
  | .obj kvs => .obj (dictOf (joinMembers kvs))

def joinItems : List (Json F) → List (Json F)
  | [] => []
  | x :: xs => joinTexts x :: joinItems xs

def joinMembers : List (Str × Json F) → List (Str × Json F)
  | [] => []
  | (k, v) :: kvs => (joinSurrogates k, joinTexts v) :: joinMembers kvs
end

/-- `json.loads(json.dumps(value, sort_keys=True))`. -/
def readBack (j : Json F) : Json F := j.sortKeys.joinTexts

/-- Every text, and every key, is one that JSON can have been read as. -/
inductive AllJoined : Json F → Prop
  | null : AllJoined .null
  | bool (b : Bool) : AllJoined (.bool b)
  | int (i : Int) : AllJoined (.int i)
  | float (x : FloatVal F) : AllJoined (.float x)
  | str {s : Str} : IsJoined s → AllJoined (.str s)
  | arr {xs : List (Json F)} : (∀ x ∈ xs, AllJoined x) → AllJoined (.arr xs)
  | obj {kvs : List (Str × Json F)} : (∀ p ∈ kvs, IsJoined p.1) →
      (∀ p ∈ kvs, AllJoined p.2) → AllJoined (.obj kvs)

theorem allJoined_obj_iff {kvs : List (Str × Json F)} :
    AllJoined (.obj kvs) ↔ (∀ p ∈ kvs, IsJoined p.1) ∧ ∀ p ∈ kvs, AllJoined p.2 :=
  ⟨fun | .obj h h' => ⟨h, h'⟩, fun h => .obj h.1 h.2⟩

theorem joinItems_eq_self {xs : List (Json F)} (h : ∀ x ∈ xs, joinTexts x = x) :
    joinItems xs = xs := by
  induction xs with
  | nil => rfl
  | cons x xs ih =>
    rw [joinItems, h x List.mem_cons_self, ih fun y hy => h y (List.mem_cons_of_mem _ hy)]

theorem joinMembers_eq_self {kvs : List (Str × Json F)} (hkeys : ∀ p ∈ kvs, IsJoined p.1)
    (h : ∀ p ∈ kvs, joinTexts p.2 = p.2) : joinMembers kvs = kvs := by
  induction kvs with
  | nil => rfl
  | cons p kvs ih =>
    rcases p with ⟨k, v⟩
    rw [joinMembers, joinSurrogates_of_isJoined (hkeys (k, v) List.mem_cons_self),
      h (k, v) List.mem_cons_self, ih (fun q hq => hkeys q (List.mem_cons_of_mem _ hq))
        fun q hq => h q (List.mem_cons_of_mem _ hq)]

theorem AllJoined.joinTexts {j : Json F} (h : j.AllJoined) (hd : j.Distinct) :
    j.joinTexts = j := by
  induction h with
  | str hs => rw [Json.joinTexts, joinSurrogates_of_isJoined hs]
  | @arr xs _ ih =>
    cases hd with
    | arr hd => rw [Json.joinTexts, joinItems_eq_self fun x hx => ih x hx (hd x hx)]
  | @obj kvs hkeys _ ih =>
    obtain ⟨hnd, hd⟩ := distinct_obj_iff.mp hd
    rw [Json.joinTexts, joinMembers_eq_self hkeys fun p hp => ih p hp (hd p hp),
      dictOf_of_nodup hnd]
  | _ => rfl

theorem AllJoined.sortKeys {j : Json F} (h : j.AllJoined) : j.sortKeys.AllJoined := by
  induction h with
  | str hs => exact .str hs
  | arr _ ih =>
    rw [sortKeys_arr]
    refine .arr fun y hy => ?_
    obtain ⟨x, hx, rfl⟩ := List.mem_map.mp hy
    exact ih x hx
  | obj hkeys _ ih =>
    rw [sortKeys_obj]
    refine .obj (fun q hq => ?_) fun q hq => ?_
    · obtain ⟨p, hp, rfl⟩ := List.mem_map.mp hq
      exact hkeys p (mem_sortByKey.mp hp)
    · obtain ⟨p, hp, rfl⟩ := List.mem_map.mp hq
      exact ih p (mem_sortByKey.mp hp)
  | _ => constructor

/-- A value that was read from JSON comes back with its keys sorted. -/
theorem readBack_of_allJoined {j : Json F} (h : j.AllJoined) (hclean : j.Clean) :
    j.readBack = j.sortKeys :=
  h.sortKeys.joinTexts hclean.sortKeys.distinct

end Json

end AgentRoi
