/-
Python strings, as far as the package uses them.

A Python `str` is a sequence of code points, lone surrogates included, so it
is a list of numbers here and not a Lean `String`.  What the rest of the
development needs from it:

* `strip` — `str.strip()`, which the validators apply to names and subjects;
* `encodeUtf8` — `str.encode("utf-8")`, undefined on a lone surrogate, where
  Python raises `UnicodeEncodeError`; it is injective where it is defined
  (`encodeUtf8_inj`);
* `intText` — `str(int)`, with `natDigits` for the digits alone.
-/
import Mathlib.Data.List.Sort
import Mathlib.Data.List.Lex
import Mathlib.Data.List.DropRight
import Mathlib.Data.List.TakeWhile
import Mathlib.Data.Nat.Digits.Lemmas

namespace AgentRoi

/-- A Python string: its code points. -/
abbrev Str := List Nat

instance instLawfulBEqStr : LawfulBEq Str := inferInstance

/-- The code points of a literal. -/
def lit (s : String) : Str := s.toList.map Char.toNat

/-- The code points `str.strip()` removes from both ends. -/
def isSpace (c : Nat) : Bool :=
  (0x09 ≤ c && c ≤ 0x0D) || (0x1C ≤ c && c ≤ 0x20) || c == 0x85 || c == 0xA0 ||
    c == 0x1680 || (0x2000 ≤ c && c ≤ 0x200A) || c == 0x2028 || c == 0x2029 ||
    c == 0x202F || c == 0x205F || c == 0x3000

/-- `str.strip()`. -/
def strip (s : Str) : Str :=
  ((s.dropWhile isSpace).reverse.dropWhile isSpace).reverse

/-- `not s.strip()`. -/
def isBlank (s : Str) : Bool := s.all isSpace

theorem strip_eq_nil_iff {s : Str} : strip s = [] ↔ isBlank s = true := by
  simp only [strip, isBlank, List.reverse_eq_nil_iff, List.dropWhile_eq_nil_iff,
    List.mem_reverse, List.all_eq_true]
  constructor
  · intro h c hc
    by_contra hns
    -- the first code point that is no space survives the first pass
    have hne : s.dropWhile isSpace ≠ [] := by
      rw [ne_eq, List.dropWhile_eq_nil_iff]
      exact fun hall => hns (hall c hc)
    obtain ⟨d, rest, hd⟩ := List.exists_cons_of_ne_nil hne
    have hhead := List.head_dropWhile_not isSpace (l := s) hne
    simp only [hd, List.head_cons] at hhead
    have := h d (by simp [hd])
    rw [hhead] at this
    exact absurd this (by simp)
  · intro h c hc
    exact h c ((List.dropWhile_suffix _).subset hc)

/-- Trimming twice is trimming once. -/
theorem strip_strip (s : Str) : strip (strip s) = strip s := by
  have hfront : (strip s).dropWhile isSpace = strip s := by
    rw [List.dropWhile_eq_self_iff]
    intro hl
    -- the first code point is the one that survived the first pass
    have hpre : strip s <+: s.dropWhile isSpace := List.rdropWhile_prefix isSpace _
    have hne : s.dropWhile isSpace ≠ [] := by
      intro h
      rw [h, List.prefix_nil] at hpre
      rw [hpre] at hl
      exact absurd hl (lt_irrefl 0)
    have hhead := List.head_dropWhile_not isSpace hne
    have hget := hpre.getElem hl
    rw [hget, ← List.head_eq_getElem hne, hhead]
    exact Bool.false_ne_true
  show ((strip s).dropWhile isSpace).rdropWhile isSpace = strip s
  rw [hfront]
  exact List.rdropWhile_idempotent isSpace _

theorem isBlank_strip (s : Str) : isBlank (strip s) = isBlank s := by
  rw [Bool.eq_iff_iff, ← strip_eq_nil_iff, ← strip_eq_nil_iff, strip_strip]

/-- A text is what is left of it between spaces. -/
theorem exists_eq_append_strip (s : Str) : ∃ before after, s = before ++ (strip s ++ after) ∧
    (∀ c ∈ before, isSpace c = true) ∧ ∀ c ∈ after, isSpace c = true := by
  refine ⟨s.takeWhile isSpace, (s.dropWhile isSpace).rtakeWhile isSpace, ?_,
    fun c hc => List.mem_takeWhile_imp hc, fun c hc => List.mem_rtakeWhile_imp hc⟩
  have hback : (s.dropWhile isSpace).rdropWhile isSpace ++
      (s.dropWhile isSpace).rtakeWhile isSpace = s.dropWhile isSpace := by
    rw [List.rdropWhile, List.rtakeWhile, ← List.reverse_append, List.takeWhile_append_dropWhile,
      List.reverse_reverse]
  show s = _ ++ ((s.dropWhile isSpace).rdropWhile isSpace ++ _)
  rw [hback, List.takeWhile_append_dropWhile]

/-- A text without spaces is stripped of nothing. -/
theorem strip_of_forall {s : Str} (h : ∀ c ∈ s, isSpace c = false) : strip s = s := by
  have hdrop : ∀ t : Str, (∀ c ∈ t, isSpace c = false) → t.dropWhile isSpace = t := by
    intro t ht
    cases t with
    | nil => rfl
    | cons c t => rw [List.dropWhile_cons, ht c List.mem_cons_self, if_neg Bool.false_ne_true]
  rw [strip, hdrop s h, hdrop s.reverse fun c hc => h c (List.mem_reverse.mp hc),
    List.reverse_reverse]

/-! ### UTF-8 -/

/-- The Unicode scalar value at a code point; none at a surrogate. -/
def toChar? (c : Nat) : Option Char :=
  if h : c.isValidChar then some ⟨UInt32.ofNatLT c (by
    rcases h with h | ⟨_, h⟩ <;> simp [UInt32.size] <;> omega), by
      simpa [UInt32.isValidChar] using h⟩
  else none

/-- `s.encode("utf-8")`: none is Python's `UnicodeEncodeError`. -/
def encodeUtf8 (s : Str) : Option (List UInt8) :=
  (s.mapM toChar?).map fun cs => cs.flatMap String.utf8EncodeChar

theorem toChar?_toNat {c : Nat} {ch : Char} (h : toChar? c = some ch) : ch.toNat = c := by
  unfold toChar? at h
  split at h
  · cases h
    simp [Char.toNat]
  · cases h

theorem mapM_toChar?_inj : ∀ {s t : Str} {cs : List Char},
    s.mapM toChar? = some cs → t.mapM toChar? = some cs → s = t := by
  have key : ∀ {s : Str} {cs : List Char}, s.mapM toChar? = some cs →
      cs.map Char.toNat = s := by
    intro s
    induction s with
    | nil =>
      intro cs h
      simp only [List.mapM_nil, Option.pure_def, Option.some.injEq] at h
      subst h
      rfl
    | cons c s ih =>
      intro cs h
      simp only [List.mapM_cons, Option.pure_def, Option.bind_eq_bind,
        Option.bind_eq_some_iff, Option.some.injEq] at h
      obtain ⟨ch, hch, cs', hcs, rfl⟩ := h
      simp [toChar?_toNat hch, ih hcs]
  intro s t cs hs ht
  rw [← key hs, ← key ht]

theorem flatMap_utf8EncodeChar_inj {cs ds : List Char}
    (h : cs.flatMap String.utf8EncodeChar = ds.flatMap String.utf8EncodeChar) : cs = ds := by
  have he : cs.utf8Encode = ds.utf8Encode := by
    simp only [List.utf8Encode, h]
  refine String.ofList_injective ?_
  rw [← String.toByteArray_inj, String.toByteArray_ofList, String.toByteArray_ofList, he]

/-- UTF-8 keeps distinct strings distinct. -/
theorem encodeUtf8_inj {s t : Str} {bs : List UInt8}
    (hs : encodeUtf8 s = some bs) (ht : encodeUtf8 t = some bs) : s = t := by
  simp only [encodeUtf8, Option.map_eq_some_iff] at hs ht
  obtain ⟨cs, hcs, hb⟩ := hs
  obtain ⟨ds, hds, hb'⟩ := ht
  have := flatMap_utf8EncodeChar_inj (hb.trans hb'.symm)
  subst this
  exact mapM_toChar?_inj hcs hds

/-- Text below the surrogates can be encoded. -/
theorem encodeUtf8_isSome_of_lt {s : Str} (h : ∀ c ∈ s, c < 0xD800) : (encodeUtf8 s).isSome := by
  have hmap : ∃ cs, s.mapM toChar? = some cs := by
    induction s with
    | nil => exact ⟨[], rfl⟩
    | cons c s ih =>
      obtain ⟨cs, hcs⟩ := ih fun d hd => h d (List.mem_cons_of_mem _ hd)
      have hvalid : c.isValidChar := .inl (h c List.mem_cons_self)
      obtain ⟨ch, hch⟩ : ∃ ch, toChar? c = some ch := by
        rw [toChar?, dif_pos hvalid]
        exact ⟨_, rfl⟩
      refine ⟨ch :: cs, ?_⟩
      rw [List.mapM_cons, hch, hcs]
      rfl
  obtain ⟨cs, hcs⟩ := hmap
  rw [encodeUtf8, hcs]
  rfl

theorem mem_intercalate {c : Nat} {sep : Str} {texts : List Str}
    (h : c ∈ sep.intercalate texts) : c ∈ sep ∨ ∃ text ∈ texts, c ∈ text := by
  induction texts with
  | nil => exact absurd h List.not_mem_nil
  | cons text texts ih =>
    cases texts with
    | nil =>
      rw [List.intercalate_singleton] at h
      exact .inr ⟨text, List.mem_cons_self, h⟩
    | cons next rest =>
      simp only [List.intercalate_cons_cons, List.mem_append, or_assoc] at h
      rcases h with htext | hsep | hrest
      · exact .inr ⟨text, List.mem_cons_self, htext⟩
      · exact .inl hsep
      · rcases ih hrest with hsep | ⟨other, hmem, hc⟩
        · exact .inl hsep
        · exact .inr ⟨other, List.mem_cons_of_mem text hmem, hc⟩

/-! ### Decimal digits -/

/-- Is `c` an ASCII digit? -/
def isDigit (c : Nat) : Bool := 48 ≤ c && c ≤ 57

/-- The decimal digits of `n`, most significant first. -/
def natDigits (n : Nat) : Str :=
  if n = 0 then [48] else ((Nat.digits 10 n).map (48 + ·)).reverse

/-- The number a digit string denotes. -/
def ofDigits (s : Str) : Nat := s.foldl (fun acc c => 10 * acc + (c - 48)) 0

/-- `str(int)`. -/
def intText (i : Int) : Str :=
  if i < 0 then 45 :: natDigits i.natAbs else natDigits i.natAbs

theorem natDigits_ne_nil (n : Nat) : natDigits n ≠ [] := by
  unfold natDigits
  split
  · simp
  · rename_i h
    simp [Nat.digits_ne_nil_iff_ne_zero.mpr h]

theorem natDigits_all_digit (n : Nat) : ∀ c ∈ natDigits n, isDigit c = true := by
  intro c hc
  unfold natDigits at hc
  split at hc
  · simp only [List.mem_singleton] at hc
    subst hc
    rfl
  · simp only [List.mem_reverse, List.mem_map] at hc
    obtain ⟨d, hd, rfl⟩ := hc
    have := Nat.digits_lt_base (by norm_num : 1 < 10) hd
    simp [isDigit]
    omega

theorem ofDigits_natDigits (n : Nat) : ofDigits (natDigits n) = n := by
  have hfold : ∀ ds : List Nat,
      ((ds.map (48 + ·)).reverse).foldl (fun acc c => 10 * acc + (c - 48)) 0
        = Nat.ofDigits 10 ds := by
    intro ds
    rw [List.foldl_reverse]
    induction ds with
    | nil => simp
    | cons d ds ih =>
      simp only [List.map_cons, List.foldr_cons, ih, Nat.ofDigits_cons]
      omega
  unfold ofDigits natDigits
  split
  · rename_i h
    subst h
    rfl
  · rw [hfold, Nat.ofDigits_digits]

/-- The digits do not start with a superfluous zero. -/
theorem natDigits_head_zero {n : Nat} {rest : Str} (h : natDigits n = 48 :: rest) :
    rest = [] := by
  unfold natDigits at h
  split at h
  · simpa using h.symm
  · rename_i hn
    have hne : Nat.digits 10 n ≠ [] := Nat.digits_ne_nil_iff_ne_zero.mpr hn
    have hlast := Nat.getLast_digit_ne_zero 10 hn
    have hhead : (((Nat.digits 10 n).map (48 + ·)).reverse).head (by simpa using hne) = 48 := by
      simp only [h, List.head_cons]
    rw [List.head_reverse, List.getLast_map] at hhead
    omega

end AgentRoi
