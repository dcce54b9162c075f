/-
Text on the wire: UTF-8, percent-encoding, and JSON that both can carry.

* `Scalars` — a text without lone surrogates, which is what UTF-8 encodes
  (`encodeUtf8_isSome_iff`);
* `decodeUtf8`, `decodeUtf8_encodeUtf8` — bytes read back as the text they
  were written from;
* `unquote`, `unquote_quote` — `urllib.parse.unquote` undoes `quote`;
* `Json.scalars_render_obj`, `Json.scalars_render_sortKeys` — when the text of
  a JSON value is one that UTF-8 encodes.
-/
import AgentRoi.ControlPlaneClients

namespace AgentRoi

/-! ### UTF-8 -/

/-- No code point of the text is a surrogate. -/
def Scalars (s : Str) : Prop := ∀ c ∈ s, Nat.isValidChar c

theorem toChar?_isSome_iff {c : Nat} : (toChar? c).isSome ↔ Nat.isValidChar c := by
  unfold toChar?
  split_ifs with h
  · exact iff_of_true rfl h
  · exact iff_of_false Bool.false_ne_true h

theorem mapM_toChar?_isSome_iff {s : Str} : (s.mapM toChar?).isSome ↔ Scalars s := by
  induction s with
  | nil => simp [Scalars]
  | cons c s ih =>
    have hc := toChar?_isSome_iff (c := c)
    rw [Scalars, List.forall_mem_cons, ← hc]
    rw [Scalars] at ih
    rw [← ih, List.mapM_cons]
    cases toChar? c <;> cases s.mapM toChar? <;> simp

/-- UTF-8 encodes the texts without surrogates. -/
theorem encodeUtf8_isSome_iff {s : Str} : (encodeUtf8 s).isSome ↔ Scalars s := by
  rw [encodeUtf8, Option.isSome_map, mapM_toChar?_isSome_iff]

theorem scalars_append {s t : Str} : Scalars (s ++ t) ↔ Scalars s ∧ Scalars t :=
  List.forall_mem_append

theorem scalars_cons {c : Nat} {s : Str} :
    Scalars (c :: s) ↔ Nat.isValidChar c ∧ Scalars s := List.forall_mem_cons

theorem scalars_of_lt {s : Str} (h : ∀ c ∈ s, c < 0xD800) : Scalars s :=
  fun c hc => .inl (h c hc)

theorem exists_encodeUtf8 {s : Str} (h : Scalars s) : ∃ bytes, encodeUtf8 s = some bytes :=
  Option.isSome_iff_exists.mp (encodeUtf8_isSome_iff.mpr h)

/-- `data.decode("utf-8")`; none where it raises. -/
def decodeUtf8 (bytes : List UInt8) : Option Str :=
  bytes.toByteArray.utf8Decode?.map fun chars => chars.toList.map Char.toNat

theorem map_toNat_of_mapM_toChar? {s : Str} {cs : List Char} (h : s.mapM toChar? = some cs) :
    cs.map Char.toNat = s := by
  induction s generalizing cs with
  | nil =>
    cases h
    rfl
  | cons c s ih =>
    simp only [List.mapM_cons, Option.pure_def, Option.bind_eq_bind, Option.bind_eq_some_iff,
      Option.some.injEq] at h
    obtain ⟨ch, hch, cs', hcs, rfl⟩ := h
    rw [List.map_cons, toChar?_toNat hch, ih hcs]

/-- What was written reads back. -/
theorem decodeUtf8_encodeUtf8 {s : Str} {bytes : List UInt8} (h : encodeUtf8 s = some bytes) :
    decodeUtf8 bytes = some s := by
  obtain ⟨cs, hcs, rfl⟩ := Option.map_eq_some_iff.mp h
  show Option.map _ (List.utf8Encode cs).utf8Decode? = _
  rw [List.utf8Decode?_utf8Encode, Option.map_some]
  exact congrArg some (map_toNat_of_mapM_toChar? hcs)

/-! ### Percent-encoding -/

/-- The value of an uppercase hexadecimal digit as `quote` writes it, and of
the lowercase ones `unquote` reads as well. -/
def percentDigit (c : Nat) : Option Nat :=
  if 48 ≤ c ∧ c ≤ 57 then some (c - 48)
  else if 65 ≤ c ∧ c ≤ 70 then some (c - 55)
  else if 97 ≤ c ∧ c ≤ 102 then some (c - 87)
  else none

/-- `urllib.parse.unquote_to_bytes` on ASCII text: a percent sign before two
hexadecimal digits is a byte, everything else stands for itself. -/
def unquoteBytes : Str → List UInt8
  | c :: high :: low :: rest =>
    match c == 37, percentDigit high, percentDigit low with
    | true, some h, some l => UInt8.ofNat (16 * h + l) :: unquoteBytes rest
    | _, _, _ => UInt8.ofNat c :: unquoteBytes (high :: low :: rest)
  | c :: rest => UInt8.ofNat c :: unquoteBytes rest
  | [] => []

/-- `urllib.parse.unquote`; none where it would put a replacement character. -/
def unquote (text : Str) : Option Str := decodeUtf8 (unquoteBytes text)

/-- The bytes `quote` leaves as they are. -/
def Unreserved (b : UInt8) : Prop :=
  (48 ≤ b ∧ b ≤ 57) ∨ (65 ≤ b ∧ b ≤ 90) ∨ (97 ≤ b ∧ b ≤ 122) ∨ b ∈ [45, 46, 95, 126]

instance (b : UInt8) : Decidable (Unreserved b) := inferInstanceAs (Decidable (_ ∨ _))

/-- A byte as it stands in a quoted text. -/
def quoteByte (b : UInt8) : Str := if Unreserved b then [b.toNat] else percentByte b

theorem quote_eq (text : Str) : quote text =
    match encodeUtf8 text with
    | none => .error .unicodeEncodeError
    | some bytes => .ok (bytes.flatMap quoteByte) := rfl

theorem percentDigit_of_lt {n : Nat} (h : n < 16) :
    percentDigit (if n < 10 then 48 + n else 55 + n) = some n := by
  unfold percentDigit
  by_cases h10 : n < 10
  · rw [if_pos h10, if_pos (by omega)]
    exact congrArg some (by omega)
  · rw [if_neg h10, if_neg (by omega), if_pos (by omega)]
    exact congrArg some (by omega)

theorem unquoteBytes_percentByte (b : UInt8) (rest : Str) :
    unquoteBytes (percentByte b ++ rest) = b :: unquoteBytes rest := by
  have hb : b.toNat < 256 := b.toNat_lt
  have hhigh := percentDigit_of_lt (n := b.toNat / 16) (by omega)
  have hlow := percentDigit_of_lt (n := b.toNat % 16) (by omega)
  have hbyte : UInt8.ofNat (16 * (b.toNat / 16) + b.toNat % 16) = b := by
    rw [Nat.div_add_mod]
    exact UInt8.ofNat_toNat
  simp only [percentByte, List.cons_append, List.nil_append]
  rw [unquoteBytes]
  simp only [hhigh, hlow, hbyte, beq_self_eq_true]

theorem unquoteBytes_cons {c : Nat} (h : c ≠ 37) (rest : Str) :
    unquoteBytes (c :: rest) = UInt8.ofNat c :: unquoteBytes rest := by
  have hne : (c == 37) = false := beq_eq_false_iff_ne.mpr h
  match rest with
  | [] => rfl
  | [_] => rfl
  | high :: low :: rest => rw [unquoteBytes, hne]

theorem ne_percent_of_unreserved {b : UInt8} (h : Unreserved b) : b.toNat ≠ 37 := by
  intro h37
  have hb : b = 37 := UInt8.toNat_inj.mp h37
  subst hb
  exact absurd h (by decide)

theorem unquoteBytes_quoteByte (b : UInt8) (rest : Str) :
    unquoteBytes (quoteByte b ++ rest) = b :: unquoteBytes rest := by
  unfold quoteByte
  split_ifs with h
  · rw [List.singleton_append, unquoteBytes_cons (ne_percent_of_unreserved h)]
    exact congrArg (· :: unquoteBytes rest) UInt8.ofNat_toNat
  · exact unquoteBytes_percentByte b rest

theorem unquoteBytes_flatMap (bytes : List UInt8) :
    unquoteBytes (bytes.flatMap quoteByte) = bytes := by
  induction bytes with
  | nil => rfl
  | cons b bytes ih => rw [List.flatMap_cons, unquoteBytes_quoteByte, ih]

/-- What was quoted is read as it was. -/
theorem unquote_quote {text quoted : Str} (h : quote text = .ok quoted) :
    unquote quoted = some text := by
  rw [quote_eq] at h
  cases hb : encodeUtf8 text with
  | none =>
    rw [hb] at h
    cases h
  | some bytes =>
    rw [hb] at h
    cases h
    rw [unquote, unquoteBytes_flatMap, decodeUtf8_encodeUtf8 hb]

theorem quote_eq_ok {text : Str} (h : Scalars text) : ∃ quoted, quote text = .ok quoted := by
  obtain ⟨bytes, hbytes⟩ := exists_encodeUtf8 h
  exact ⟨_, by rw [quote_eq, hbytes]⟩

/-- A quoted text has no plus sign, no slash and no question mark in it. -/
theorem mem_quote {text quoted : Str} (h : quote text = .ok quoted) :
    ∀ c ∈ quoted, c ≠ 43 ∧ c ≠ 47 ∧ c ≠ 63 := by
  rw [quote_eq] at h
  cases hb : encodeUtf8 text with
  | none =>
    rw [hb] at h
    cases h
  | some bytes =>
    rw [hb] at h
    cases h
    intro c hc
    obtain ⟨b, -, hc⟩ := List.mem_flatMap.mp hc
    have hlt : b.toNat < 256 := b.toNat_lt
    unfold quoteByte at hc
    split_ifs at hc with hu
    · rw [List.mem_singleton] at hc
      subst hc
      have hne : ∀ other : UInt8, ¬ Unreserved other → b.toNat ≠ other.toNat := by
        intro other hother heq
        exact hother (UInt8.toNat_inj.mp heq ▸ hu)
      exact ⟨hne 43 (by decide), hne 47 (by decide), hne 63 (by decide)⟩
    · simp only [percentByte, List.mem_cons, List.not_mem_nil, or_false] at hc
      rcases hc with rfl | rfl | rfl
      · decide
      · split_ifs <;> omega
      · split_ifs <;> omega

/-! ### JSON -/

namespace Json

variable {F : Type} [PyFloat F]

theorem escapeChar_lt {c : Nat} (h : c < 93) : ∀ d ∈ escapeChar c, d < 0xD800 := by
  have hhex : ∀ n, n < 16 → hexDigit n < 0xD800 := fun n hn => by unfold hexDigit; split <;> omega
  have hhigh := hhex (c / 16)
  have hlow := hhex (c % 16)
  unfold escapeChar
  split_ifs <;> intro d hd <;>
    simp only [List.mem_cons, List.not_mem_nil, or_false] at hd <;> omega

theorem scalars_escapeChar {c : Nat} : Scalars (escapeChar c) ↔ Nat.isValidChar c := by
  by_cases h : c < 93
  · -- every escaped code point is ASCII, and so is its escape
    have hc : Nat.isValidChar c := .inl (by omega)
    exact iff_of_true (scalars_of_lt (escapeChar_lt h)) hc
  · have hself : escapeChar c = [c] := by
      unfold escapeChar
      split_ifs <;> first | omega | rfl
    rw [hself, Scalars, List.forall_mem_singleton]

theorem scalars_quote {s : Str} : Scalars (Json.quote s) ↔ Scalars s := by
  have h34 : Nat.isValidChar 34 := .inl (by omega)
  rw [Json.quote, scalars_cons, scalars_append, scalars_cons]
  have hflat : Scalars (s.flatMap escapeChar) ↔ Scalars s := by
    induction s with
    | nil => rfl
    | cons c s ih => rw [List.flatMap_cons, scalars_append, scalars_escapeChar, scalars_cons, ih]
  rw [hflat]
  exact ⟨fun h => h.2.1, fun h => ⟨h34, h, h34, by simp [Scalars]⟩⟩

theorem scalars_renderItems {xs : List (Json F)} :
    Scalars (renderItems xs) ↔ ∀ x ∈ xs, Scalars (render x) := by
  induction xs with
  | nil =>
    rw [renderItems]
    exact ⟨fun _ x hx => absurd hx List.not_mem_nil, fun _ => scalars_of_lt (by decide)⟩
  | cons x xs ih =>
    have h44 : Nat.isValidChar 44 := .inl (by omega)
    rw [renderItems, scalars_cons, scalars_append, ih, List.forall_mem_cons]
    exact and_iff_right h44

theorem scalars_renderMembers {kvs : List (Str × Json F)} :
    Scalars (renderMembers kvs) ↔ ∀ p ∈ kvs, Scalars p.1 ∧ Scalars (render p.2) := by
  induction kvs with
  | nil =>
    rw [renderMembers]
    exact ⟨fun _ x hx => absurd hx List.not_mem_nil, fun _ => scalars_of_lt (by decide)⟩
  | cons p kvs ih =>
    obtain ⟨k, v⟩ := p
    have h44 : Nat.isValidChar 44 := .inl (by omega)
    have h58 : Nat.isValidChar 58 := .inl (by omega)
    rw [renderMembers, scalars_cons, scalars_append, scalars_cons, scalars_append, scalars_quote,
      ih, List.forall_mem_cons]
    simp only [h44, h58, true_and, and_assoc]

/-- The text of an object can be encoded when its names and values can. -/
theorem scalars_render_obj {kvs : List (Str × Json F)} :
    Scalars (render (.obj kvs)) ↔ ∀ p ∈ kvs, Scalars p.1 ∧ Scalars (render p.2) := by
  cases kvs with
  | nil =>
    rw [render]
    exact ⟨fun _ x hx => absurd hx List.not_mem_nil, fun _ => scalars_of_lt (by decide)⟩
  | cons p kvs =>
    obtain ⟨k, v⟩ := p
    have h123 : Nat.isValidChar 123 := .inl (by omega)
    have h58 : Nat.isValidChar 58 := .inl (by omega)
    rw [render, scalars_cons, scalars_append, scalars_cons, scalars_append, scalars_quote,
      scalars_renderMembers, List.forall_mem_cons]
    simp only [h123, h58, true_and, and_assoc]

theorem scalars_render_arr {xs : List (Json F)} :
    Scalars (render (.arr xs)) ↔ ∀ x ∈ xs, Scalars (render x) := by
  cases xs with
  | nil =>
    rw [render]
    exact ⟨fun _ x hx => absurd hx List.not_mem_nil, fun _ => scalars_of_lt (by decide)⟩
  | cons x xs =>
    have h91 : Nat.isValidChar 91 := .inl (by omega)
    rw [render, scalars_cons, scalars_append, scalars_renderItems, List.forall_mem_cons]
    exact and_iff_right h91

/-- The order of the members does not count. -/
theorem scalars_render_sortKeys {j : Json F} :
    Scalars (render j.sortKeys) ↔ Scalars (render j) := by
  induction j using Json.induct with
  | arr xs ih =>
    rw [sortKeys_arr, scalars_render_arr, scalars_render_arr, List.forall_mem_map]
    exact forall₂_congr ih
  | obj kvs ih =>
    rw [sortKeys_obj, scalars_render_obj, scalars_render_obj, List.forall_mem_map]
    constructor
    · intro h p hp
      have hp' := h p (mem_sortByKey.mpr hp)
      exact ⟨hp'.1, (ih p hp).mp hp'.2⟩
    · intro h p hp
      have hp' := h p (mem_sortByKey.mp hp)
      exact ⟨hp'.1, (ih p (mem_sortByKey.mp hp)).mpr hp'.2⟩
  | _ => rfl

end Json

/-- The text of a dictionary can be encoded when its names are texts that can
and the texts of its values can. -/
theorem scalars_stableJson {F : Type} [PyFloat F] {d : PyDict F} (hd : (d.map Prod.fst).Nodup) :
    Scalars (stableJson d) ↔ ∀ p ∈ d, Scalars p.1 ∧ Scalars (canonicalJson p.2) := by
  rw [stableJson, canonicalJson, toJsonable_ofFields hd, Json.scalars_render_sortKeys,
    Json.scalars_render_obj]
  constructor
  · intro h p hp
    obtain ⟨hkey, hvalue⟩ := h (p.1, toJsonable p.2)
      (mem_sortByKey.mpr (List.mem_map_of_mem (f := fun p => (p.1, toJsonable p.2)) hp))
    exact ⟨hkey, Json.scalars_render_sortKeys.mpr hvalue⟩
  · intro h q hq
    obtain ⟨p, hp, rfl⟩ := List.mem_map.mp (mem_sortByKey.mp hq)
    exact ⟨(h p hp).1, Json.scalars_render_sortKeys.mp (h p hp).2⟩

end AgentRoi
