/-
`json.loads` inverts `json.dumps`.

* `loads_render` — a clean value is read back from its text, its members in
  the order they were printed;
* `render_inj` — hence the text determines the value;
* `loads_distinct` — no object that was read repeats a key;
* `render_printable` — the text holds no control character, so it is one line
  of a file.
-/
import AgentRoi.JsonScan

namespace AgentRoi

namespace Json

/-! ### Strings -/

theorem hexVal_hexDigit {d : Nat} (h : d < 16) : hexVal (hexDigit d) = some d := by
  unfold hexVal hexDigit
  split <;> split <;> grind

theorem scanString_escapeChar (n c : Nat) (r : Str) :
    scanString (n + 1) (escapeChar c ++ r) =
      (scanString n r).bind fun p => some (c :: p.1, p.2) := by
  unfold escapeChar
  split_ifs with h1 h2 h3 h4 h5 h6 h7 h8
  · subst h1; rfl
  · subst h2; rfl
  · subst h3; rfl
  · subst h4; rfl
  · subst h5; rfl
  · subst h6; rfl
  · subst h7; rfl
  · have hhi := hexVal_hexDigit (d := c / 16) (by omega)
    have hlo := hexVal_hexDigit (d := c % 16) (by omega)
    have hzero : hexVal 48 = some 0 := rfl
    have hcode : 16 * (c / 16) + c % 16 = c := by omega
    have hbig : ¬ (0xD800 ≤ c ∧ c ≤ 0xDBFF) := by omega
    simp [scanString, scanEscape, scanUnicode, hex4, hzero, hhi, hlo, hcode, hbig]
  · simp [scanString, h1, h2, h8]

theorem scanString_escape (s r : Str) {n : Nat} (hn : s.length < n) :
    scanString n (s.flatMap escapeChar ++ 34 :: r) = some (s, r) := by
  induction s generalizing n with
  | nil =>
    obtain ⟨m, rfl⟩ : ∃ m, n = m + 1 := ⟨n - 1, by grind⟩
    rfl
  | cons c s ih =>
    obtain ⟨m, rfl⟩ : ∃ m, n = m + 1 := ⟨n - 1, by grind⟩
    rw [List.flatMap_cons, List.append_assoc, scanString_escapeChar,
      ih (by simpa using hn)]
    rfl

theorem length_le_flatMap_escapeChar (s : Str) : s.length ≤ (s.flatMap escapeChar).length := by
  induction s with
  | nil => simp
  | cons c s ih =>
    have hpos : 0 < (escapeChar c).length := by
      unfold escapeChar
      split_ifs <;> simp
    rw [List.flatMap_cons, List.length_append, List.length_cons]
    omega

/-- What stands after the opening quote of a printed string is read as it. -/
theorem scanString_quote (s r : Str) :
    scanString ((s.flatMap escapeChar ++ 34 :: r).length + 1)
      (s.flatMap escapeChar ++ 34 :: r) = some (s, r) := by
  refine scanString_escape s r ?_
  have := length_le_flatMap_escapeChar s
  simp only [List.length_append]
  omega

/-! ### Numbers -/

/-- A text after which a number ends. -/
def Stops (r : Str) : Prop :=
  ∀ c ∈ r.head?, isDigit c = false ∧ c ≠ 46 ∧ c ≠ 101 ∧ c ≠ 69

theorem stops_nil : Stops [] := by simp [Stops]

theorem takeWhile_digits_append {ds r : Str} (hds : ∀ d ∈ ds, isDigit d = true)
    (hr : ∀ c ∈ r.head?, isDigit c = false) :
    (ds ++ r).takeWhile isDigit = ds ∧ (ds ++ r).dropWhile isDigit = r := by
  induction ds with
  | nil =>
    cases r with
    | nil => simp
    | cons c r => simp [hr c rfl]
  | cons d ds ih =>
    have hd : isDigit d = true := hds d (by simp)
    have := ih fun x hx => hds x (List.mem_cons_of_mem _ hx)
    simp [hd, this]

theorem isIntPart_natDigits (n : Nat) : IsIntPart (natDigits n) := by
  obtain ⟨c, ds, h⟩ := List.exists_cons_of_ne_nil (natDigits_ne_nil n)
  have hall := natDigits_all_digit n
  rw [h] at hall ⊢
  by_cases hc : c = 48
  · subst hc
    rw [natDigits_head_zero h]
    exact Or.inl rfl
  · have hcd := hall c (by simp)
    simp only [isDigit, Bool.and_eq_true, decide_eq_true_eq] at hcd
    exact Or.inr ⟨c, ds, rfl, by omega, hcd.2, fun d hd => hall d (by simp [hd])⟩

theorem head_digit_of_isIntPart {w : Str} (h : IsIntPart w) :
    ∃ c ds, w = c :: ds ∧ isDigit c = true := by
  rcases h with rfl | ⟨c, ds, rfl, h1, h2, _⟩
  · exact ⟨48, [], rfl, rfl⟩
  · exact ⟨c, ds, rfl, by simp [isDigit]; omega⟩

theorem scanInt_append {w r : Str} (hw : IsIntPart w) (hr : ∀ c ∈ r.head?, isDigit c = false) :
    scanInt (w ++ r) = some (w, r) := by
  rcases hw with rfl | ⟨c, ds, rfl, h1, h2, hds⟩
  · rfl
  · have hc : isDigit c = true := by simp [isDigit]; omega
    obtain ⟨ht, hd⟩ := takeWhile_digits_append hds hr
    simp [scanInt, show c ≠ 48 by omega, hc, ht, hd]

theorem scanFrac_append {f r : Str} (hf : IsFracPart f)
    (hr : ∀ c ∈ r.head?, isDigit c = false ∧ c ≠ 46) : scanFrac (f ++ r) = (f, r) := by
  rcases hf with rfl | ⟨ds, rfl, hne, hds⟩
  · cases r with
    | nil => rfl
    | cons c r =>
      have hc : c ≠ 46 := (hr c rfl).2
      simp only [List.nil_append]
      unfold scanFrac
      split
      · rename_i h
        cases h
        exact absurd rfl hc
      · rfl
  · obtain ⟨ht, hd⟩ := takeWhile_digits_append hds fun c hc => (hr c hc).1
    simp [scanFrac, ht, hd, hne]

theorem scanExp_append {e r : Str} (he : IsExpPart e) (hr : Stops r) :
    scanExp (e ++ r) = (e, r) := by
  rcases he with rfl | ⟨s, ds, rfl, hs, hne, hds⟩
  · cases r with
    | nil => rfl
    | cons c r =>
      obtain ⟨_, _, h1, h2⟩ := hr c rfl
      simp [scanExp, h1, h2]
  · obtain ⟨ht, hd⟩ := takeWhile_digits_append hds fun c hc => (hr c hc).1
    simp [scanExp, hs, ht, hd, hne]

variable {F : Type} [PyFloat F]

/-- A number text followed by something that ends it. -/
theorem scanNumber_append (neg : Bool) {w f e r : Str} (hw : IsIntPart w) (hf : IsFracPart f)
    (he : IsExpPart e) (hr : Stops r) :
    (scanNumber (((if neg then [45] else []) ++ (w ++ (f ++ e))) ++ r) : Option (Json F × Str)) =
      some (if f = [] ∧ e = [] then
          .int (if neg then -(ofDigits w : Int) else (ofDigits w : Int))
        else .float (PyFloat.ofText ((if neg then [45] else []) ++ (w ++ (f ++ e)))), r) := by
  have hsign : scanSign (((if neg then [45] else []) ++ (w ++ (f ++ e))) ++ r) =
      ((if neg then [45] else []), w ++ (f ++ (e ++ r))) := by
    cases neg with
    | true => simp [scanSign]
    | false =>
      obtain ⟨c, ds, rfl, hc⟩ := head_digit_of_isIntPart hw
      have hc45 : c ≠ 45 := by rintro rfl; exact absurd hc (by decide)
      simp only [Bool.false_eq_true, if_false, List.nil_append, List.cons_append,
        List.append_assoc]
      unfold scanSign
      split
      · rename_i h
        cases h
        exact absurd rfl hc45
      · rfl
  -- what follows the integer part does not start with a digit, and so on
  have hexp : ∀ c ∈ (e ++ r).head?, isDigit c = false ∧ c ≠ 46 := by
    rcases he with rfl | ⟨s, ds, rfl, _⟩
    · exact fun c hc => ⟨(hr c hc).1, (hr c hc).2.1⟩
    · simp [isDigit]
  have hfrac : ∀ c ∈ (f ++ (e ++ r)).head?, isDigit c = false := by
    rcases hf with rfl | ⟨ds, rfl, _⟩
    · exact fun c hc => (hexp c hc).1
    · simp [isDigit]
  unfold scanNumber
  rw [hsign]
  simp only [scanInt_append hw hfrac, scanFrac_append hf hexp, scanExp_append he hr,
    Option.bind_eq_bind, Option.bind_some]
  cases neg <;> by_cases hfe : f = [] ∧ e = [] <;> simp [hfe]

theorem scanNumber_intText (i : Int) {r : Str} (hr : Stops r) :
    (scanNumber (intText i ++ r) : Option (Json F × Str)) = some (.int i, r) := by
  have key := fun neg : Bool => scanNumber_append (F := F) neg (f := []) (e := [])
    (isIntPart_natDigits i.natAbs) (Or.inl rfl) (Or.inl rfl) hr
  unfold intText
  split
  · rename_i hneg
    have := key true
    simp only [if_true, List.append_nil, ofDigits_natDigits, and_self] at this
    rw [show -(i.natAbs : Int) = i by omega] at this
    simpa using this
  · rename_i hpos
    have := key false
    simp only [if_true, List.append_nil, ofDigits_natDigits, and_self] at this
    rw [show (i.natAbs : Int) = i by omega] at this
    simpa using this

theorem scanNumber_repr (x : F) {r : Str} (hr : Stops r) :
    (scanNumber (PyFloat.repr x ++ r) : Option (Json F × Str)) =
      some (.float (.finite x), r) := by
  obtain ⟨neg, w, f, e, ht, hw, hf, he, hfe⟩ := PyFloat.repr_isFloatText x
  have hnot : ¬ (f = [] ∧ e = []) := fun h => hfe.elim (· h.1) (· h.2)
  rw [ht, scanNumber_append neg hw hf he hr, if_neg hnot, ← ht, PyFloat.ofText_repr]

/-! ### Values -/

/-- The first code point of a printed value. -/
def Opens (c : Nat) : Prop :=
  c = 110 ∨ c = 116 ∨ c = 102 ∨ c = 78 ∨ c = 73 ∨ c = 34 ∨ c = 91 ∨ c = 123 ∨ c = 45 ∨
    isDigit c = true

theorem Opens.isWs {c : Nat} (h : Opens c) : isWs c = false := by
  simp only [Opens, isDigit, Bool.and_eq_true, decide_eq_true_eq] at h
  simp only [Json.isWs, Bool.or_eq_false_iff, beq_eq_false_iff_ne]
  omega

theorem Opens.ne_close {c : Nat} (h : Opens c) : c ≠ 93 ∧ c ≠ 125 := by
  simp only [Opens, isDigit, Bool.and_eq_true, decide_eq_true_eq] at h
  omega

theorem opens_natDigits (n : Nat) : ∃ c t, natDigits n = c :: t ∧ isDigit c = true :=
  head_digit_of_isIntPart (isIntPart_natDigits n)

theorem opens_intText (i : Int) : ∃ c t, intText i = c :: t ∧ (c = 45 ∨ isDigit c = true) := by
  obtain ⟨c, t, h, hc⟩ := opens_natDigits i.natAbs
  unfold intText
  split
  · exact ⟨45, _, rfl, Or.inl rfl⟩
  · exact ⟨c, t, h, Or.inr hc⟩

theorem opens_repr (x : F) :
    ∃ c t, PyFloat.repr x = c :: t ∧ (c = 45 ∨ isDigit c = true) := by
  obtain ⟨neg, w, f, e, ht, hw, -⟩ := PyFloat.repr_isFloatText x
  obtain ⟨c, ds, rfl, hc⟩ := head_digit_of_isIntPart hw
  cases neg with
  | true => exact ⟨45, _, by simpa using ht, Or.inl rfl⟩
  | false => exact ⟨c, _, by simpa using ht, Or.inr hc⟩

theorem opens_render (j : Json F) : ∃ c t, render j = c :: t ∧ Opens c := by
  cases j with
  | null => exact ⟨110, _, rfl, by simp [Opens]⟩
  | bool b =>
    cases b with
    | true => exact ⟨116, _, rfl, by simp [Opens]⟩
    | false => exact ⟨102, _, rfl, by simp [Opens]⟩
  | int i =>
    obtain ⟨c, t, h, hc⟩ := opens_intText i
    exact ⟨c, t, h, by unfold Opens; tauto⟩
  | float x =>
    cases x with
    | finite f =>
      obtain ⟨c, t, h, hc⟩ := opens_repr f
      exact ⟨c, t, h, by unfold Opens; tauto⟩
    | nan => exact ⟨78, _, rfl, by simp [Opens]⟩
    | inf => exact ⟨73, _, rfl, by simp [Opens]⟩
    | negInf => exact ⟨45, _, rfl, by simp [Opens]⟩
  | str s => exact ⟨34, _, rfl, by simp [Opens]⟩
  | arr xs =>
    cases xs with
    | nil => exact ⟨91, _, rfl, by simp [Opens]⟩
    | cons x xs => exact ⟨91, _, rfl, by simp [Opens]⟩
  | obj kvs =>
    cases kvs with
    | nil => exact ⟨123, _, rfl, by simp [Opens]⟩
    | cons p kvs => exact ⟨123, _, rfl, by simp [Opens]⟩

theorem skipWs_of_opens {c : Nat} {t : Str} (h : Opens c) : skipWs (c :: t) = c :: t := by
  simp [skipWs, h.isWs]

theorem skipWs_render (j : Json F) (r : Str) : skipWs (render j ++ r) = render j ++ r := by
  obtain ⟨c, t, h, hc⟩ := opens_render j
  rw [h, List.cons_append, skipWs_of_opens hc]

/-- The scanner reads `j` back from its text, whatever ends it. -/
def Reads (j : Json F) : Prop :=
  ∀ (n : Nat) (r : Str), (render j).length ≤ n → Stops r →
    scanValue n (render j ++ r) = some (j, r)

theorem reads_of_scanWord {j : Json F} (hne : render j ≠ [])
    (hhead : ∀ c ∈ (render j).head?, c ≠ 34 ∧ c ≠ 123 ∧ c ≠ 91)
    (h : ∀ r, Stops r → scanWord (render j ++ r) = some (j, r)) : Reads j := by
  intro n r hn hr
  obtain ⟨c, t, hct⟩ := List.exists_cons_of_ne_nil hne
  rw [hct] at hhead hn
  obtain ⟨h1, h2, h3⟩ := hhead c rfl
  obtain ⟨m, rfl⟩ : ∃ m, n = m + 1 := ⟨n - 1, by simp at hn; omega⟩
  have hw := h r hr
  rw [hct] at hw ⊢
  simp only [List.cons_append] at hw ⊢
  simp [scanValue, h1, h2, h3, hw]

theorem scanWord_of_scanNumber {c : Nat} {t : Str} {p : Json F × Str}
    (hc : c = 45 ∨ isDigit c = true) (h : scanNumber (c :: t) = some p) :
    scanWord (c :: t) = some p := by
  have hne : c ≠ 110 ∧ c ≠ 116 ∧ c ≠ 102 := by
    simp only [isDigit, Bool.and_eq_true, decide_eq_true_eq] at hc
    omega
  have heat : ∀ d q, c ≠ d → eat (d :: q) (c :: t) = none := by
    intro d q hd
    simp [eat, Ne.symm hd]
  have hnull : eat (lit "null") (c :: t) = none := heat 110 _ hne.1
  have htrue : eat (lit "true") (c :: t) = none := heat 116 _ hne.2.1
  have hfalse : eat (lit "false") (c :: t) = none := heat 102 _ hne.2.2
  simp [scanWord, hnull, htrue, hfalse, h]

theorem reads_number {j : Json F}
    (hopen : ∃ c t, render j = c :: t ∧ (c = 45 ∨ isDigit c = true))
    (h : ∀ r, Stops r → scanNumber (render j ++ r) = some (j, r)) : Reads j := by
  obtain ⟨c, t, hct, hc⟩ := hopen
  refine reads_of_scanWord (by simp [hct]) ?_ fun r hr => ?_
  · intro d hd
    simp only [hct, List.head?_cons, Option.mem_def, Option.some.injEq] at hd
    subst hd
    simp only [isDigit, Bool.and_eq_true, decide_eq_true_eq] at hc
    omega
  · have hn := h r hr
    rw [hct, List.cons_append] at hn ⊢
    exact scanWord_of_scanNumber hc hn

theorem reads_int (i : Int) : Reads (.int i : Json F) :=
  reads_number (opens_intText i) fun _ hr => scanNumber_intText i hr

theorem reads_float (x : F) : Reads (.float (.finite x) : Json F) :=
  reads_number (opens_repr x) fun _ hr => scanNumber_repr x hr

theorem eat_append (p r : Str) : eat p (p ++ r) = some r := by
  simp [eat]

theorem reads_null : Reads (.null : Json F) := by
  refine reads_of_scanWord (by simp [render, lit]) (by simp [render, lit]) fun r _ => ?_
  simp [scanWord, render, eat_append]

theorem reads_bool (b : Bool) : Reads (.bool b : Json F) := by
  cases b with
  | true =>
    refine reads_of_scanWord (by simp [render, lit]) (by simp [render, lit]) fun r _ => ?_
    have hnull : eat (lit "null") (lit "true" ++ r) = none := rfl
    simp [scanWord, render, eat_append, hnull]
  | false =>
    refine reads_of_scanWord (by simp [render, lit]) (by simp [render, lit]) fun r _ => ?_
    have hnull : eat (lit "null") (lit "false" ++ r) = none := rfl
    have htrue : eat (lit "true") (lit "false" ++ r) = none := rfl
    simp [scanWord, render, eat_append, hnull, htrue]

theorem reads_str (s : Str) : Reads (.str s : Json F) := by
  intro n r hn _
  obtain ⟨m, rfl⟩ : ∃ m, n = m + 1 := ⟨n - 1, by simp [render, quote] at hn; omega⟩
  have hq : render (.str s : Json F) ++ r = 34 :: (s.flatMap escapeChar ++ 34 :: r) := by
    simp [render, quote]
  rw [hq]
  simp only [scanValue, if_true, scanString_quote, Option.bind_eq_bind, Option.bind_some]

/-! ### Arrays and objects -/

theorem stops_renderItems (xs : List (Json F)) (r : Str) : Stops (renderItems xs ++ r) := by
  cases xs <;> simp [Stops, renderItems, isDigit]

theorem stops_renderMembers (kvs : List (Str × Json F)) (r : Str) :
    Stops (renderMembers kvs ++ r) := by
  obtain _ | ⟨⟨k, v⟩, kvs⟩ := kvs <;> simp [Stops, renderMembers, isDigit]

theorem scanItems_render (xs : List (Json F)) : ∀ (x : Json F) (n : Nat) (r : Str),
    Reads x → (∀ y ∈ xs, Reads y) → (render x ++ renderItems xs).length ≤ n →
    scanItems n (render x ++ (renderItems xs ++ r)) = some (x :: xs, r) := by
  induction xs with
  | nil =>
    intro x n r hx _ hn
    simp only [renderItems, List.length_append, List.length_singleton] at hn
    obtain ⟨m, rfl⟩ : ∃ m, n = m + 1 := ⟨n - 1, by omega⟩
    have hv := hx m (renderItems ([] : List (Json F)) ++ r) (by omega) (stops_renderItems _ _)
    have hend : skipWs (93 :: r) = 93 :: r := rfl
    simp only [renderItems, List.cons_append, List.nil_append] at hv ⊢
    simp only [scanItems, hv, hend, Option.bind_eq_bind, Option.bind_some]
  | cons y ys ih =>
    intro x n r hx hys hn
    simp only [renderItems, List.length_append, List.length_cons] at hn
    obtain ⟨m, rfl⟩ : ∃ m, n = m + 1 := ⟨n - 1, by omega⟩
    have hv := hx m (renderItems (y :: ys) ++ r) (by omega) (stops_renderItems _ _)
    have hrest := ih y m r (hys y (by simp)) (fun z hz => hys z (List.mem_cons_of_mem _ hz))
      (by simp only [List.length_append]; omega)
    have hcomma : skipWs (44 :: (render y ++ (renderItems ys ++ r))) =
        44 :: (render y ++ (renderItems ys ++ r)) := rfl
    simp only [renderItems, List.cons_append, List.append_assoc] at hv
    simp only [renderItems, List.cons_append, List.append_assoc, scanItems, hv,
      Option.bind_eq_bind, Option.bind_some, hcomma, skipWs_render, hrest]

theorem scanMembers_render (kvs : List (Str × Json F)) :
    ∀ (k : Str) (v : Json F) (n : Nat) (r : Str),
    Reads v → (∀ p ∈ kvs, Reads p.2) →
    (quote k ++ 58 :: (render v ++ renderMembers kvs)).length ≤ n →
    scanMembers n (quote k ++ 58 :: (render v ++ (renderMembers kvs ++ r))) =
      some ((k, v) :: kvs, r) := by
  have hq : ∀ (k rest : Str), quote k ++ rest = 34 :: (k.flatMap escapeChar ++ 34 :: rest) := by
    intro k rest
    simp [quote]
  have heat : ∀ (c : Nat) (rest : Str), eat [c] (c :: rest) = some rest :=
    fun c rest => eat_append [c] rest
  have hcolon : ∀ rest : Str, skipWs (58 :: rest) = 58 :: rest := fun _ => rfl
  induction kvs with
  | nil =>
    intro k v n r hv _ hn
    simp only [renderMembers, List.length_append, List.length_cons] at hn
    obtain ⟨m, rfl⟩ : ∃ m, n = m + 1 := ⟨n - 1, by omega⟩
    have hval := hv m (renderMembers ([] : List (Str × Json F)) ++ r) (by omega) (stops_renderMembers _ _)
    simp only [renderMembers, List.cons_append, List.nil_append] at hval ⊢
    have hend : skipWs (125 :: r) = 125 :: r := rfl
    simp only [scanMembers, hq, heat, Option.bind_eq_bind, Option.bind_some, scanString_quote,
      hcolon, skipWs_render, hval, hend]
  | cons q kvs ih =>
    obtain ⟨k', v'⟩ := q
    intro k v n r hv hkvs hn
    simp only [renderMembers, List.length_append, List.length_cons] at hn
    obtain ⟨m, rfl⟩ : ∃ m, n = m + 1 := ⟨n - 1, by omega⟩
    have hval := hv m (renderMembers ((k', v') :: kvs) ++ r) (by omega)
      (stops_renderMembers _ _)
    have hrest := ih k' v' m r (hkvs (k', v') (by simp))
      (fun p hp => hkvs p (List.mem_cons_of_mem _ hp))
      (by simp only [List.length_append, List.length_cons]; omega)
    have hcomma : ∀ rest : Str, skipWs (44 :: rest) = 44 :: rest := fun _ => rfl
    have hkey : ∀ rest : Str, skipWs (quote k' ++ rest) = quote k' ++ rest := fun _ => rfl
    simp only [renderMembers, List.cons_append, List.append_assoc] at hval ⊢
    rw [hq k]
    simp only [scanMembers, heat, Option.bind_eq_bind, Option.bind_some, scanString_quote,
      hcolon, skipWs_render, hval, hcomma, hkey, hrest]

theorem reads_arr {xs : List (Json F)} (h : ∀ x ∈ xs, Reads x) : Reads (.arr xs) := by
  intro n r hn _
  cases xs with
  | nil =>
    obtain ⟨m, rfl⟩ : ∃ m, n = m + 1 := ⟨n - 1, by simp [render, lit] at hn; omega⟩
    rfl
  | cons x xs =>
    simp only [render, List.length_cons] at hn
    obtain ⟨m, rfl⟩ : ∃ m, n = m + 1 := ⟨n - 1, by omega⟩
    have hitems := scanItems_render xs x m r (h x (by simp))
      (fun y hy => h y (List.mem_cons_of_mem _ hy)) (by omega)
    have hhead : (render x ++ (renderItems xs ++ r)).head? ≠ some 93 := by
      obtain ⟨c, t, hct, hc⟩ := opens_render x
      rw [hct]
      simpa using hc.ne_close.1
    simp only [render, List.cons_append, List.append_assoc]
    simp only [scanValue, Nat.reduceEqDiff, if_false, if_true, hhead, skipWs_render, hitems,
      Option.bind_eq_bind, Option.bind_some]

theorem reads_obj {kvs : List (Str × Json F)} (hnd : (kvs.map Prod.fst).Nodup)
    (h : ∀ p ∈ kvs, Reads p.2) : Reads (.obj kvs) := by
  intro n r hn _
  obtain _ | ⟨⟨k, v⟩, kvs⟩ := kvs
  · obtain ⟨m, rfl⟩ : ∃ m, n = m + 1 := ⟨n - 1, by simp [render, lit] at hn; omega⟩
    rfl
  · simp only [render, List.length_cons] at hn
    obtain ⟨m, rfl⟩ : ∃ m, n = m + 1 := ⟨n - 1, by omega⟩
    have hmembers := scanMembers_render kvs k v m r (h (k, v) (by simp))
      (fun p hp => h p (List.mem_cons_of_mem _ hp)) (by omega)
    have hhead : ∀ rest : Str, (quote k ++ rest).head? ≠ some 125 := by
      intro rest
      simp [quote]
    have hkey : ∀ rest : Str, skipWs (quote k ++ rest) = quote k ++ rest := fun _ => rfl
    simp only [render, List.cons_append, List.append_assoc]
    simp only [scanValue, Nat.reduceEqDiff, if_false, if_true, hhead, hkey, hmembers,
      dictOf_of_nodup hnd, Option.bind_eq_bind, Option.bind_some]

theorem Clean.reads {j : Json F} (h : Clean j) : Reads j := by
  induction h with
  | null => exact reads_null
  | bool b => exact reads_bool b
  | int i => exact reads_int i
  | float f => exact reads_float f
  | str s => exact reads_str s
  | arr _ ih => exact reads_arr ih
  | obj hnd _ ih => exact reads_obj hnd ih

/-- A clean value is read back from its text; white space around it does not
matter. -/
theorem loads_render_append {j : Json F} (h : Clean j) {r : Str} (hr : Stops r)
    (hws : skipWs r = []) : loads (render j ++ r) = some j := by
  unfold loads
  rw [skipWs_render, h.reads _ _ (by simp) hr]
  simp [hws]

theorem loads_render {j : Json F} (h : Clean j) : loads (render j) = some j := by
  simpa using loads_render_append h stops_nil rfl

/-! ### What is read is a Python value -/

/-- The scanner's results have distinct keys, at a given fuel. -/
structure ScansDistinct (F : Type) [PyFloat F] (n : Nat) : Prop where
  value : ∀ {s : Str} {p : Json F × Str}, scanValue n s = some p → p.1.Distinct
  items : ∀ {s : Str} {p : List (Json F) × Str}, scanItems n s = some p →
    ∀ x ∈ p.1, x.Distinct
  members : ∀ {s : Str} {p : List (Str × Json F) × Str}, scanMembers n s = some p →
    ∀ q ∈ p.1, q.2.Distinct

theorem scanNumber_distinct {s : Str} {p : Json F × Str} (h : scanNumber s = some p) :
    p.1.Distinct := by
  simp only [scanNumber, Option.bind_eq_bind, Option.bind_eq_some_iff] at h
  obtain ⟨wr, _, h⟩ := h
  split_ifs at h <;> cases h <;> constructor

theorem scanWord_distinct {s : Str} {p : Json F × Str} (h : scanWord s = some p) :
    p.1.Distinct := by
  unfold scanWord at h
  split at h
  · cases h; exact .null
  · cases h; exact .bool _
  · cases h; exact .bool _
  · split at h
    · rename_i hn
      cases h
      exact scanNumber_distinct hn
    · cases h; exact .float _
    · cases h; exact .float _
    · cases h; exact .float _
    · cases h

theorem scansDistinct (n : Nat) : ScansDistinct F n := by
  induction n with
  | zero => exact ⟨fun h => (nomatch h), fun h => (nomatch h), fun h => (nomatch h)⟩
  | succ n ih =>
    refine ⟨fun {s p} h => ?_, fun h => ?_, fun h => ?_⟩
    · cases s with
      | nil => cases h
      | cons c r =>
        simp only [scanValue] at h
        split_ifs at h
        · simp only [Option.bind_eq_bind, Option.bind_eq_some_iff] at h
          obtain ⟨q, _, h⟩ := h
          cases h
          exact .str _
        · cases h
          exact .obj (by simp) (by simp)
        · simp only [Option.bind_eq_bind, Option.bind_eq_some_iff] at h
          obtain ⟨q, hq, h⟩ := h
          cases h
          exact .obj (nodup_keys_dictOf _) fun x hx => ih.members hq x (mem_of_mem_dictOf hx)
        · cases h
          exact .arr (by simp)
        · simp only [Option.bind_eq_bind, Option.bind_eq_some_iff] at h
          obtain ⟨q, hq, h⟩ := h
          cases h
          exact .arr (ih.items hq)
        · exact scanWord_distinct h
    · simp only [scanItems, Option.bind_eq_bind, Option.bind_eq_some_iff] at h
      obtain ⟨q, hq, h⟩ := h
      split at h
      · cases h
        simpa using ih.value hq
      · simp only [Option.bind_eq_some_iff] at h
        obtain ⟨q', hq', h⟩ := h
        cases h
        exact List.forall_mem_cons.mpr ⟨ih.value hq, ih.items hq'⟩
      · cases h
    · simp only [scanMembers, Option.bind_eq_bind, Option.bind_eq_some_iff] at h
      obtain ⟨r, _, k, _, r₂, _, q, hq, h⟩ := h
      split at h
      · cases h
        simpa using ih.value hq
      · simp only [Option.bind_eq_some_iff] at h
        obtain ⟨q', hq', h⟩ := h
        cases h
        exact List.forall_mem_cons.mpr ⟨ih.value hq, ih.members hq'⟩
      · cases h

/-- No object that was read repeats a key. -/
theorem loads_distinct {s : Str} {j : Json F} (h : loads s = some j) : j.Distinct := by
  simp only [loads, Option.bind_eq_bind, Option.bind_eq_some_iff] at h
  obtain ⟨p, hp, h⟩ := h
  split_ifs at h
  cases h
  exact (scansDistinct _).value hp

/-! ### Injectivity, and no line break -/

/-- The text of a clean value determines it. -/
theorem render_inj {a b : Json F} (ha : Clean a) (hb : Clean b)
    (h : render a = render b) : a = b := by
  have := loads_render ha
  rw [h, loads_render hb] at this
  exact (Option.some.inj this).symm

theorem escapeChar_printable (c : Nat) : ∀ d ∈ escapeChar c, 32 ≤ d := by
  have hhex : ∀ n, 32 ≤ hexDigit n := fun n => by unfold hexDigit; split <;> omega
  unfold escapeChar
  split_ifs <;> simp [hhex]
  omega

theorem quote_printable (s : Str) : ∀ c ∈ quote s, 32 ≤ c := by
  intro c hc
  simp only [quote, List.mem_cons, List.mem_append, List.mem_flatMap, List.not_mem_nil,
    or_false] at hc
  rcases hc with rfl | ⟨d, _, hd⟩ | rfl
  · omega
  · exact escapeChar_printable d c hd
  · omega

theorem isDigit_printable {c : Nat} (h : isDigit c = true) : 32 ≤ c := by
  simp only [isDigit, Bool.and_eq_true, decide_eq_true_eq] at h
  omega

theorem intText_printable (i : Int) : ∀ c ∈ intText i, 32 ≤ c := by
  have hnat := fun c hc => isDigit_printable (natDigits_all_digit i.natAbs c hc)
  unfold intText
  split
  · exact List.forall_mem_cons.mpr ⟨by omega, hnat⟩
  · exact hnat

theorem repr_printable (x : F) : ∀ c ∈ PyFloat.repr x, 32 ≤ c := by
  obtain ⟨neg, w, f, e, ht, hw, hf, he, -⟩ := PyFloat.repr_isFloatText x
  have hdigits : ∀ {ds : Str}, (∀ d ∈ ds, isDigit d = true) → ∀ c ∈ ds, 32 ≤ c :=
    fun h c hc => isDigit_printable (h c hc)
  have hw' : ∀ c ∈ w, 32 ≤ c := by
    rcases hw with rfl | ⟨d, ds, rfl, h1, _, h⟩
    · simp
    · exact List.forall_mem_cons.mpr ⟨by omega, hdigits h⟩
  have hf' : ∀ c ∈ f, 32 ≤ c := by
    rcases hf with rfl | ⟨ds, rfl, _, h⟩
    · simp
    · exact List.forall_mem_cons.mpr ⟨by omega, hdigits h⟩
  have he' : ∀ c ∈ e, 32 ≤ c := by
    rcases he with rfl | ⟨s, ds, rfl, hs, _, h⟩
    · simp
    · exact List.forall_mem_cons.mpr ⟨by omega, List.forall_mem_cons.mpr ⟨by omega, hdigits h⟩⟩
  intro c hc
  rw [ht] at hc
  simp only [List.mem_append] at hc
  rcases hc with hc | hc | hc | hc
  · cases neg <;> simp at hc
    omega
  · exact hw' c hc
  · exact hf' c hc
  · exact he' c hc

theorem renderItems_printable {xs : List (Json F)} (h : ∀ x ∈ xs, ∀ c ∈ render x, 32 ≤ c) :
    ∀ c ∈ renderItems xs, 32 ≤ c := by
  induction xs with
  | nil => simp [renderItems]
  | cons x xs ih =>
    have hx := h x (by simp)
    have hxs := ih fun y hy => h y (List.mem_cons_of_mem _ hy)
    intro c hc
    simp only [renderItems, List.mem_cons, List.mem_append] at hc
    rcases hc with rfl | hc | hc
    · omega
    · exact hx c hc
    · exact hxs c hc

theorem renderMembers_printable {kvs : List (Str × Json F)}
    (h : ∀ p ∈ kvs, ∀ c ∈ render p.2, 32 ≤ c) : ∀ c ∈ renderMembers kvs, 32 ≤ c := by
  induction kvs with
  | nil => simp [renderMembers]
  | cons p kvs ih =>
    obtain ⟨k, v⟩ := p
    have hv := h (k, v) (by simp)
    have hkvs := ih fun q hq => h q (List.mem_cons_of_mem _ hq)
    intro c hc
    simp only [renderMembers, List.mem_cons, List.mem_append] at hc
    rcases hc with rfl | hc | rfl | hc | hc
    · omega
    · exact quote_printable k c hc
    · omega
    · exact hv c hc
    · exact hkvs c hc

/-- No control character stands in the text, so it is one line of a file. -/
theorem render_printable (j : Json F) : ∀ c ∈ render j, 32 ≤ c := by
  induction j using Json.induct with
  | null => exact (by decide : ∀ c ∈ lit "null", 32 ≤ c)
  | bool b =>
    cases b with
    | true => exact (by decide : ∀ c ∈ lit "true", 32 ≤ c)
    | false => exact (by decide : ∀ c ∈ lit "false", 32 ≤ c)
  | int i => exact intText_printable i
  | float x =>
    cases x with
    | finite f => exact repr_printable f
    | nan => exact (by decide : ∀ c ∈ lit "NaN", 32 ≤ c)
    | inf => exact (by decide : ∀ c ∈ lit "Infinity", 32 ≤ c)
    | negInf => exact (by decide : ∀ c ∈ lit "-Infinity", 32 ≤ c)
  | str s => exact quote_printable s
  | arr xs ih =>
    cases xs with
    | nil => exact (by decide : ∀ c ∈ lit "[]", 32 ≤ c)
    | cons x xs =>
      have hxs := renderItems_printable fun y hy => ih y (List.mem_cons_of_mem _ hy)
      intro c hc
      simp only [render, List.mem_cons, List.mem_append] at hc
      rcases hc with rfl | hc | hc
      · omega
      · exact ih x (by simp) c hc
      · exact hxs c hc
  | obj kvs ih =>
    obtain _ | ⟨⟨k, v⟩, kvs⟩ := kvs
    · exact (by decide : ∀ c ∈ lit "\x7b\x7d", 32 ≤ c)
    · have hkvs := renderMembers_printable fun q hq => ih q (List.mem_cons_of_mem _ hq)
      intro c hc
      simp only [render, List.mem_cons, List.mem_append] at hc
      rcases hc with rfl | hc | rfl | hc | hc
      · omega
      · exact quote_printable k c hc
      · omega
      · exact ih (k, v) (by simp) c hc
      · exact hkvs c hc

end Json

end AgentRoi
