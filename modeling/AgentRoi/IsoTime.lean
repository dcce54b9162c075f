/-
UTC instants and their ISO 8601 texts.

An instant counts microseconds from the start of year 1, as a `datetime` with
`timezone.utc` does, and lies before year 10000.

* `yearOf`, `monthOf` — the calendar date of a day number, as the last year
  and month that begin no later;
* `Instant.isoformat` — `datetime.isoformat()`: the fraction is left out when
  it is zero;
* `Instant.addSeconds` — `now + timedelta(seconds=…)`, none where Python
  raises `OverflowError`;
* `isoformat_lt_iff` — the order of the texts is the order in time.
-/
import AgentRoi.PyStr
import Mathlib.Data.Nat.Find

namespace AgentRoi

/-! ### Text of fixed width -/

/-- The decimal digits of `n < 10 ^ w`, filled up with zeros. -/
def padded : Nat → Nat → Str
  | 0, _ => []
  | w + 1, n => (48 + n / 10 ^ w) :: padded w (n % 10 ^ w)

@[simp] theorem length_padded (w n : Nat) : (padded w n).length = w := by
  induction w generalizing n with
  | zero => rfl
  | succ w ih => rw [padded, List.length_cons, ih]

theorem padded_ascii : ∀ {w n : Nat}, n < 10 ^ w → ∀ c ∈ padded w n, c < 128 := by
  intro w
  induction w with
  | zero => exact fun _ c hc => absurd hc List.not_mem_nil
  | succ w ih =>
    intro n hn c hc
    rcases List.mem_cons.mp hc with rfl | hc
    · have hdigit : n / 10 ^ w < 10 := by
        rw [Nat.div_lt_iff_lt_mul (by positivity), Nat.mul_comm]
        rwa [Nat.pow_succ] at hn
      omega
    · exact ih (Nat.mod_lt n (by positivity)) c hc

theorem append_lt_append {s t u v : Str} (hlen : s.length = t.length)
    (h : s < t ∨ s = t ∧ u < v) : s ++ u < t ++ v := by
  induction s generalizing t with
  | nil =>
    have ht : t = [] := List.length_eq_zero_iff.mp hlen.symm
    subst ht
    exact h.resolve_left (List.not_lt_nil []) |>.2
  | cons c s ih =>
    cases t with
    | nil => cases hlen
    | cons d t =>
      have hlen' : s.length = t.length := Nat.succ.inj hlen
      rw [List.cons_append, List.cons_append, List.cons_lt_cons_iff]
      rcases h with h | ⟨h, huv⟩
      · rcases List.cons_lt_cons_iff.mp h with h | ⟨rfl, hst⟩
        · exact .inl h
        · exact .inr ⟨rfl, ih hlen' (.inl hst)⟩
      · cases h
        exact .inr ⟨rfl, ih rfl (.inr ⟨rfl, huv⟩)⟩

theorem padded_lt_padded : ∀ {w m n : Nat}, m < n → n < 10 ^ w → padded w m < padded w n
  | 0, m, n, h, hn => by simp at hn; omega
  | w + 1, m, n, h, hn => by
    rw [padded, padded, List.cons_lt_cons_iff]
    have hpos : 0 < 10 ^ w := Nat.pow_pos (by decide)
    rcases (Nat.div_le_div_right (c := 10 ^ w) h.le).lt_or_eq with hlt | heq
    · exact .inl (by omega)
    · refine .inr ⟨by rw [heq], padded_lt_padded ?_ (Nat.mod_lt n hpos)⟩
      have hm := Nat.div_add_mod m (10 ^ w)
      have hn' := Nat.div_add_mod n (10 ^ w)
      rw [heq] at hm
      omega

/-! ### The calendar

Years and months are counted from zero here and written from one. -/

def isLeap (year : Nat) : Bool := year % 4 == 0 && (year % 100 != 0 || year % 400 == 0)

/-- The days before January 1 of year `y + 1`. -/
def daysBeforeYear (y : Nat) : Nat := y * 365 + y / 4 - y / 100 + y / 400

/-- The days of the year before the first of month `m + 1`. -/
def daysBeforeMonth (leap : Bool) (m : Nat) : Nat :=
  [0, 31, 59, 90, 120, 151, 181, 212, 243, 273, 304, 334].getD m 365 +
    if leap && 1 < m then 1 else 0

/-- The year a day lies in: the last to begin no later. -/
def yearOf (day : Nat) : Nat := Nat.findGreatest (fun y => daysBeforeYear y ≤ day) (day / 365)

def dayOfYear (day : Nat) : Nat := day - daysBeforeYear (yearOf day)

def leapDay (day : Nat) : Bool := isLeap (yearOf day + 1)

/-- The month a day lies in. -/
def monthOf (day : Nat) : Nat :=
  Nat.findGreatest (fun m => daysBeforeMonth (leapDay day) m ≤ dayOfYear day) 11

def dayOfMonth (day : Nat) : Nat := dayOfYear day - daysBeforeMonth (leapDay day) (monthOf day)

/-- The days of the years 1 to 9999. -/
def dayLimit : Nat := 3652059

theorem daysBeforeYear_yearOf_le (day : Nat) : daysBeforeYear (yearOf day) ≤ day :=
  Nat.findGreatest_spec (P := fun y => daysBeforeYear y ≤ day) (Nat.zero_le _) (Nat.zero_le _)

theorem le_yearOf {day y : Nat} (h : daysBeforeYear y ≤ day) : y ≤ yearOf day := by
  refine Nat.le_findGreatest ?_ h
  unfold daysBeforeYear at h
  omega

theorem yearOf_mono {d e : Nat} (h : d ≤ e) : yearOf d ≤ yearOf e :=
  le_yearOf ((daysBeforeYear_yearOf_le d).trans h)

theorem yearOf_lt {day : Nat} (h : day < dayLimit) : yearOf day < 9999 := by
  have hle := daysBeforeYear_yearOf_le day
  unfold daysBeforeYear at hle
  unfold dayLimit at h
  omega

theorem lt_daysBeforeYear_succ (day : Nat) : day < daysBeforeYear (yearOf day + 1) := by
  by_contra h
  have := le_yearOf (Nat.le_of_not_lt h)
  omega

theorem dayOfYear_lt (day : Nat) : dayOfYear day < 366 := by
  have h := lt_daysBeforeYear_succ day
  have hle := daysBeforeYear_yearOf_le day
  unfold dayOfYear
  unfold daysBeforeYear at *
  omega

theorem daysBeforeMonth_monthOf_le (day : Nat) :
    daysBeforeMonth (leapDay day) (monthOf day) ≤ dayOfYear day :=
  Nat.findGreatest_spec (P := fun m => daysBeforeMonth (leapDay day) m ≤ dayOfYear day)
    (Nat.zero_le _) (by simp [daysBeforeMonth])

theorem monthOf_le (day : Nat) : monthOf day ≤ 11 := Nat.findGreatest_le 11

theorem monthOf_mono {d e : Nat} (hy : yearOf d = yearOf e) (h : dayOfYear d ≤ dayOfYear e) :
    monthOf d ≤ monthOf e := by
  refine Nat.le_findGreatest (monthOf_le d) ?_
  have hle := daysBeforeMonth_monthOf_le d
  rw [leapDay, hy, ← leapDay] at hle
  exact hle.trans h

theorem dayOfMonth_lt (day : Nat) : dayOfMonth day < 99 := by
  have hyear := dayOfYear_lt day
  have hle := daysBeforeMonth_monthOf_le day
  have hm := monthOf_le day
  have hnext : monthOf day < 11 → dayOfYear day < daysBeforeMonth (leapDay day) (monthOf day + 1) := by
    intro hlt
    by_contra h
    exact Nat.findGreatest_is_greatest (Nat.lt_succ_self (monthOf day)) hlt (Nat.le_of_not_lt h)
  unfold dayOfMonth
  generalize monthOf day = m at *
  generalize dayOfYear day = x at *
  generalize leapDay day = leap at *
  cases leap <;> interval_cases m <;> simp [daysBeforeMonth] at hnext hle ⊢ <;> omega

/-- `YYYY-MM-DD`. -/
def dateText (day : Nat) : Str :=
  padded 4 (yearOf day + 1) ++ (45 :: (padded 2 (monthOf day + 1) ++
    (45 :: padded 2 (dayOfMonth day + 1))))

theorem length_dateText (day : Nat) : (dateText day).length = 10 := by
  simp [dateText]

theorem dateText_lt {d e : Nat} (h : d < e) (he : e < dayLimit) : dateText d < dateText e := by
  have hlen : ∀ w m n, (padded w m).length = (padded w n).length := by simp
  refine append_lt_append (hlen _ _ _) ?_
  have hy := yearOf_lt he
  rcases (yearOf_mono h.le).lt_or_eq with hlt | hyear
  · exact .inl (padded_lt_padded (by omega) (by omega))
  refine .inr ⟨by rw [hyear], List.cons_lt_cons_iff.mpr (.inr ⟨rfl, ?_⟩)⟩
  refine append_lt_append (hlen _ _ _) ?_
  have hd := daysBeforeYear_yearOf_le d
  have hdoy : dayOfYear d < dayOfYear e := by
    rw [hyear] at hd
    rw [dayOfYear, dayOfYear, hyear]
    omega
  have hm := monthOf_le e
  rcases (monthOf_mono hyear hdoy.le).lt_or_eq with hlt | hmonth
  · exact .inl (padded_lt_padded (by omega) (by omega))
  refine .inr ⟨by rw [hmonth], List.cons_lt_cons_iff.mpr (.inr ⟨rfl, ?_⟩)⟩
  have hdm := daysBeforeMonth_monthOf_le d
  have hday := dayOfMonth_lt e
  have hlt : dayOfMonth d < dayOfMonth e := by
    have hleap : leapDay d = leapDay e := by rw [leapDay, leapDay, hyear]
    rw [hleap, hmonth] at hdm
    rw [dayOfMonth, dayOfMonth, hleap, hmonth]
    omega
  exact padded_lt_padded (by omega) (by omega)

/-! ### Instants -/

/-- `HH:MM:SS` of a number of seconds. -/
def clockText (seconds : Nat) : Str :=
  padded 2 (seconds / 3600) ++ (58 :: (padded 2 (seconds / 60 % 60) ++
    (58 :: padded 2 (seconds % 60))))

theorem length_clockText (seconds : Nat) : (clockText seconds).length = 8 := by
  simp [clockText]

theorem clockText_lt {m n : Nat} (h : m < n) (hn : n < 86400) : clockText m < clockText n := by
  have hlen : ∀ w m n, (padded w m).length = (padded w n).length := by simp
  refine append_lt_append (hlen _ _ _) ?_
  rcases (Nat.div_le_div_right (c := 3600) h.le).lt_or_eq with hlt | heq
  · exact .inl (padded_lt_padded hlt (by omega))
  refine .inr ⟨by rw [heq], List.cons_lt_cons_iff.mpr (.inr ⟨rfl, ?_⟩)⟩
  refine append_lt_append (hlen _ _ _) ?_
  have hle : m / 60 % 60 ≤ n / 60 % 60 := by omega
  rcases hle.lt_or_eq with hlt | heq'
  · exact .inl (padded_lt_padded hlt (by omega))
  exact .inr ⟨by rw [heq'], List.cons_lt_cons_iff.mpr
    (.inr ⟨rfl, padded_lt_padded (by omega) (by omega)⟩)⟩

/-- The fraction, when there is one, and the offset. -/
def fractionText (micros : Nat) : Str :=
  if micros = 0 then lit "+00:00" else 46 :: (padded 6 micros ++ lit "+00:00")

theorem fractionText_lt {m n : Nat} (h : m < n) (hn : n < 1000000) :
    fractionText m < fractionText n := by
  have hn0 : n ≠ 0 := by omega
  rw [fractionText, fractionText, if_neg hn0]
  by_cases hm : m = 0
  · rw [if_pos hm]
    exact List.cons_lt_cons_iff.mpr (.inl (by decide))
  · rw [if_neg hm]
    refine List.cons_lt_cons_iff.mpr (.inr ⟨rfl, ?_⟩)
    exact append_lt_append (by simp) (.inl (padded_lt_padded h (by omega)))

/-- A `datetime` with `timezone.utc`. -/
structure Instant where
  micros : Nat
  inRange : micros < dayLimit * 86400000000
  deriving DecidableEq

namespace Instant

instance : LinearOrder Instant :=
  LinearOrder.lift' micros fun a b h => by cases a; cases b; cases h; rfl

theorem le_iff {a b : Instant} : a ≤ b ↔ a.micros ≤ b.micros := Iff.rfl

/-- `now + timedelta(seconds=seconds)`. -/
def addSeconds (now : Instant) (seconds : Nat) : Option Instant :=
  if h : now.micros + seconds * 1000000 < dayLimit * 86400000000 then some ⟨_, h⟩ else none

/-- `now + timedelta(microseconds=micros)`. -/
def addMicros (now : Instant) (micros : Nat) : Option Instant :=
  if h : now.micros + micros < dayLimit * 86400000000 then some ⟨_, h⟩ else none

/-- `datetime.isoformat()`. -/
def isoformat (t : Instant) : Str :=
  dateText (t.micros / 86400000000) ++ (84 :: (clockText (t.micros / 1000000 % 86400) ++
    fractionText (t.micros % 1000000)))

theorem isoformat_ascii (t : Instant) : ∀ c ∈ t.isoformat, c < 128 := by
  have hrange := t.inRange
  have hlimit : t.micros / 86400000000 < dayLimit := by omega
  have hyear := yearOf_lt hlimit
  have hmonth := monthOf_le (t.micros / 86400000000)
  have hday := dayOfMonth_lt (t.micros / 86400000000)
  have hzone : ∀ c ∈ lit "+00:00", c < 128 := by decide
  have hpad : ∀ {w n : Nat}, n < 10 ^ w → ∀ c ∈ padded w n, c < 128 := padded_ascii
  intro c hc
  simp only [isoformat, dateText, clockText, fractionText, List.mem_append, List.mem_cons] at hc
  rcases hc with (hc | rfl | hc | rfl | hc) | rfl | (hc | rfl | hc | rfl | hc) | hc
  · exact hpad (by omega) c hc
  · decide
  · exact hpad (by omega) c hc
  · decide
  · exact hpad (by omega) c hc
  · decide
  · exact hpad (by omega) c hc
  · decide
  · exact hpad (by omega) c hc
  · decide
  · exact hpad (by omega) c hc
  · split at hc
    · exact hzone c hc
    · rcases List.mem_cons.mp hc with rfl | hc
      · decide
      · rcases List.mem_append.mp hc with hc | hc
        · exact hpad (by omega) c hc
        · exact hzone c hc

theorem isoformat_strictMono : StrictMono isoformat := by
  intro a b h
  have hlt : a.micros < b.micros := h
  have hb := b.inRange
  have hle : a.micros / 86400000000 ≤ b.micros / 86400000000 := Nat.div_le_div_right hlt.le
  refine append_lt_append (by rw [length_dateText, length_dateText]) ?_
  rcases hle.lt_or_eq with hday | hday
  · exact .inl (dateText_lt hday (by omega))
  refine .inr ⟨by rw [hday], List.cons_lt_cons_iff.mpr (.inr ⟨rfl, ?_⟩)⟩
  refine append_lt_append (by rw [length_clockText, length_clockText]) ?_
  have hsec : a.micros / 1000000 % 86400 ≤ b.micros / 1000000 % 86400 := by omega
  rcases hsec.lt_or_eq with hsec | hsec
  · exact .inl (clockText_lt hsec (by omega))
  · exact .inr ⟨by rw [hsec], fractionText_lt (by omega) (by omega)⟩

/-- The texts are ordered as the instants are. -/
theorem isoformat_lt_iff {a b : Instant} : a.isoformat < b.isoformat ↔ a < b :=
  isoformat_strictMono.lt_iff_lt

theorem addSeconds_eq_some {now later : Instant} {seconds : Nat}
    (h : now.addSeconds seconds = some later) :
    later.micros = now.micros + seconds * 1000000 := by
  unfold addSeconds at h
  split_ifs at h
  cases h
  rfl

end Instant

end AgentRoi
