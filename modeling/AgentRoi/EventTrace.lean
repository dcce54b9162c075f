/-
Traces of the events of several parties, newest event first.

Nothing here mentions the package:

* `Every` — each event stands in a relation to what precedes it;
* `own` — the events of one party;
* `sinceLast`, `upToLast` — the trace after, and up to, the last event of a
  kind that a party logged; `upToLast_of_own` finds it from the party's own
  events.
-/
import Mathlib.Data.List.Basic

namespace AgentRoi

namespace EventTrace

variable {α ι ε : Type}

/-- Each event meets `P` with what precedes it. -/
def Every (P : α → List α → Prop) : List α → Prop
  | [] => True
  | e :: earlier => P e earlier ∧ Every P earlier

theorem Every.of_append {P : α → List α → Prop} {later earlier : List α}
    (h : Every P (later ++ earlier)) : Every P earlier := by
  induction later with
  | nil => exact h
  | cons e later ih => exact ih h.2

theorem Every.at {P : α → List α → Prop} {later earlier : List α} {e : α}
    (h : Every P (later ++ e :: earlier)) : P e earlier := h.of_append.1

/-- An event and what precedes it. -/
theorem Every.of_mem {P : α → List α → Prop} {trace : List α} {e : α} (h : Every P trace)
    (he : e ∈ trace) : ∃ later earlier, trace = later ++ e :: earlier ∧ P e earlier := by
  obtain ⟨later, earlier, rfl⟩ := List.append_of_mem he
  exact ⟨later, earlier, rfl, h.at⟩

theorem every_iff {P : α → List α → Prop} {trace : List α} :
    Every P trace ↔ ∀ later e earlier, trace = later ++ e :: earlier → P e earlier := by
  constructor
  · rintro h later e earlier rfl
    exact h.at
  · intro h
    induction trace with
    | nil => trivial
    | cons e trace ih =>
      refine ⟨h [] e trace rfl, ih fun later x earlier hx => h (e :: later) x earlier ?_⟩
      rw [hx, List.cons_append]

theorem Every.imp {P Q : α → List α → Prop} {trace : List α} (h : Every P trace)
    (hpq : ∀ e earlier, P e earlier → Q e earlier) : Every Q trace := by
  rw [every_iff] at h ⊢
  exact fun later e earlier ht => hpq e earlier (h later e earlier ht)

variable [DecidableEq ι]

/-- The events of the party `i`. -/
def own (i : ι) (trace : List (ι × ε)) : List ε := (trace.filter (·.1 = i)).map Prod.snd

/-- What happened after the last event of `i` of the kind `p`. -/
def sinceLast (i : ι) (p : ε → Bool) (trace : List (ι × ε)) : List (ι × ε) :=
  trace.takeWhile fun e => !(decide (e.1 = i) && p e.2)

/-- The trace up to the last event of `i` of the kind `p`. -/
def upToLast (i : ι) (p : ε → Bool) (trace : List (ι × ε)) : List (ι × ε) :=
  trace.dropWhile fun e => !(decide (e.1 = i) && p e.2)

@[simp] theorem own_nil (i : ι) : own i ([] : List (ι × ε)) = [] := rfl

@[simp] theorem own_cons_self (i : ι) (e : ε) (trace : List (ι × ε)) :
    own i ((i, e) :: trace) = e :: own i trace := by
  simp [own]

theorem own_cons_of_ne {i j : ι} (h : j ≠ i) (e : ε) (trace : List (ι × ε)) :
    own i ((j, e) :: trace) = own i trace := by
  simp [own, h]

theorem own_map_append_self (i : ι) (events : List ε) (trace : List (ι × ε)) :
    own i (events.map (i, ·) ++ trace) = events ++ own i trace := by
  induction events with
  | nil => rfl
  | cons e events ih => rw [List.map_cons, List.cons_append, own_cons_self, ih, List.cons_append]

theorem own_map_append_of_ne {i j : ι} (h : j ≠ i) (events : List ε) (trace : List (ι × ε)) :
    own i (events.map (j, ·) ++ trace) = own i trace := by
  induction events with
  | nil => rfl
  | cons e events ih => rw [List.map_cons, List.cons_append, own_cons_of_ne h, ih]

theorem mem_of_mem_own {i : ι} {e : ε} {trace : List (ι × ε)} (h : e ∈ own i trace) :
    (i, e) ∈ trace := by
  obtain ⟨x, hx, rfl⟩ := List.mem_map.mp h
  obtain ⟨hmem, hi⟩ := List.mem_filter.mp hx
  rw [decide_eq_true_eq] at hi
  rwa [← hi]

theorem mem_own_of_mem {i : ι} {e : ε} {trace : List (ι × ε)} (h : (i, e) ∈ trace) :
    e ∈ own i trace :=
  List.mem_map.mpr ⟨(i, e), List.mem_filter.mpr ⟨h, decide_eq_true rfl⟩, rfl⟩

theorem sinceLast_append_upToLast (i : ι) (p : ε → Bool) (trace : List (ι × ε)) :
    sinceLast i p trace ++ upToLast i p trace = trace := List.takeWhile_append_dropWhile

/-- The last event of a kind, found from the party's own events. -/
theorem upToLast_of_own {i : ι} {p : ε → Bool} {events old : List ε} {e : ε}
    {trace : List (ι × ε)} (h : own i trace = events ++ e :: old)
    (hevents : ∀ x ∈ events, p x = false) (he : p e = true) :
    ∃ earlier, upToLast i p trace = (i, e) :: earlier ∧
      own i (sinceLast i p trace) = events := by
  induction trace generalizing events with
  | nil => simp at h
  | cons x trace ih =>
    obtain ⟨j, x⟩ := x
    by_cases hj : j = i
    · subst hj
      rw [own_cons_self] at h
      cases events with
      | nil =>
        obtain ⟨rfl, -⟩ := List.cons.inj h
        exact ⟨trace, by simp [upToLast, he], by simp [sinceLast, he]⟩
      | cons y events =>
        rw [List.cons_append] at h
        obtain ⟨rfl, hrest⟩ := List.cons.inj h
        have hx : p x = false := hevents x List.mem_cons_self
        obtain ⟨earlier, hup, hown⟩ := ih hrest fun y hy => hevents y (List.mem_cons_of_mem _ hy)
        refine ⟨earlier, ?_, ?_⟩
        · rw [← hup]
          simp [upToLast, hx]
        · have hsince : sinceLast j p ((j, x) :: trace) = (j, x) :: sinceLast j p trace := by
            simp [sinceLast, hx]
          rw [hsince, own_cons_self, hown]
    · -- an event of another party ends nothing
      rw [own_cons_of_ne hj] at h
      obtain ⟨earlier, hup, hown⟩ := ih h hevents
      refine ⟨earlier, ?_, ?_⟩
      · rw [← hup]
        simp [upToLast, hj]
      · have hsince : sinceLast i p ((j, x) :: trace) = (j, x) :: sinceLast i p trace := by
          simp [sinceLast, hj]
        rw [hsince, own_cons_of_ne hj, hown]

end EventTrace

end AgentRoi
