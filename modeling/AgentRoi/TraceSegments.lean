/-
Traces, newest event first, in parts.

Nothing here mentions the package.

* `segments` — the trace, cut where its parts start;
* `IsSegment` — a part that is whole, so that what follows it is another part;
  `segments_append` cuts it off;
* `marksOf` — the marks of a part, oldest first.
-/
import Mathlib.Data.List.Basic

namespace AgentRoi

namespace EventTrace

variable {ε M : Type} {starts : ε → Bool} {segment more : List ε}

/-- The trace in parts, the newest part first; each begins with an event that
`starts`. -/
def segments (starts : ε → Bool) : List ε → List (List ε)
  | [] => []
  | e :: older =>
    if starts e then [e] :: segments starts older
    else match segments starts older with
      | [] => [[e]]
      | segment :: rest => (e :: segment) :: rest

/-- The oldest of the events starts a part, and no other does. -/
def IsSegment (starts : ε → Bool) (segment : List ε) : Prop :=
  ∃ events e, segment = events ++ [e] ∧ starts e = true ∧ ∀ x ∈ events, starts x = false

theorem IsSegment.append (h : IsSegment starts segment) (hmore : ∀ x ∈ more, starts x = false) :
    IsSegment starts (more ++ segment) := by
  obtain ⟨events, e, rfl, he, hevents⟩ := h
  refine ⟨more ++ events, e, (List.append_assoc _ _ _).symm, he, fun x hx => ?_⟩
  rcases List.mem_append.mp hx with hx | hx
  · exact hmore x hx
  · exact hevents x hx

/-- A part and what precedes it. -/
theorem segments_append (h : IsSegment starts segment) (older : List ε) :
    segments starts (segment ++ older) = segment :: segments starts older := by
  obtain ⟨events, e, rfl, he, hevents⟩ := h
  induction events with
  | nil => exact if_pos he
  | cons x events ih =>
    obtain ⟨hx, hevents⟩ := List.forall_mem_cons.mp hevents
    rw [List.cons_append, List.cons_append, segments, ih hevents, hx]
    rfl

/-- The marks of a part, oldest first. -/
def marksOf (mark : ε → Option M) (segment : List ε) : List M :=
  segment.reverse.filterMap mark

theorem marksOf_append (mark : ε → Option M) (more segment : List ε) :
    marksOf mark (more ++ segment) = marksOf mark segment ++ marksOf mark more := by
  rw [marksOf, List.reverse_append, List.filterMap_append, marksOf, marksOf]

theorem marksOf_eq_nil {mark : ε → Option M} (h : ∀ e ∈ segment, mark e = none) :
    marksOf mark segment = [] :=
  List.filterMap_eq_nil_iff.mpr fun e he => h e (List.mem_reverse.mp he)

theorem marksOf_replicate {mark : ε → Option M} {m : M} (h : ∀ e ∈ segment, mark e = some m) :
    marksOf mark segment = List.replicate segment.length m := by
  induction segment with
  | nil => rfl
  | cons e segment ih =>
    obtain ⟨he, hsegment⟩ := List.forall_mem_cons.mp h
    have hone : marksOf mark [e] = [m] := by simp [marksOf, he]
    rw [← List.singleton_append, marksOf_append, ih hsegment, hone, List.length_append,
      List.length_singleton, Nat.add_comm, List.replicate_succ']

end EventTrace

end AgentRoi
