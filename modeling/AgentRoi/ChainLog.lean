/-
Logs in which several hash chains are interleaved.

An entry belongs to the chain of its key and names the hash of its predecessor
in that chain.  Nothing here mentions the package:

* `tails`, `LinkedFrom` — the hash each chain ends in, and that every entry
  names the tail it was added to;
* `linked_concat`, `tails_concat` — one more entry;
* `tails_map`, `linked_map`, `tails_rel`, `linked_rel` — the same entries in
  another form;
* `tails_eq_getLast` — the tail is the hash of the last entry of the chain;
* `chain_determined` — two linked logs in which equal hashes mean equal
  entries agree on every chain whose tails agree.
-/
import Mathlib.Data.List.Forall2
import Mathlib.Data.List.Induction
import Mathlib.Logic.Function.Basic

namespace AgentRoi

namespace ChainLog

variable {E K D : Type*} [DecidableEq K]

/-- The table of tails after a log, from the table before it. -/
def tailsFrom (key : E → K) (hash : E → Option D) (start : K → Option D) :
    List E → K → Option D
  | [] => start
  | e :: es => tailsFrom key hash (Function.update start (key e) (hash e)) es

/-- Every entry names the tail of its chain, from the table before the log. -/
def LinkedFrom (key : E → K) (prev hash : E → Option D) (start : K → Option D) :
    List E → Prop
  | [] => True
  | e :: es => prev e = start (key e) ∧
      LinkedFrom key prev hash (Function.update start (key e) (hash e)) es

/-- The table of tails of a log. -/
def tails (key : E → K) (hash : E → Option D) (log : List E) : K → Option D :=
  tailsFrom key hash (fun _ => none) log

/-- Every entry names the tail of its chain. -/
def Linked (key : E → K) (prev hash : E → Option D) (log : List E) : Prop :=
  LinkedFrom key prev hash (fun _ => none) log

/-- The entries of one chain, in order. -/
def chain (key : E → K) (k : K) (log : List E) : List E := log.filter fun e => key e = k

variable {key : E → K} {prev hash : E → Option D}

theorem tailsFrom_concat (start : K → Option D) (log : List E) (e : E) :
    tailsFrom key hash start (log ++ [e]) =
      Function.update (tailsFrom key hash start log) (key e) (hash e) := by
  induction log generalizing start with
  | nil => rfl
  | cons f log ih => exact ih _

theorem linkedFrom_concat (start : K → Option D) (log : List E) (e : E) :
    LinkedFrom key prev hash start (log ++ [e]) ↔
      LinkedFrom key prev hash start log ∧ prev e = tailsFrom key hash start log (key e) := by
  induction log generalizing start with
  | nil => simp [LinkedFrom, tailsFrom]
  | cons f log ih => simp only [List.cons_append, LinkedFrom, tailsFrom, ih, and_assoc]

@[simp] theorem tails_nil (k : K) : tails key hash ([] : List E) k = none := rfl

theorem tails_concat (log : List E) (e : E) :
    tails key hash (log ++ [e]) = Function.update (tails key hash log) (key e) (hash e) :=
  tailsFrom_concat _ log e

theorem linked_nil : Linked key prev hash ([] : List E) := trivial

theorem linked_concat (log : List E) (e : E) :
    Linked key prev hash (log ++ [e]) ↔
      Linked key prev hash log ∧ prev e = tails key hash log (key e) :=
  linkedFrom_concat _ log e

theorem chain_concat_self {k : K} (log : List E) {e : E} (h : key e = k) :
    chain key k (log ++ [e]) = chain key k log ++ [e] := by
  simp [chain, h]

theorem chain_concat_of_ne {k : K} (log : List E) {e : E} (h : key e ≠ k) :
    chain key k (log ++ [e]) = chain key k log := by
  simp [chain, h]

section Map

variable {E' : Type*} {key' : E' → K} {prev' hash' : E' → Option D} {f : E → E'}

theorem tailsFrom_map (start : K → Option D) {log : List E}
    (hk : ∀ e ∈ log, key' (f e) = key e) (hh : ∀ e ∈ log, hash' (f e) = hash e) :
    tailsFrom key' hash' start (log.map f) = tailsFrom key hash start log := by
  induction log generalizing start with
  | nil => rfl
  | cons e log ih =>
    rw [List.map_cons, tailsFrom, tailsFrom, hk e (by simp), hh e (by simp)]
    exact ih _ (fun e he => hk e (by simp [he])) fun e he => hh e (by simp [he])

theorem linkedFrom_map (start : K → Option D) {log : List E}
    (hk : ∀ e ∈ log, key' (f e) = key e) (hp : ∀ e ∈ log, prev' (f e) = prev e)
    (hh : ∀ e ∈ log, hash' (f e) = hash e) :
    LinkedFrom key' prev' hash' start (log.map f) ↔ LinkedFrom key prev hash start log := by
  induction log generalizing start with
  | nil => rfl
  | cons e log ih =>
    rw [List.map_cons, LinkedFrom, LinkedFrom, hk e (by simp), hp e (by simp), hh e (by simp),
      ih _ (fun e he => hk e (by simp [he])) (fun e he => hp e (by simp [he]))
        fun e he => hh e (by simp [he])]

/-- Entries stored in another form have the same tails. -/
theorem tails_map {log : List E} (hk : ∀ e ∈ log, key' (f e) = key e)
    (hh : ∀ e ∈ log, hash' (f e) = hash e) :
    tails key' hash' (log.map f) = tails key hash log :=
  tailsFrom_map _ hk hh

theorem linked_map {log : List E} (hk : ∀ e ∈ log, key' (f e) = key e)
    (hp : ∀ e ∈ log, prev' (f e) = prev e) (hh : ∀ e ∈ log, hash' (f e) = hash e) :
    Linked key' prev' hash' (log.map f) ↔ Linked key prev hash log :=
  linkedFrom_map _ hk hp hh

end Map

section Rel

variable {E' : Type*} {key' : E' → K} {prev' hash' : E' → Option D} {log : List E} {log' : List E'}

theorem tailsFrom_rel (start : K → Option D)
    (h : List.Forall₂ (fun e e' => key e = key' e' ∧ hash e = hash' e') log log') :
    tailsFrom key hash start log = tailsFrom key' hash' start log' := by
  induction h generalizing start with
  | nil => rfl
  | cons he _ ih =>
    rw [tailsFrom, tailsFrom, he.1, he.2]
    exact ih _

theorem linkedFrom_rel (start : K → Option D)
    (h : List.Forall₂ (fun e e' => key e = key' e' ∧ prev e = prev' e' ∧ hash e = hash' e') log log') :
    LinkedFrom key prev hash start log ↔ LinkedFrom key' prev' hash' start log' := by
  induction h generalizing start with
  | nil => rfl
  | cons he _ ih => rw [LinkedFrom, LinkedFrom, he.1, he.2.1, he.2.2, ih]

/-- Entries that stand for others have their tails. -/
theorem tails_rel (h : List.Forall₂ (fun e e' => key e = key' e' ∧ hash e = hash' e') log log') :
    tails key hash log = tails key' hash' log' :=
  tailsFrom_rel _ h

theorem linked_rel
    (h : List.Forall₂ (fun e e' => key e = key' e' ∧ prev e = prev' e' ∧ hash e = hash' e') log log') :
    Linked key prev hash log ↔ Linked key' prev' hash' log' :=
  linkedFrom_rel _ h

end Rel

/-- The tail of a chain is the hash of its last entry. -/
theorem tails_eq_getLast (log : List E) (k : K) :
    tails key hash log k = (chain key k log).getLast?.bind hash := by
  induction log using List.reverseRecOn with
  | nil => rfl
  | append_singleton log e ih =>
    rw [tails_concat]
    by_cases h : key e = k
    · rw [chain_concat_self log h, ← h]
      simp
    · rw [chain_concat_of_ne log h, Function.update_of_ne (Ne.symm h), ih]

/-- A chain of sealed entries has no tail only when it is empty. -/
theorem chain_eq_nil_of_tails_eq_none {log : List E} {k : K} (hs : ∀ e ∈ log, hash e ≠ none)
    (h : tails key hash log k = none) : chain key k log = [] := by
  rw [tails_eq_getLast] at h
  cases hl : (chain key k log).getLast? with
  | none => simpa using hl
  | some e =>
    rw [hl, Option.bind_some] at h
    have hmem : e ∈ chain key k log := List.mem_of_getLast? hl
    exact absurd h (hs e (List.mem_of_mem_filter hmem))

/-- Where equal hashes mean related entries with the same predecessor, the
tail of a chain determines the whole chain.  The induction runs from the end:
the last entries are related, hence name the same tail before them. -/
theorem chain_determined {R : E → E → Prop} {k : K} : ∀ {xs ys : List E},
    Linked key prev hash xs → Linked key prev hash ys →
    (∀ e ∈ xs, hash e ≠ none) → (∀ f ∈ ys, hash f ≠ none) →
    (∀ e ∈ xs, ∀ f ∈ ys, hash e = hash f → R e f ∧ prev e = prev f) →
    tails key hash xs k = tails key hash ys k →
    List.Forall₂ R (chain key k xs) (chain key k ys) := by
  intro xs
  induction xs using List.reverseRecOn with
  | nil =>
    intro ys _ _ _ hsy _ ht
    rw [tails_nil] at ht
    rw [chain_eq_nil_of_tails_eq_none hsy ht.symm]
    exact .nil
  | append_singleton xs e ihx =>
    intro ys
    induction ys using List.reverseRecOn with
    | nil =>
      intro _ _ hsx _ _ ht
      rw [tails_nil] at ht
      rw [chain_eq_nil_of_tails_eq_none hsx ht]
      exact .nil
    | append_singleton ys f ihy =>
      intro hx hy hsx hsy hR ht
      obtain ⟨hx', hpe⟩ := (linked_concat xs e).mp hx
      obtain ⟨hy', hpf⟩ := (linked_concat ys f).mp hy
      have hsx' : ∀ a ∈ xs, hash a ≠ none := fun a ha => hsx a (by simp [ha])
      have hsy' : ∀ a ∈ ys, hash a ≠ none := fun a ha => hsy a (by simp [ha])
      by_cases he : key e = k
      · by_cases hf : key f = k
        · -- both logs end in an entry of the chain
          rw [tails_concat, tails_concat, ← he, Function.update_self, he, ← hf,
            Function.update_self] at ht
          obtain ⟨hef, hprev⟩ := hR e (by simp) f (by simp) ht
          rw [chain_concat_self xs he, chain_concat_self ys hf]
          refine List.rel_append (ihx hx' hy' hsx' hsy' (fun a ha b hb => hR a (by simp [ha]) b
            (by simp [hb])) ?_) (.cons hef .nil)
          rw [he] at hpe
          rw [hf] at hpf
          rw [← hpe, ← hpf, hprev]
        · rw [chain_concat_of_ne ys hf]
          rw [tails_concat ys, Function.update_of_ne (Ne.symm hf)] at ht
          exact ihy hx hy' hsx hsy' (fun a ha b hb => hR a ha b (by simp [hb])) ht
      · rw [chain_concat_of_ne xs he]
        rw [tails_concat xs, Function.update_of_ne (Ne.symm he)] at ht
        exact ihx hx' hy hsx' hsy (fun a ha b hb => hR a (by simp [ha]) b hb) ht

end ChainLog

end AgentRoi
