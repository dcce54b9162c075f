/-
Shell-style patterns, as `fnmatch.fnmatchcase` reads them.

Nothing here mentions the package.  A `*` stands for any text, a `?` for any
character, and brackets for one of a set of characters and ranges; a bracket
that is not closed stands for itself.

* `PatternPart`, `patternParts` — the parts of a pattern;
* `matchesParts`, `fnmatchcase` — whether a text matches;
* `fnmatchcase_star`, `fnmatchcase_plain` — the pattern of every text, and the
  patterns with no special character.
-/
import AgentRoi.PyStr

namespace AgentRoi

/-- A part of a pattern; the ranges are those of a bracket. -/
inductive PatternPart where
  | star
  | any
  | char (c : Nat)
  | oneOf (negated : Bool) (ranges : List (Nat × Nat))

/-- The ranges between brackets; a single character is a range of its own. -/
def bracketRanges : Str → List (Nat × Nat)
  | low :: 45 :: high :: rest => (low, high) :: bracketRanges rest
  | c :: rest => (c, c) :: bracketRanges rest
  | [] => []

/-- What is between the brackets, and what follows: a `]` that comes first
belongs to the set. -/
def closeBracket (pattern : Str) : Option (Str × Str) :=
  let first := match pattern with
    | 33 :: 93 :: _ => 2
    | 33 :: _ => 1
    | 93 :: _ => 1
    | _ => 0
  let body := (pattern.drop first).takeWhile fun c => c ≠ 93
  match (pattern.drop first).drop body.length with
  | _ :: rest => some (pattern.take first ++ body, rest)
  | [] => none

/-- The part a bracket stands for. -/
def bracketPart : Str → PatternPart
  | 33 :: body => .oneOf true (bracketRanges body)
  | body => .oneOf false (bracketRanges body)

/-- The parts of a pattern, of which `fuel` bounds the length. -/
def patternPartsFrom : ℕ → Str → List PatternPart
  | 0, _ => []
  | _ + 1, [] => []
  | fuel + 1, c :: rest =>
    if c = 42 then .star :: patternPartsFrom fuel rest
    else if c = 63 then .any :: patternPartsFrom fuel rest
    else if c = 91 then
      match closeBracket rest with
      | some (body, rest) => bracketPart body :: patternPartsFrom fuel rest
      | none => .char 91 :: patternPartsFrom fuel rest
    else .char c :: patternPartsFrom fuel rest

def patternParts (pattern : Str) : List PatternPart := patternPartsFrom pattern.length pattern

/-- Whether the part matches one character. -/
def PatternPart.accepts (c : Nat) : PatternPart → Bool
  | .star | .any => true
  | .char d => c = d
  | .oneOf negated ranges => (ranges.any fun r => r.1 ≤ c && c ≤ r.2) != negated

def matchesParts : List PatternPart → Str → Bool
  | [], text => text.isEmpty
  -- a star takes any number of characters
  | .star :: parts, text => text.tails.any (matchesParts parts)
  | part :: parts, c :: text => part.accepts c && matchesParts parts text
  | _ :: _, [] => false

/-- `fnmatch.fnmatchcase(text, pattern)`. -/
def fnmatchcase (text pattern : Str) : Bool := matchesParts (patternParts pattern) text

example : fnmatchcase (lit "tool.execute:invoice") (lit "tool.execute:*") = true := by decide
example : fnmatchcase (lit "b") (lit "[!a-c]") = false := by decide

theorem fnmatchcase_star (text : Str) : fnmatchcase text (lit "*") = true := by
  show text.tails.any (matchesParts []) = true
  rw [List.any_eq_true]
  exact ⟨[], (List.mem_tails _ _).mpr List.nil_suffix, rfl⟩

/-- No character that means more than itself. -/
def Plain (pattern : Str) : Prop := ∀ c ∈ pattern, c ≠ 42 ∧ c ≠ 63 ∧ c ≠ 91

theorem patternPartsFrom_plain {fuel : ℕ} {pattern : Str} (h : Plain pattern)
    (hfuel : pattern.length ≤ fuel) : patternPartsFrom fuel pattern = pattern.map .char := by
  induction pattern generalizing fuel with
  | nil => cases fuel <;> rfl
  | cons c rest ih =>
    obtain ⟨hstar, hany, hbracket⟩ := h c List.mem_cons_self
    have hrest : Plain rest := fun d hd => h d (List.mem_cons_of_mem c hd)
    cases fuel with
    | zero => exact absurd hfuel (Nat.not_succ_le_zero _)
    | succ fuel =>
      rw [patternPartsFrom, if_neg hstar, if_neg hany, if_neg hbracket,
        ih hrest (Nat.le_of_succ_le_succ hfuel)]
      rfl

theorem matchesParts_chars (chars text : Str) :
    matchesParts (chars.map .char) text = true ↔ text = chars := by
  induction chars generalizing text with
  | nil => cases text <;> simp [matchesParts]
  | cons c chars ih =>
    cases text with
    | nil => simp [matchesParts]
    | cons d text => simp [matchesParts, PatternPart.accepts, ih]

/-- Such a pattern matches only itself. -/
theorem fnmatchcase_plain {text pattern : Str} (h : Plain pattern) :
    fnmatchcase text pattern = true ↔ text = pattern := by
  rw [fnmatchcase, patternParts, patternPartsFrom_plain h le_rfl, matchesParts_chars]

end AgentRoi
