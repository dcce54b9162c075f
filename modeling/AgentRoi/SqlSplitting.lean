/-
What `split_sql_statements` keeps: no character is lost, and a statement that
is split again stays whole.

* `scan` — the loop over a piece of the script that ends before the next bare
  semicolon, given what follows the piece;
* `splitLoop_of_scan` — the loop is the scan of a piece, and then the rest;
* `IsCut`, `splitSqlStatements_eq_ok_iff` — the pieces a script is cut into;
* `scan_neutral` — a space or a semicolon behind a piece is read as its end,
  so that a piece can be cut out, and trimmed;
* `splitSqlStatements_stable` — every script is refused, or cut into pieces each
  of which is one statement by itself.
-/
import AgentRoi.SqlScript

namespace AgentRoi

/-- The loop over `piece`, with `tail` behind it: what the next character
belongs to, and none when a bare semicolon was met. -/
def scan (tail : Str) : Str → ℕ → SqlMode → Option (ℕ × SqlMode)
  | [], skip, mode => some (skip, mode)
  | _ :: piece, skip + 1, mode => scan tail piece skip mode
  | char :: piece, 0, mode =>
    if mode = .plain ∧ char = 59 then none
    else
      let (next, skip) := nextMode mode char (piece ++ tail)
      scan tail piece skip next

variable {tail piece more buffer : Str} {skip skip' : ℕ} {mode mode' : SqlMode}
  {statements : List Str}

/-- The loop reads a piece as its scan does. -/
theorem splitLoop_of_scan (h : scan tail piece skip mode = some (skip', mode')) :
    splitLoop (piece ++ tail) skip mode buffer statements =
      splitLoop tail skip' mode' (buffer ++ piece) statements := by
  induction piece generalizing skip mode buffer with
  | nil =>
    cases h
    rw [List.nil_append, List.append_nil]
  | cons char piece ih =>
    have hbuffer : buffer ++ char :: piece = buffer ++ [char] ++ piece := by simp
    cases skip with
    | succ skip =>
      rw [scan] at h
      rw [List.cons_append, splitLoop, ih h, hbuffer]
    | zero =>
      rw [scan] at h
      split_ifs at h with hend
      rw [List.cons_append, splitLoop, if_neg hend, hbuffer]
      exact ih h

theorem scan_append (piece more : Str) (skip : ℕ) (mode : SqlMode) :
    scan tail (piece ++ more) skip mode =
      (scan (more ++ tail) piece skip mode).bind fun r => scan tail more r.1 r.2 := by
  induction piece generalizing skip mode with
  | nil => rfl
  | cons char piece ih =>
    cases skip with
    | succ skip => exact ih skip mode
    | zero =>
      rw [List.cons_append, scan, scan, List.append_assoc]
      split_ifs
      · rfl
      · exact ih _ _

/-! ### Cutting a script into pieces -/

/-- Nothing is open there. -/
def SqlMode.Closed (mode : SqlMode) : Prop := mode = .plain ∨ mode = .lineComment

/-- The loop ends each piece at a bare semicolon, and the last at the end. -/
def IsCut : List Str → Prop
  | [] => False
  | [last] => ∃ skip mode, scan [] last 0 .plain = some (skip, mode) ∧ mode.Closed
  | piece :: next :: pieces =>
    scan (59 :: [59].intercalate (next :: pieces)) piece 0 .plain = some (0, .plain) ∧
      IsCut (next :: pieces)

theorem IsCut.ne_nil {pieces : List Str} (h : IsCut pieces) : pieces ≠ [] := by
  rintro rfl
  exact h

/-- The loop, from a piece it has begun. -/
theorem exists_isCut {rest : Str} {r : List Str}
    (hread : scan rest buffer 0 .plain = some (skip, mode))
    (h : splitLoop rest skip mode buffer statements = .ok r) :
    ∃ pieces, IsCut pieces ∧ [59].intercalate pieces = buffer ++ rest ∧
      r = statements ++ statementsOf pieces := by
  induction rest generalizing buffer skip mode statements with
  | nil =>
    have hlast : ∀ mode : SqlMode, mode.Closed → scan [] buffer 0 .plain = some (skip, mode) →
        r = closeStatement buffer statements → ∃ pieces, IsCut pieces ∧
          [59].intercalate pieces = buffer ++ [] ∧ r = statements ++ statementsOf pieces :=
      fun mode hclosed hread hr =>
        ⟨[buffer], ⟨skip, mode, hread, hclosed⟩, by simp, hr.trans closeStatement_eq⟩
    cases mode with
    | plain => exact hlast _ (.inl rfl) hread (by cases h; rfl)
    | lineComment => exact hlast _ (.inr rfl) hread (by cases h; rfl)
    | blockComment | dollar tag | quote mark => cases h
  | cons char rest ih =>
    -- the character goes to the buffer
    have hpush : ∀ {skip' : ℕ} {mode' : SqlMode},
        scan rest [char] skip mode = some (skip', mode') →
        splitLoop rest skip' mode' (buffer ++ [char]) statements = .ok r →
        ∃ pieces, IsCut pieces ∧ [59].intercalate pieces = buffer ++ char :: rest ∧
          r = statements ++ statementsOf pieces := by
      intro skip' mode' hchar h
      have hread : scan rest (buffer ++ [char]) 0 .plain = some (skip', mode') := by
        rw [scan_append, List.singleton_append, hread, Option.bind_some, hchar]
      obtain ⟨pieces, hcut, hpieces, hr⟩ := ih hread h
      exact ⟨pieces, hcut, by rw [hpieces, List.append_assoc, List.singleton_append], hr⟩
    cases skip with
    | succ skip => exact hpush rfl h
    | zero =>
      rw [splitLoop] at h
      split at h
      · next hend =>
        -- a semicolon: the buffer is a piece of its own
        obtain ⟨rfl, rfl⟩ := hend
        have hempty : scan rest [] 0 .plain = some (0, .plain) := rfl
        obtain ⟨pieces, hcut, hpieces, rfl⟩ := ih hempty h
        obtain ⟨next, pieces, rfl⟩ := List.exists_cons_of_ne_nil hcut.ne_nil
        refine ⟨buffer :: next :: pieces, ⟨?_, hcut⟩, ?_, ?_⟩
        · rw [hpieces]
          exact hread
        · rw [List.intercalate_cons_cons, hpieces]
          simp
        · rw [closeStatement_eq, List.append_assoc, ← statementsOf_cons]
      · next hend =>
        refine hpush ?_ h
        rw [scan, if_neg hend]
        rfl

/-- The loop over a script that is cut; by induction on its pieces. -/
theorem splitLoop_of_isCut {pieces : List Str} (h : IsCut pieces) (statements : List Str) :
    splitLoop ([59].intercalate pieces) 0 .plain [] statements =
      .ok (statements ++ statementsOf pieces) := by
  induction pieces generalizing statements with
  | nil => exact h.elim
  | cons piece pieces ih =>
    cases pieces with
    | nil =>
      obtain ⟨skip, mode, hread, hclosed⟩ := h
      have hloop : splitLoop (piece ++ []) 0 .plain [] statements =
          splitLoop [] skip mode ([] ++ piece) statements := splitLoop_of_scan hread
      rw [List.append_nil, List.nil_append] at hloop
      rw [List.intercalate_singleton, hloop, ← closeStatement_eq]
      rcases hclosed with rfl | rfl <;> rfl
    | cons next pieces =>
      obtain ⟨hread, hcut⟩ := h
      have hloop : splitLoop (piece ++ 59 :: [59].intercalate (next :: pieces)) 0 .plain []
          statements = splitLoop (59 :: [59].intercalate (next :: pieces)) 0 .plain ([] ++ piece)
            statements := splitLoop_of_scan hread
      rw [List.intercalate_cons_cons, List.append_assoc, List.singleton_append, hloop,
        List.nil_append, splitLoop, if_pos ⟨rfl, rfl⟩, ih hcut, closeStatement_eq,
        List.append_assoc, ← statementsOf_cons]

/-- A script is split exactly where it is cut. -/
theorem splitSqlStatements_eq_ok_iff {sql : Str} : splitSqlStatements sql = .ok statements ↔
    ∃ pieces, IsCut pieces ∧ [59].intercalate pieces = sql ∧ statements = statementsOf pieces := by
  constructor
  · intro h
    have hempty : scan sql [] 0 .plain = some (0, .plain) := rfl
    exact exists_isCut hempty h
  · rintro ⟨pieces, hcut, rfl, rfl⟩
    exact splitLoop_of_isCut hcut []

/-- A space, a semicolon or the end of the script. -/
def Neutral (tail : Str) : Prop := ∀ c ∈ tail.head?, isSpace c = true ∨ c = 59

/-- The piece closes what it opens, with `tail` behind it. -/
def IsPiece (tail piece : Str) : Prop :=
  ∃ skip mode, scan tail piece 0 .plain = some (skip, mode) ∧ mode.Closed

theorem IsCut.isPiece {pieces : List Str} (h : IsCut pieces) :
    ∀ piece ∈ pieces, ∃ tail, Neutral tail ∧ IsPiece tail piece := by
  induction pieces with
  | nil => exact h.elim
  | cons piece pieces ih =>
    cases pieces with
    | nil =>
      intro piece' hmem
      rw [List.mem_singleton.mp hmem]
      exact ⟨[], by simp [Neutral], h⟩
    | cons next pieces =>
      obtain ⟨hread, hcut⟩ := h
      refine List.forall_mem_cons.mpr ⟨?_, ih hcut⟩
      exact ⟨_, by simp [Neutral], 0, .plain, hread, .inl rfl⟩

/-! ### What stands behind a piece -/

/-- No space, and no semicolon. -/
def Solid (c : Nat) : Prop := isSpace c = false ∧ c ≠ 59

instance : DecidablePred Solid := fun c => inferInstanceAs (Decidable (isSpace c = false ∧ c ≠ 59))

/-- What a mode remembers is made of solid characters. -/
def SqlMode.Sound : SqlMode → Prop
  | .dollar tag => tag ≠ [] ∧ ∀ c ∈ tag, Solid c
  | .quote mark => mark = 39 ∨ mark = 34
  | _ => True

theorem solid_of_isIdentifier {c : Nat} (h : isIdentifier c = true) : Solid c := by
  have hrange : 48 ≤ c ∧ c ≤ 57 ∨ 65 ≤ c ∧ c ≤ 122 := by
    simp only [isIdentifier, Bool.or_eq_true, Bool.and_eq_true, decide_eq_true_eq,
      beq_iff_eq] at h
    omega
  refine ⟨?_, by omega⟩
  rw [← Bool.not_eq_true]
  intro hspace
  simp only [isSpace, Bool.or_eq_true, Bool.and_eq_true, decide_eq_true_eq, beq_iff_eq] at hspace
  omega

/-- A tag is a name between two dollar signs. -/
theorem dollarTag_eq_some {rest tag : Str} (h : dollarTag rest = some tag) :
    tag = 36 :: rest.takeWhile isIdentifier ++ [36] := by
  dsimp only [dollarTag] at h
  split_ifs at h
  exact (Option.some.inj h).symm

theorem sound_dollarTag {rest tag : Str} (h : dollarTag rest = some tag) :
    (SqlMode.dollar tag).Sound := by
  rw [dollarTag_eq_some h]
  refine ⟨by simp, fun c hc => ?_⟩
  have hdollar : Solid 36 := by decide
  rcases List.mem_append.mp hc with hc | hc
  · rcases List.mem_cons.mp hc with rfl | hc
    · exact hdollar
    · exact solid_of_isIdentifier (List.mem_takeWhile_imp hc)
  · rw [List.mem_singleton.mp hc]
    exact hdollar

theorem sound_nextMode (hmode : mode.Sound) (char : Nat) (rest : Str) :
    (nextMode mode char rest).1.Sound := by
  cases mode with
  | plain =>
    unfold nextMode
    dsimp only
    split_ifs with _ _ hquote
    · trivial
    · trivial
    · exact hquote
    · split
      · next htag => exact sound_dollarTag htag
      · trivial
    · trivial
  | lineComment | blockComment | dollar tag | quote mark =>
    unfold nextMode
    dsimp only
    split_ifs <;> trivial

theorem sound_scan (hmode : mode.Sound) (h : scan tail piece skip mode = some (skip', mode')) :
    mode'.Sound := by
  induction piece generalizing skip mode with
  | nil =>
    cases h
    exact hmode
  | cons char piece ih =>
    cases skip with
    | succ skip => exact ih hmode h
    | zero =>
      rw [scan] at h
      split_ifs at h
      exact ih (sound_nextMode hmode char _) h

/-- A solid character that is looked for is not found behind the piece. -/
theorem head?_append_neutral (htail : Neutral tail) {c : Nat} (hc : Solid c) (rest : Str) :
    (rest ++ tail).head? = some c ↔ rest.head? = some c := by
  cases rest with
  | nil =>
    refine ⟨fun h => ?_, nofun⟩
    rcases htail c h with hspace | rfl
    · rw [hc.1] at hspace
      cases hspace
    · exact absurd rfl hc.2
  | cons d rest => rfl

theorem takeWhile_append_neutral (htail : Neutral tail) (rest : Str) :
    (rest ++ tail).takeWhile isIdentifier = rest.takeWhile isIdentifier := by
  induction rest with
  | nil =>
    cases tail with
    | nil => rfl
    | cons c tail =>
      have hc : isIdentifier c ≠ true := by
        intro h
        obtain ⟨hspace, hne⟩ := solid_of_isIdentifier h
        rcases htail c rfl with h' | rfl
        · rw [hspace] at h'
          cases h'
        · exact hne rfl
      rw [List.nil_append, List.takeWhile_cons, if_neg hc]
      rfl
  | cons d rest ih => rw [List.cons_append, List.takeWhile_cons, List.takeWhile_cons, ih]

theorem dollarTag_append_neutral (htail : Neutral tail) (rest : Str) :
    dollarTag (rest ++ tail) = dollarTag rest := by
  have hname := takeWhile_append_neutral htail rest
  have hle : (rest.takeWhile isIdentifier).length ≤ rest.length :=
    (List.takeWhile_prefix _).length_le
  have hhead := head?_append_neutral htail (by decide : Solid 36)
    (rest.drop (rest.takeWhile isIdentifier).length)
  rw [← List.drop_append_of_le_length hle] at hhead
  simp only [dollarTag, hname, hhead]

theorem isPrefixOf_append_neutral (htail : Neutral tail) {tag : Str} (htag : ∀ c ∈ tag, Solid c)
    (s : Str) : tag.isPrefixOf (s ++ tail) = tag.isPrefixOf s := by
  induction tag generalizing s with
  | nil => simp
  | cons c tag ih =>
    obtain ⟨hc, htag⟩ := List.forall_mem_cons.mp htag
    cases s with
    | nil =>
      have hne : (([] : Str) ++ tail).head? ≠ some c := fun h => by
        have := (head?_append_neutral htail hc []).mp h
        cases this
      cases tail with
      | nil => rfl
      | cons d tail =>
        have hcd : (c == d) = false := beq_false_of_ne fun h => hne (by rw [h]; rfl)
        rw [List.nil_append, List.isPrefixOf_cons_cons, hcd]
        rfl
    | cons d s =>
      rw [List.cons_append, List.isPrefixOf_cons_cons, List.isPrefixOf_cons_cons, ih htag]

/-- What follows the piece is not looked at, unless its last character begins
an escape in a string. -/
theorem nextMode_neutral (hmode : mode.Sound) (htail : Neutral tail) (char : Nat) (rest : Str) :
    nextMode mode char (rest ++ tail) = nextMode mode char rest ∨
      rest = [] ∧ ∃ mark, (nextMode mode char tail).1 = .quote mark := by
  have hhead : ∀ {c : Nat}, Solid c → ((rest ++ tail).head? = some c ↔ rest.head? = some c) :=
    fun hc => head?_append_neutral htail hc rest
  cases mode with
  | plain =>
    refine .inl ?_
    have hdash := hhead (by decide : Solid 45)
    have hstar := hhead (by decide : Solid 42)
    simp only [nextMode, hdash, hstar, dollarTag_append_neutral htail]
  | lineComment => exact .inl rfl
  | blockComment =>
    refine .inl ?_
    have hslash := hhead (by decide : Solid 47)
    simp only [nextMode, hslash]
  | dollar tag =>
    refine .inl ?_
    have htag := isPrefixOf_append_neutral htail hmode.2 (char :: rest)
    rw [List.cons_append] at htag
    simp only [nextMode, htag]
  | quote mark =>
    have hmark : Solid mark := by
      rcases hmode with rfl | rfl <;> decide
    -- a last character that is no mark may begin an escape
    by_cases hescape : rest = [] ∧ char ≠ mark
    · obtain ⟨rfl, hne⟩ := hescape
      refine .inr ⟨rfl, mark, ?_⟩
      unfold nextMode
      dsimp only
      rw [if_neg hne]
      split_ifs <;> rfl
    · refine .inl ?_
      simp only [nextMode, hhead hmark]
      by_cases hchar : char = mark
      · rw [if_pos hchar, if_pos hchar]
      · have hrest : rest ≠ [] := fun h => hescape ⟨h, hchar⟩
        simp [hchar, hrest]

/-- A piece that is closed at its end is read alike when it is cut out. -/
theorem scan_neutral (hmode : mode.Sound) (htail : Neutral tail)
    (h : scan tail piece skip mode = some (skip', mode')) (hclosed : mode'.Closed) :
    scan [] piece skip mode = some (skip', mode') := by
  induction piece generalizing skip mode with
  | nil => exact h
  | cons char piece ih =>
    cases skip with
    | succ skip => exact ih hmode h
    | zero =>
      rw [scan] at h ⊢
      split_ifs at h ⊢
      rw [List.append_nil]
      rcases nextMode_neutral hmode htail char piece with heq | ⟨rfl, mark, hquote⟩
      · rw [heq] at h
        exact ih (sound_nextMode hmode char _) h
      · -- the piece ends in a string, which is not closed
        have hend : (nextMode mode char tail).1 = mode' := congrArg Prod.snd (Option.some.inj h)
        rw [← hend, hquote] at hclosed
        rcases hclosed with h | h <;> cases h

/-! ### Trimming -/

/-- Spaces open nothing. -/
theorem scan_spaces (hspaces : ∀ c ∈ piece, isSpace c = true) (more : Str) :
    scan tail (piece ++ more) 0 .plain = scan tail more 0 .plain := by
  induction piece with
  | nil => rfl
  | cons char piece ih =>
    obtain ⟨hchar, hpiece⟩ := List.forall_mem_cons.mp hspaces
    have hne : ∀ {c : Nat}, isSpace c = false → char ≠ c := by
      rintro c hc rfl
      rw [hc] at hchar
      cases hchar
    have hnext : ∀ rest, nextMode .plain char rest = (.plain, 0) := by
      intro rest
      simp [nextMode, hne (c := 45) rfl, hne (c := 47) rfl, hne (c := 39) rfl,
        hne (c := 34) rfl, hne (c := 36) rfl]
    rw [List.cons_append, scan, if_neg fun h => hne (c := 59) rfl h.2, hnext]
    exact ih hpiece

/-- Spaces close nothing but a line comment. -/
theorem closed_of_scan_spaces (hmode : mode.Sound) (hspaces : ∀ c ∈ piece, isSpace c = true)
    (h : scan tail piece skip mode = some (skip', mode')) (hclosed : mode'.Closed) :
    mode.Closed := by
  induction piece generalizing skip mode with
  | nil =>
    cases h
    exact hclosed
  | cons char piece ih =>
    obtain ⟨hchar, hpiece⟩ := List.forall_mem_cons.mp hspaces
    have hne : ∀ {c : Nat}, isSpace c = false → char ≠ c := by
      rintro c hc rfl
      rw [hc] at hchar
      cases hchar
    cases skip with
    | succ skip => exact ih hmode hpiece h
    | zero =>
      rw [scan] at h
      split_ifs at h
      have hnext := ih (sound_nextMode hmode char _) hpiece h
      cases mode with
      | plain => exact .inl rfl
      | lineComment => exact .inr rfl
      | blockComment => simpa [nextMode, hne (c := 42) rfl] using hnext
      | dollar tag =>
        obtain ⟨hnil, htag⟩ := hmode
        obtain ⟨c, tag, rfl⟩ := List.exists_cons_of_ne_nil hnil
        have hc := hne (htag c List.mem_cons_self).1
        simpa [nextMode, Ne.symm hc] using hnext
      | quote mark =>
        have hmark : isSpace mark = false := by
          rcases hmode with rfl | rfl <;> rfl
        simpa [nextMode, hne hmark, hne (c := 92) rfl] using hnext

/-- A piece that is not blank is one statement by itself, once it is trimmed. -/
theorem splitSqlStatements_strip (htail : Neutral tail) (hpiece : IsPiece tail piece)
    (hblank : isBlank piece = false) : splitSqlStatements (strip piece) = .ok [strip piece] := by
  have hplain : SqlMode.plain.Sound := trivial
  obtain ⟨skip, mode, hread, hclosed⟩ := hpiece
  obtain ⟨before, after, hparts, hbefore, hafter⟩ := exists_eq_append_strip piece
  rw [hparts, scan_spaces hbefore, scan_append] at hread
  obtain ⟨⟨skip', mode'⟩, hcore, hrest⟩ := Option.bind_eq_some_iff.mp hread
  have hsound : mode'.Sound := sound_scan hplain hcore
  have hclosed' := closed_of_scan_spaces hsound hafter hrest hclosed
  have hneutral : Neutral (after ++ tail) := by
    cases after with
    | nil => exact htail
    | cons c after => simp [Neutral, hafter]
  have halone := scan_neutral hplain hneutral hcore hclosed'
  have hrun : splitLoop (strip piece ++ []) 0 .plain [] [] =
      splitLoop [] skip' mode' ([] ++ strip piece) [] := splitLoop_of_scan halone
  rw [List.append_nil, List.nil_append] at hrun
  have hclose : closeStatement (strip piece) [] = [strip piece] := by
    rw [closeStatement, isBlank_strip, hblank, strip_strip]
    rfl
  rw [splitSqlStatements, hrun, ← hclose]
  rcases hclosed' with rfl | rfl <;> rfl

/-- A script is refused when it ends inside of a string, a comment or a body. -/
theorem splitLoop_eq_error {rest : Str} {e : PyExc}
    (h : splitLoop rest skip mode buffer statements = .error e) :
    e = migrationError (lit "Migration SQL contains an unterminated quoted value or comment") := by
  induction rest generalizing skip mode buffer statements with
  | nil => cases mode <;> cases h <;> rfl
  | cons char rest ih =>
    cases skip with
    | succ skip => exact ih h
    | zero =>
      rw [splitLoop] at h
      split at h
      · exact ih h
      · exact ih h

/-- Every script is refused, or cut at semicolons into pieces of which only the
blank ones are dropped; and every statement is split into itself. -/
theorem splitSqlStatements_stable (sql : Str) :
    splitSqlStatements sql = .error (migrationError
        (lit "Migration SQL contains an unterminated quoted value or comment")) ∨
      ∃ pieces statements, splitSqlStatements sql = .ok statements ∧ pieces ≠ [] ∧
        [59].intercalate pieces = sql ∧ statements = statementsOf pieces ∧
        ∀ statement ∈ statements, splitSqlStatements statement = .ok [statement] := by
  rcases hsplit : splitSqlStatements sql with e | statements
  · exact .inl (congrArg _ (splitLoop_eq_error hsplit))
  · obtain ⟨pieces, hcut, hpieces, rfl⟩ := splitSqlStatements_eq_ok_iff.mp hsplit
    refine .inr ⟨pieces, _, rfl, hcut.ne_nil, hpieces, rfl, fun statement hmem => ?_⟩
    obtain ⟨piece, hpiece, rfl⟩ := List.mem_map.mp hmem
    obtain ⟨hpiece, hblank⟩ := List.mem_filter.mp hpiece
    obtain ⟨tail, htail, hread⟩ := hcut.isPiece piece hpiece
    exact splitSqlStatements_strip htail hread (by simpa using hblank)

end AgentRoi
