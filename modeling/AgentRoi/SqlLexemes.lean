/-
`split_sql_statements` on PostgreSQL scripts.

A script is a list of statements, a statement a list of lexemes, as PostgreSQL
reads them with `standard_conforming_strings` on.

* `SqlLexeme`, `SqlLexeme.WellFormed` — the lexemes, each in front of the text
  that follows it;
* `IsScript`, `scriptText` — the statements of a script and its text;
* `splitSqlStatements_script_iff` — a script is split into its statements exactly
  when each of them is a statement of the splitter's dialect as well;
* `SqlLexeme.ReadAlike`, `isDialectScript_of_readAlike` — the lexemes that the
  dialect has too.
-/
import AgentRoi.SqlDialect

namespace AgentRoi

/-! ### Scripts -/

/-- How a line comment ends. -/
inductive SqlNewline where
  | lineFeed
  | carriageReturn
  | carriageReturnLineFeed
  | endOfScript
  deriving DecidableEq

def SqlNewline.text : SqlNewline → Str
  | .lineFeed => [10]
  | .carriageReturn => [13]
  | .carriageReturnLineFeed => [13, 10]
  | .endOfScript => []

/-- A lexeme of PostgreSQL. -/
inductive SqlLexeme where
  | string (content : Str)
  | quotedIdentifier (content : Str)
  | lineComment (body : Str) (newline : SqlNewline)
  | blockComment (body : Str)
  | dollarQuoted (tag body : Str)
  | other (char : Nat)
  deriving DecidableEq

/-- The content of a quoted lexeme, each mark in it doubled. -/
def doubled (mark : Nat) (content : Str) : Str :=
  content.flatMap fun c => if c = mark then [mark, mark] else [c]

def SqlLexeme.text : SqlLexeme → Str
  | .string content => 39 :: (doubled 39 content ++ [39])
  | .quotedIdentifier content => 34 :: (doubled 34 content ++ [34])
  | .lineComment body newline => 45 :: 45 :: (body ++ newline.text)
  | .blockComment body => 47 :: 42 :: body
  | .dollarQuoted tag body => delimiter tag ++ (body ++ delimiter tag)
  | .other char => [char]

/-- The text runs from inside of `depth + 1` comments to the end of them all. -/
inductive ClosesComment : ℕ → Str → Prop
  | last : ClosesComment 0 [42, 47]
  | close {depth rest} (h : ClosesComment depth rest) :
      ClosesComment (depth + 1) (42 :: 47 :: rest)
  | nest {depth rest} (h : ClosesComment (depth + 1) rest) :
      ClosesComment depth (47 :: 42 :: rest)
  | skip {depth c rest} (hclose : ¬(c = 42 ∧ rest.head? = some 47))
      (hnest : ¬(c = 47 ∧ rest.head? = some 42)) (h : ClosesComment depth rest) :
      ClosesComment depth (c :: rest)

/-- What a tag is made of: letters, also of other scripts, digits and
underscores, with no digit in front. -/
def IsTag (tag : Str) : Prop :=
  (∀ c ∈ tag, isIdentifier c = true ∨ 128 ≤ c) ∧ ∀ c ∈ tag.head?, ¬(48 ≤ c ∧ c ≤ 57)

/-- The lexeme stands in front of `rest`: nothing in it, and nothing it makes
with what follows, is read as another lexeme. -/
def SqlLexeme.WellFormed (rest : Str) : SqlLexeme → Prop
  | .string _ => rest.head? ≠ some 39
  | .quotedIdentifier _ => rest.head? ≠ some 34
  | .lineComment body newline => 10 ∉ body ∧ 13 ∉ body ∧
      (newline = .carriageReturn → rest.head? ≠ some 10) ∧ (newline = .endOfScript → rest = [])
  | .blockComment body => ClosesComment 0 body
  | .dollarQuoted tag body => IsTag tag ∧
      ∀ before after, body ++ delimiter tag = before ++ (delimiter tag ++ after) → after = []
  | .other c => c ≠ 59 ∧ ¬(c = 39 ∨ c = 34) ∧ ¬(c = 45 ∧ rest.head? = some 45) ∧
      ¬(c = 47 ∧ rest.head? = some 42) ∧
      (c = 36 → ∀ tag after, IsTag tag → rest ≠ tag ++ 36 :: after)

/-- The text of a statement. -/
def statementText (lexemes : List SqlLexeme) : Str := lexemes.flatMap SqlLexeme.text

/-- The lexemes of a statement, in front of `rest`. -/
def IsStatement (rest : Str) : List SqlLexeme → Prop
  | [] => True
  | lexeme :: lexemes => lexeme.WellFormed (statementText lexemes ++ rest) ∧
      IsStatement rest lexemes

/-- The text of a script. -/
def scriptText (script : List (List SqlLexeme)) : Str :=
  [59].intercalate (script.map statementText)

/-- The statements of a script. -/
def IsScript : List (List SqlLexeme) → Prop
  | [] => True
  | [last] => IsStatement [] last
  | statement :: next :: script =>
    IsStatement (59 :: scriptText (next :: script)) statement ∧ IsScript (next :: script)

/-- The texts of the statements of a script, read by the splitter. -/
def IsDialectScript : List Str → Prop
  | [] => True
  | [last] => DialectStatement [] last
  | text :: next :: texts =>
    DialectStatement (59 :: [59].intercalate (next :: texts)) text ∧ IsDialectScript (next :: texts)

theorem isCut_iff_isDialectScript {texts : List Str} (hne : texts ≠ []) :
    IsCut texts ↔ IsDialectScript texts := by
  induction texts with
  | nil => exact absurd rfl hne
  | cons text texts ih =>
    cases texts with
    | nil =>
      have htail : Neutral [] := by simp [Neutral]
      constructor
      · rintro ⟨skip, mode, hread, hclosed⟩
        exact dialectStatement_of_scan htail le_rfl hread (hclosed.imp id fun h => ⟨h, rfl⟩)
      · intro h
        rcases scan_of_dialectStatement h with hread | ⟨-, hread⟩
        · exact ⟨0, .plain, hread, .inl rfl⟩
        · exact ⟨0, .lineComment, hread, .inr rfl⟩
    | cons next texts =>
      have htail : Neutral (59 :: [59].intercalate (next :: texts)) := by simp [Neutral]
      refine and_congr ⟨fun h => ?_, fun h => ?_⟩ (ih (List.cons_ne_nil _ _))
      · exact dialectStatement_of_scan htail le_rfl h (.inl rfl)
      · exact (scan_of_dialectStatement h).resolve_right fun h => List.cons_ne_nil _ _ h.1

/-! ### One way to cut -/

/-- Trimming takes no semicolon away. -/
theorem count_strip (s : Str) : (strip s).count 59 = s.count 59 := by
  obtain ⟨before, after, hparts, hbefore, hafter⟩ := exists_eq_append_strip s
  have hnone : ∀ t : Str, (∀ c ∈ t, isSpace c = true) → t.count 59 = 0 := by
    intro t ht
    refine List.count_eq_zero.mpr fun hmem => ?_
    have hspace := ht 59 hmem
    revert hspace
    decide
  conv_rhs => rw [hparts]
  rw [List.count_append, List.count_append, hnone before hbefore, hnone after hafter]
  simp

theorem not_isBlank_of_mem {s : Str} (h : 59 ∈ s) : isBlank s = false := by
  rw [← Bool.not_eq_true, isBlank, List.all_eq_true]
  intro hall
  have hspace := hall 59 h
  revert hspace
  decide

/-- A text begins, behind its spaces, as what is left of it when it is trimmed. -/
theorem head?_dropWhile_isSpace {s : Str} (h : isBlank s = false) :
    (s.dropWhile isSpace).head? = (strip s).head? := by
  have hne : strip s ≠ [] := by
    rw [ne_eq, strip_eq_nil_iff, h]
    exact Bool.false_ne_true
  obtain ⟨t, ht⟩ : strip s <+: s.dropWhile isSpace := List.rdropWhile_prefix isSpace _
  rw [← ht, List.head?_append_of_ne_nil _ hne]

/-- The text begins with a semicolon, behind its spaces. -/
def StartsBare (text : Str) : Prop := (text.dropWhile isSpace).head? = some 59

theorem statementsOf_cons_of_isBlank {p : Str} {ps : List Str} (h : isBlank p = true) :
    statementsOf (p :: ps) = statementsOf ps := by
  simp [statementsOf, h]

theorem statementsOf_cons_of_not_isBlank {p : Str} {ps : List Str} (h : isBlank p = false) :
    statementsOf (p :: ps) = strip p :: statementsOf ps := by
  simp [statementsOf, h]

/-- Two ways to cut one script do not begin with pieces of different length:
the longer one would hold a semicolon more than the shorter, or begin with it. -/
theorem not_longer {p q c : Str} {ps qs : List Str} (hq : q = p ++ 59 :: c)
    (hsame : statementsOf (p :: ps) = statementsOf (q :: qs)) :
    isBlank p = true ∧ ∃ r ∈ ps, StartsBare r := by
  have hqblank : isBlank q = false := not_isBlank_of_mem (by simp [hq])
  rw [statementsOf_cons_of_not_isBlank hqblank] at hsame
  cases hpblank : isBlank p with
  | false =>
    rw [statementsOf_cons_of_not_isBlank hpblank] at hsame
    have hcount := congrArg (List.count 59) (List.cons.inj hsame).1
    rw [count_strip, count_strip, hq, List.count_append] at hcount
    simp at hcount
  | true =>
    rw [statementsOf_cons_of_isBlank hpblank] at hsame
    have hmem : strip q ∈ statementsOf ps := by
      rw [hsame]
      exact List.mem_cons_self
    obtain ⟨r, hr, hstrip⟩ := List.mem_map.mp hmem
    obtain ⟨hr, hrblank⟩ := List.mem_filter.mp hr
    have hdrop : q.dropWhile isSpace = 59 :: c := by
      rw [hq, List.dropWhile_append_of_pos (List.all_eq_true.mp hpblank)]
      rfl
    refine ⟨rfl, r, hr, ?_⟩
    rw [StartsBare, head?_dropWhile_isSpace (by simpa using hrblank), hstrip,
      ← head?_dropWhile_isSpace hqblank, hdrop]
    rfl

/-- What follows the first piece. -/
def tailText : List Str → Str
  | [] => []
  | next :: texts => 59 :: [59].intercalate (next :: texts)

theorem intercalate_cons (p : Str) (ps : List Str) :
    [59].intercalate (p :: ps) = p ++ tailText ps := by
  cases ps with
  | nil => simp [tailText]
  | cons next ps => simp [tailText, List.intercalate_cons_cons]

theorem eq_cons_of_tailText {ps : List Str} {c d : Str} (hc : c ≠ []) (h : tailText ps = c ++ d) :
    ∃ c', c = 59 :: c' := by
  obtain ⟨x, c', rfl⟩ := List.exists_cons_of_ne_nil hc
  cases ps with
  | nil => cases h
  | cons next ps => exact ⟨c', by rw [(List.cons.inj h).1]⟩

/-- Pieces none of which begins with a semicolon are determined by their text
and their statements; by induction on the pieces. -/
theorem eq_of_statementsOf_eq {ps qs : List Str} (hps : ps ≠ []) (hqs : qs ≠ [])
    (htext : [59].intercalate ps = [59].intercalate qs) (hbare : ∀ p ∈ ps, ¬StartsBare p)
    (hsame : statementsOf ps = statementsOf qs) : ps = qs := by
  induction ps generalizing qs with
  | nil => exact absurd rfl hps
  | cons p ps ih =>
    obtain ⟨q, qs, rfl⟩ := List.exists_cons_of_ne_nil hqs
    obtain ⟨hp, hbare⟩ := List.forall_mem_cons.mp hbare
    rw [intercalate_cons, intercalate_cons, List.append_eq_append_iff] at htext
    -- the first pieces have one length
    have hfirst : p = q := by
      rcases htext with ⟨c, hq, htail⟩ | ⟨c, hpq, htail⟩
      · by_contra hne
        have hc : c ≠ [] := fun hc => hne (by rw [hq, hc, List.append_nil])
        obtain ⟨c', rfl⟩ := eq_cons_of_tailText hc htail
        obtain ⟨-, r, hr, hstart⟩ := not_longer hq hsame
        exact hbare r hr hstart
      · by_contra hne
        have hc : c ≠ [] := fun hc => hne (by rw [hpq, hc, List.append_nil])
        obtain ⟨c', rfl⟩ := eq_cons_of_tailText hc htail
        obtain ⟨hblank, -⟩ := not_longer hpq hsame.symm
        refine hp ?_
        rw [StartsBare, hpq, List.dropWhile_append_of_pos (List.all_eq_true.mp hblank)]
        rfl
    subst hfirst
    have htails : tailText ps = tailText qs := by
      rcases htext with ⟨c, hq, htail⟩ | ⟨c, hq, htail⟩
      · rw [htail, List.self_eq_append_right.mp hq, List.nil_append]
      · rw [htail, List.self_eq_append_right.mp hq, List.nil_append]
    have hrest : statementsOf ps = statementsOf qs := by
      cases hblank : isBlank p with
      | true =>
        rwa [statementsOf_cons_of_isBlank hblank, statementsOf_cons_of_isBlank hblank] at hsame
      | false =>
        rw [statementsOf_cons_of_not_isBlank hblank,
          statementsOf_cons_of_not_isBlank hblank] at hsame
        exact (List.cons.inj hsame).2
    cases ps with
    | nil =>
      cases qs with
      | nil => rfl
      | cons _ _ => cases htails
    | cons next ps =>
      cases qs with
      | nil => cases htails
      | cons next' qs =>
        rw [ih (List.cons_ne_nil _ _) (List.cons_ne_nil _ _) (List.cons.inj htails).2 hbare hrest]

/-- No statement begins with a semicolon; by induction on its lexemes. -/
theorem not_startsBare {rest : Str} {lexemes : List SqlLexeme} (h : IsStatement rest lexemes) :
    ¬StartsBare (statementText lexemes) := by
  induction lexemes with
  | nil => exact nofun
  | cons lexeme lexemes ih =>
    obtain ⟨hlexeme, hlexemes⟩ := h
    have htext : statementText (lexeme :: lexemes) = lexeme.text ++ statementText lexemes :=
      List.flatMap_cons ..
    have hstart : ∀ (c : Nat) (text : Str), isSpace c = false → c ≠ 59 →
        ¬StartsBare (c :: text) := by
      intro c text hspace hc h
      rw [StartsBare, List.dropWhile_cons, hspace] at h
      exact hc (Option.some.inj h)
    rw [htext]
    cases lexeme with
    | other c =>
      cases hspace : isSpace c with
      | false => exact hstart c _ hspace hlexeme.1
      | true =>
        show ¬((c :: statementText lexemes).dropWhile isSpace).head? = some 59
        rw [List.dropWhile_cons, if_pos hspace]
        exact ih hlexemes
    | string content => exact hstart 39 _ rfl (by decide)
    | quotedIdentifier content => exact hstart 34 _ rfl (by decide)
    | lineComment body newline => exact hstart 45 _ rfl (by decide)
    | blockComment body => exact hstart 47 _ rfl (by decide)
    | dollarQuoted tag body => exact hstart 36 _ rfl (by decide)

theorem not_startsBare_of_isScript {script : List (List SqlLexeme)} (h : IsScript script) :
    ∀ text ∈ script.map statementText, ¬StartsBare text := by
  induction script with
  | nil => simp
  | cons statement script ih =>
    cases script with
    | nil =>
      intro text hmem
      rw [List.map_cons, List.map_nil, List.mem_singleton] at hmem
      rw [hmem]
      exact not_startsBare h
    | cons next script =>
      rw [List.map_cons]
      exact List.forall_mem_cons.mpr ⟨not_startsBare h.1, ih h.2⟩

/-- A script is split into its statements, without the blank ones and trimmed,
exactly when each statement is one of the splitter's dialect, too. -/
theorem splitSqlStatements_script_iff {script : List (List SqlLexeme)} (hscript : IsScript script) :
    splitSqlStatements (scriptText script) = .ok (statementsOf (script.map statementText)) ↔
      IsDialectScript (script.map statementText) := by
  cases script with
  | nil => exact ⟨fun _ => trivial, fun _ => rfl⟩
  | cons statement script =>
    have hne : (statement :: script).map statementText ≠ [] := List.cons_ne_nil _ _
    rw [← isCut_iff_isDialectScript hne, splitSqlStatements_eq_ok_iff]
    constructor
    · rintro ⟨pieces, hcut, htext, hsame⟩
      have heq := eq_of_statementsOf_eq hne hcut.ne_nil htext.symm
        (not_startsBare_of_isScript hscript) hsame
      rwa [heq]
    · exact fun hcut => ⟨_, hcut, rfl, rfl⟩

/-! ### The lexemes of both -/

/-- No quotation mark follows a backslash that escapes: every run of
backslashes in front of a mark, or at the end, is even. -/
def EvenBackslashes : Str → Prop
  | [] => True
  | [c] => c ≠ 92
  | c :: d :: rest =>
    if c = 92 then d ≠ 39 ∧ EvenBackslashes rest else EvenBackslashes (d :: rest)

/-- No comment is opened inside of it. -/
def Flat (body : Str) : Prop := ∀ before after, body ≠ before ++ 47 :: 42 :: after

/-- The splitter reads the lexeme as PostgreSQL does. -/
def SqlLexeme.ReadAlike : SqlLexeme → Prop
  | .string content => EvenBackslashes content
  | .lineComment _ newline => newline ≠ .carriageReturn
  | .blockComment body => Flat body
  | .dollarQuoted tag _ => ∀ c ∈ tag, isIdentifier c = true
  | _ => True

theorem quotedBody_string {content : Str} (h : EvenBackslashes content) :
    QuotedBody 39 (doubled 39 content) := by
  have hcons : ∀ (c : Nat) (content : Str), c ≠ 92 → QuotedBody 39 (doubled 39 content) →
      QuotedBody 39 (doubled 39 (c :: content)) := by
    intro c content hslash h
    by_cases hc : c = 39
    · subst hc
      exact .doubled h
    · have htext : doubled 39 (c :: content) = c :: doubled 39 content := by simp [doubled, hc]
      rw [htext]
      exact .char hc (fun h => hslash h.1) h
  induction content using EvenBackslashes.induct with
  | case1 => exact .nil
  | case2 c => exact hcons c [] h .nil
  | case3 d content ih =>
    rw [EvenBackslashes, if_pos rfl] at h
    have htext : doubled 39 (92 :: d :: content) = 92 :: d :: doubled 39 content := by
      simp [doubled, h.1]
    rw [htext]
    exact .escaped rfl (ih h.2)
  | case4 c d content hc ih =>
    rw [EvenBackslashes, if_neg hc] at h
    exact hcons c _ hc (ih h)

theorem quotedBody_identifier (content : Str) : QuotedBody 34 (doubled 34 content) := by
  induction content with
  | nil => exact .nil
  | cons c content ih =>
    by_cases hc : c = 34
    · subst hc
      exact .doubled ih
    · have htext : doubled 34 (c :: content) = c :: doubled 34 content := by simp [doubled, hc]
      rw [htext]
      exact .char hc (by simp) ih

theorem commentBody_of_flat {body : Str} (h : ClosesComment 0 body) (hflat : Flat body) :
    CommentBody body := by
  generalize hdepth : 0 = depth at h
  induction h with
  | last => exact .close
  | close => cases hdepth
  | nest => exact absurd rfl (hflat [] _)
  | @skip depth c body hclose _ _ ih =>
    exact .char hclose (ih (fun before after h => hflat (c :: before) after (by rw [h]; rfl)) hdepth)

theorem dollarBody_of_first {delimiter : Str} (body : Str)
    (hfirst : ∀ before after, body ++ delimiter = before ++ (delimiter ++ after) → after = []) :
    DollarBody delimiter (body ++ delimiter) := by
  induction body with
  | nil => exact .close
  | cons c body ih =>
    refine .char (fun hopen => ?_) (ih fun before after h => ?_)
    · obtain ⟨after, hafter⟩ := hopen
      have hnil := hfirst [] after hafter.symm
      have hlen := congrArg List.length hafter
      rw [hnil] at hlen
      simp at hlen
      omega
    · exact hfirst (c :: before) after (by rw [List.cons_append, h, List.cons_append])

/-- A lexeme that is read alike goes in front of a statement of the dialect. -/
theorem SqlLexeme.ReadAlike.dialectStatement {lexeme : SqlLexeme} {tail text : Str}
    (halike : lexeme.ReadAlike) (hwf : lexeme.WellFormed (text ++ tail))
    (h : DialectStatement tail text) : DialectStatement tail (lexeme.text ++ text) := by
  cases lexeme with
  | string content =>
    have hread := DialectStatement.quoted (.inl rfl) (quotedBody_string halike) hwf h
    simpa [SqlLexeme.text] using hread
  | quotedIdentifier content =>
    have hread := DialectStatement.quoted (.inr rfl) (quotedBody_identifier content) hwf h
    simpa [SqlLexeme.text] using hread
  | lineComment body newline =>
    obtain ⟨hbody, -, -, hend⟩ := hwf
    cases newline with
    | lineFeed => simpa [SqlLexeme.text, SqlNewline.text] using h.lineComment hbody
    | carriageReturn => exact absurd rfl halike
    | carriageReturnLineFeed =>
      have hreturn : 10 ∉ body ++ [13] := by simp [hbody]
      simpa [SqlLexeme.text, SqlNewline.text] using h.lineComment hreturn
    | endOfScript =>
      obtain ⟨rfl, htail⟩ := List.append_eq_nil_iff.mp (hend rfl)
      simpa [SqlLexeme.text, SqlNewline.text] using DialectStatement.lastComment hbody htail
  | blockComment body => exact h.blockComment (commentBody_of_flat hwf halike)
  | dollarQuoted tag body =>
    obtain ⟨htag, hfirst⟩ := hwf
    have hread := h.dollarQuoted ⟨halike, htag.2⟩ (dollarBody_of_first body hfirst)
    rwa [SqlLexeme.text, List.append_assoc]
  | other c =>
    obtain ⟨hsemicolon, hmark, hdash, hslash, hdollar⟩ := hwf
    exact h.other hsemicolon hmark hdash hslash fun hc tag after htag =>
      hdollar hc tag after ⟨fun d hd => .inl (htag.1 d hd), htag.2⟩

theorem dialectStatement_of_readAlike {tail : Str} {lexemes : List SqlLexeme}
    (hwf : IsStatement tail lexemes) (halike : ∀ lexeme ∈ lexemes, lexeme.ReadAlike) :
    DialectStatement tail (statementText lexemes) := by
  induction lexemes with
  | nil => exact .nil
  | cons lexeme lexemes ih =>
    obtain ⟨hlexeme, hlexemes⟩ := List.forall_mem_cons.mp halike
    exact hlexeme.dialectStatement hwf.1 (ih hwf.2 hlexemes)

/-- Scripts of lexemes that are read alike are split into their statements. -/
theorem isDialectScript_of_readAlike {script : List (List SqlLexeme)} (hwf : IsScript script)
    (halike : ∀ statement ∈ script, ∀ lexeme ∈ statement, lexeme.ReadAlike) :
    IsDialectScript (script.map statementText) := by
  induction script with
  | nil => trivial
  | cons statement script ih =>
    obtain ⟨hstatement, hscript⟩ := List.forall_mem_cons.mp halike
    cases script with
    | nil => exact dialectStatement_of_readAlike hwf hstatement
    | cons next script =>
      exact ⟨dialectStatement_of_readAlike hwf.1 hstatement, ih hwf.2 hscript⟩

/-! ### Scripts that are split, and that are not -/

/-- Two statements, with semicolons in a string and in a comment. -/
def plainScript : List (List SqlLexeme) :=
  [[.other 65, .string (lit ";'")], [.lineComment (lit ";") .lineFeed, .other 66]]

theorem isScript_plainScript : IsScript plainScript := by
  have hletter : ∀ (c : Nat) (rest : Str), c = 65 ∨ c = 66 → (SqlLexeme.other c).WellFormed rest := by
    rintro c rest (rfl | rfl) <;> simp [SqlLexeme.WellFormed]
  refine ⟨⟨hletter _ _ (.inl rfl), ?_, trivial⟩, ⟨?_, hletter _ _ (.inr rfl), trivial⟩⟩
  · simp [SqlLexeme.WellFormed, statementText]
  · simp only [SqlLexeme.WellFormed]
    decide

theorem splitSqlStatements_plainScript : IsScript plainScript ∧
    splitSqlStatements (scriptText plainScript) =
      .ok (statementsOf (plainScript.map statementText)) := by
  refine ⟨isScript_plainScript, (splitSqlStatements_script_iff isScript_plainScript).mpr
    (isDialectScript_of_readAlike isScript_plainScript ?_)⟩
  simp [plainScript, SqlLexeme.ReadAlike, EvenBackslashes, lit]

/-- `'\';A` -/
def backslashScript : List (List SqlLexeme) := [[.string [92]], [.other 65]]

/-- `/*/**/;*/;A` -/
def nestedScript : List (List SqlLexeme) := [[.blockComment (lit "/**/;*/")], [.other 65]]

/-- `$é$;$é$` -/
def tagScript : List (List SqlLexeme) := [[.dollarQuoted [233] [59]]]

/-- A line comment that a carriage return ends. -/
def returnScript : List (List SqlLexeme) := [[.lineComment [] .carriageReturn, .other 65], [.other 65]]

/-- The splitter does not return the statements of the script. -/
def IsMissplit (script : List (List SqlLexeme)) : Prop :=
  IsScript script ∧ splitSqlStatements (scriptText script) ≠
    .ok (statementsOf (script.map statementText))

/-- A backslash in front of a mark, a nested comment, a tag that is not ASCII
and a carriage return mislead the splitter. -/
theorem splitSqlStatements_counterexample : IsMissplit backslashScript ∧
    IsMissplit nestedScript ∧ IsMissplit tagScript ∧ IsMissplit returnScript := by
  have hletter : ∀ rest, (SqlLexeme.other 65).WellFormed rest := by simp [SqlLexeme.WellFormed]
  refine ⟨⟨⟨⟨?_, trivial⟩, hletter _, trivial⟩, by decide +kernel⟩,
    ⟨⟨⟨?_, trivial⟩, hletter _, trivial⟩, by decide +kernel⟩, ⟨⟨?_, trivial⟩, by decide +kernel⟩,
    ⟨⟨⟨?_, hletter _, trivial⟩, hletter _, trivial⟩, by decide +kernel⟩⟩
  · simp [SqlLexeme.WellFormed, statementText]
  · exact .nest (.close (.skip (by decide) (by decide) .last))
  · refine ⟨⟨by decide, by decide⟩, fun before after h => ?_⟩
    have hlen := congrArg List.length h
    cases before with
    | nil => simp [delimiter] at h
    | cons c before =>
      simp [delimiter] at hlen
      exact List.length_eq_zero_iff.mp (by omega)
  · simp [SqlLexeme.WellFormed, statementText, SqlLexeme.text]

end AgentRoi
