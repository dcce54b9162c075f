/-
The dialect of SQL that `split_sql_statements` reads.

In a string a backslash takes the next character with it, a block comment ends
at its first `*/`, a line comment at a line feed, and the tag of a dollar-quoted
body has ASCII characters.

* `DialectStatement` — the texts that are lexemes of the dialect one after the
  other, with no bare semicolon among them;
* `scan_of_dialectStatement`, `dialectStatement_of_scan` — they are the pieces
  the splitter does not cut.
-/
import AgentRoi.SqlSplitting

namespace AgentRoi

/-- Between two marks.  In a string a backslash escapes. -/
inductive QuotedBody (mark : Nat) : Str → Prop
  | nil : QuotedBody mark []
  | doubled {body} (h : QuotedBody mark body) : QuotedBody mark (mark :: mark :: body)
  | escaped {c body} (hmark : mark = 39) (h : QuotedBody mark body) :
      QuotedBody mark (92 :: c :: body)
  | char {c body} (hmark : c ≠ mark) (hescape : ¬(c = 92 ∧ mark = 39))
      (h : QuotedBody mark body) : QuotedBody mark (c :: body)

/-- The rest of a block comment, up to the first `*/`. -/
inductive CommentBody : Str → Prop
  | close : CommentBody [42, 47]
  | char {c body} (hopen : ¬(c = 42 ∧ body.head? = some 47)) (h : CommentBody body) :
      CommentBody (c :: body)

/-- The rest of a dollar-quoted body, up to its first delimiter. -/
inductive DollarBody (delimiter : Str) : Str → Prop
  | close : DollarBody delimiter delimiter
  | char {c body} (hopen : ¬delimiter <+: c :: body) (h : DollarBody delimiter body) :
      DollarBody delimiter (c :: body)

/-- `[A-Za-z_][A-Za-z0-9_]*`, or nothing. -/
def IsAsciiTag (tag : Str) : Prop :=
  (∀ c ∈ tag, isIdentifier c = true) ∧ ∀ c ∈ tag.head?, ¬(48 ≤ c ∧ c ≤ 57)

/-- A tag between its dollar signs. -/
def delimiter (tag : Str) : Str := 36 :: (tag ++ [36])

/-- A text of whole lexemes, in front of `tail`. -/
inductive DialectStatement (tail : Str) : Str → Prop
  | nil : DialectStatement tail []
  | quoted {mark body rest} (hmark : mark = 39 ∨ mark = 34) (hbody : QuotedBody mark body)
      (hend : (rest ++ tail).head? ≠ some mark) (h : DialectStatement tail rest) :
      DialectStatement tail (mark :: (body ++ mark :: rest))
  | lineComment {body rest} (hbody : 10 ∉ body) (h : DialectStatement tail rest) :
      DialectStatement tail (45 :: 45 :: (body ++ 10 :: rest))
  | lastComment {body} (hbody : 10 ∉ body) (htail : tail = []) :
      DialectStatement tail (45 :: 45 :: body)
  | blockComment {body rest} (hbody : CommentBody body) (h : DialectStatement tail rest) :
      DialectStatement tail (47 :: 42 :: (body ++ rest))
  | dollarQuoted {tag body rest} (htag : IsAsciiTag tag) (hbody : DollarBody (delimiter tag) body)
      (h : DialectStatement tail rest) : DialectStatement tail (delimiter tag ++ (body ++ rest))
  | other {c rest} (hsemicolon : c ≠ 59) (hmark : ¬(c = 39 ∨ c = 34))
      (hdash : ¬(c = 45 ∧ (rest ++ tail).head? = some 45))
      (hslash : ¬(c = 47 ∧ (rest ++ tail).head? = some 42))
      (hdollar : c = 36 → ∀ tag after, IsAsciiTag tag → rest ++ tail ≠ tag ++ 36 :: after)
      (h : DialectStatement tail rest) : DialectStatement tail (c :: rest)

/-! ### Tags -/

theorem dollarTag_of_isAsciiTag {tag : Str} (htag : IsAsciiTag tag) (rest : Str) :
    dollarTag (tag ++ 36 :: rest) = some (delimiter tag) := by
  have hname : (tag ++ 36 :: rest).takeWhile isIdentifier = tag := by
    rw [List.takeWhile_append_of_pos htag.1, List.takeWhile_cons, if_neg (by decide),
      List.append_nil]
  simp only [dollarTag, hname, List.drop_left]
  exact if_pos ⟨rfl, htag.2⟩

/-- What the pattern of the source finds. -/
theorem dollarTag_eq_some_iff {rest found : Str} : dollarTag rest = some found ↔
    ∃ tag after, IsAsciiTag tag ∧ rest = tag ++ 36 :: after ∧ found = delimiter tag := by
  constructor
  · intro h
    dsimp only [dollarTag] at h
    split_ifs at h with hfound
    obtain ⟨hclose, hdigit⟩ := hfound
    obtain ⟨after, hafter⟩ := List.head?_eq_some_iff.mp hclose
    refine ⟨rest.takeWhile isIdentifier, after,
      ⟨fun c hc => List.mem_takeWhile_imp hc, hdigit⟩, ?_, (Option.some.inj h).symm⟩
    have hparts := List.prefix_iff_eq_append.mp (List.takeWhile_prefix (l := rest) isIdentifier)
    rw [← hafter, hparts]
  · rintro ⟨tag, after, htag, rfl, rfl⟩
    exact dollarTag_of_isAsciiTag htag after

variable {tail piece rest body : Str} {mode next mode' : SqlMode} {skip k mark c : ℕ}

/-! ### From the dialect to the scan -/

theorem scan_step (hend : ¬(mode = .plain ∧ c = 59))
    (h : nextMode mode c (piece ++ tail) = (next, skip)) :
    scan tail (c :: piece) 0 mode = scan tail piece skip next := by
  rw [scan, if_neg hend, h]

/-- Characters that belong to one that was read. -/
theorem scan_skip (read : Str) (mode : SqlMode) :
    scan tail (read ++ piece) read.length mode = scan tail piece 0 mode := by
  induction read with
  | nil => rfl
  | cons c read ih => exact ih

theorem scan_quotedBody (h : QuotedBody mark body) (hend : (rest ++ tail).head? ≠ some mark) :
    scan tail (body ++ mark :: rest) 0 (.quote mark) = scan tail rest 0 .plain := by
  induction h with
  | nil => exact scan_step (by simp) (by rw [nextMode, if_pos rfl, if_neg hend])
  | @doubled body _ ih =>
    have hstep : scan tail (mark :: mark :: (body ++ mark :: rest)) 0 (.quote mark) =
        scan tail (mark :: (body ++ mark :: rest)) 1 (.quote mark) :=
      scan_step (by simp) (by simp [nextMode])
    exact hstep.trans ih
  | @escaped c body hmark _ ih =>
    have hstep : scan tail (92 :: c :: (body ++ mark :: rest)) 0 (.quote mark) =
        scan tail (c :: (body ++ mark :: rest)) 1 (.quote mark) :=
      scan_step (by simp) (by simp [nextMode, hmark])
    exact hstep.trans ih
  | char hmark hescape _ ih =>
    rw [List.cons_append, scan_step (by simp) ?_, ih]
    rw [nextMode, if_neg hmark, if_neg fun h => hescape ⟨h.1, h.2.1⟩]

theorem scan_lineComment (hbody : 10 ∉ body) :
    scan tail (body ++ rest) 0 .lineComment = scan tail rest 0 .lineComment := by
  induction body with
  | nil => rfl
  | cons c body ih =>
    rw [List.mem_cons, not_or] at hbody
    rw [List.cons_append, scan_step (by simp) ?_, ih hbody.2]
    rw [nextMode, if_neg (Ne.symm hbody.1)]

theorem CommentBody.ne_nil (h : CommentBody body) : body ≠ [] := by
  rintro rfl
  cases h

theorem scan_commentBody (h : CommentBody body) :
    scan tail (body ++ rest) 0 .blockComment = scan tail rest 0 .plain := by
  induction h with
  | close =>
    have hnext : nextMode .blockComment 42 (47 :: rest ++ tail) = (.plain, 1) := by simp [nextMode]
    exact scan_step (by simp) hnext
  | @char c body hopen h ih =>
    rw [List.cons_append, scan_step (by simp) ?_, ih]
    rw [nextMode, List.append_assoc, List.head?_append_of_ne_nil _ h.ne_nil, if_neg hopen]

theorem DollarBody.length_le {delimiter : Str} (h : DollarBody delimiter body) :
    delimiter.length ≤ body.length := by
  induction h with
  | close => exact le_rfl
  | char _ _ ih => exact ih.trans (Nat.le_succ _)

theorem scan_dollarBody {tag : Str} (h : DollarBody (delimiter tag) body) :
    scan tail (body ++ rest) 0 (.dollar (delimiter tag)) = scan tail rest 0 .plain := by
  induction h with
  | close =>
    have hnext : nextMode (.dollar (delimiter tag)) 36 (tag ++ [36] ++ rest ++ tail) =
        (.plain, (tag ++ [36]).length) := by
      have hprefix : (delimiter tag).isPrefixOf (36 :: (tag ++ [36] ++ rest ++ tail)) = true := by
        rw [List.isPrefixOf_iff_prefix, List.append_assoc]
        exact List.prefix_append (delimiter tag) (rest ++ tail)
      rw [nextMode, if_pos hprefix]
      simp [delimiter]
    exact (scan_step (by simp) hnext).trans (scan_skip _ _)
  | @char c body hopen h ih =>
    rw [List.cons_append, scan_step (by simp) ?_, ih]
    rw [nextMode, if_neg]
    rw [List.isPrefixOf_iff_prefix]
    -- a delimiter that begins here would lie within the body
    intro hprefix
    refine hopen (List.prefix_of_prefix_length_le hprefix ?_ (h.length_le.trans (Nat.le_succ _)))
    rw [List.append_assoc]
    exact List.prefix_append (c :: body) (rest ++ tail)

/-- The splitter reads a statement of the dialect to its end; by induction on
its lexemes. -/
theorem scan_of_dialectStatement (h : DialectStatement tail piece) :
    scan tail piece 0 .plain = some (0, .plain) ∨
      tail = [] ∧ scan tail piece 0 .plain = some (0, .lineComment) := by
  induction h with
  | nil => exact .inl rfl
  | @quoted mark body rest hmark hbody hend _ ih =>
    -- either quotation mark, its body and its closing mark
    have hread : scan tail (mark :: (body ++ mark :: rest)) 0 .plain = scan tail rest 0 .plain := by
      refine (scan_step ?_ ?_).trans (scan_quotedBody hbody hend)
      · rcases hmark with rfl | rfl <;> simp
      · rcases hmark with rfl | rfl <;> simp [nextMode]
    rwa [hread]
  | @lineComment body rest hbody _ ih =>
    have hread : scan tail (45 :: 45 :: (body ++ 10 :: rest)) 0 .plain = scan tail rest 0 .plain := by
      refine (scan_step (by simp) (by simp [nextMode] : nextMode _ _ _ = (.lineComment, 1))).trans ?_
      exact (scan_lineComment hbody).trans (scan_step (by simp) rfl)
    rwa [hread]
  -- only at the end of the script may a line comment lack its newline
  | @lastComment body hbody htail =>
    have hread : scan tail (body ++ []) 0 .lineComment = scan tail [] 0 .lineComment :=
      scan_lineComment hbody
    rw [List.append_nil] at hread
    refine .inr ⟨htail, ?_⟩
    refine (scan_step (by simp) (by simp [nextMode] : nextMode _ _ _ = (.lineComment, 1))).trans ?_
    exact hread
  | @blockComment body rest hbody _ ih =>
    have hread : scan tail (47 :: 42 :: (body ++ rest)) 0 .plain = scan tail rest 0 .plain :=
      (scan_step (by simp) (by simp [nextMode] : nextMode _ _ _ = (.blockComment, 1))).trans
        (scan_commentBody hbody)
    rwa [hread]
  | @dollarQuoted tag body rest htag hbody _ ih =>
    have hnext : nextMode .plain 36 (tag ++ [36] ++ (body ++ rest) ++ tail) =
        (.dollar (delimiter tag), (tag ++ [36]).length) := by
      have hfound := dollarTag_of_isAsciiTag htag (body ++ (rest ++ tail))
      have hlen : (delimiter tag).length - 1 = (tag ++ [36]).length := by simp [delimiter]
      simp [nextMode, hfound, hlen]
    have hread : scan tail (delimiter tag ++ (body ++ rest)) 0 .plain = scan tail rest 0 .plain :=
      ((scan_step (by simp) hnext).trans (scan_skip _ _)).trans (scan_dollarBody hbody)
    rwa [hread]
  | @other c rest hsemicolon hmark hdash hslash hdollar _ ih =>
    -- a dollar sign that opens no tag is read as it is
    have hnone : c = 36 → dollarTag (rest ++ tail) = none := by
      intro hc
      by_contra hne
      obtain ⟨found, hfound⟩ := Option.ne_none_iff_exists'.mp hne
      obtain ⟨tag, after, htag, hrest, -⟩ := dollarTag_eq_some_iff.mp hfound
      exact hdollar hc tag after htag hrest
    have hnext : nextMode .plain c (rest ++ tail) = (.plain, 0) := by
      rw [nextMode, if_neg hdash, if_neg hslash, if_neg hmark]
      split_ifs with hc
      · rw [hnone hc]
      · rfl
    rwa [scan_step (by simp [hsemicolon]) hnext]

/-! ### From the scan to the dialect -/

/-- The mode at the end of a piece: a line comment may end with the script. -/
def SqlMode.Ends (tail : Str) (mode : SqlMode) : Prop :=
  mode = .plain ∨ mode = .lineComment ∧ tail = []

theorem SqlMode.Ends.closed (h : mode.Ends tail) : mode.Closed := h.imp id And.left

/-- A string that is closed; by induction on what is left of the piece. -/
theorem exists_quotedBody : ∀ {n : ℕ} {piece : Str}, piece.length ≤ n →
    scan tail piece 0 (.quote mark) = some (k, mode') → mode'.Closed →
    ∃ body rest, piece = body ++ mark :: rest ∧ QuotedBody mark body ∧
      (rest ++ tail).head? ≠ some mark ∧ scan tail rest 0 .plain = some (k, mode')
  | _, [], _, h, hclosed => by
    cases h
    rcases hclosed with h | h <;> cases h
  | 0, c :: piece, hlen, _, _ => absurd hlen (by simp)
  | n + 1, c :: piece, hlen, h, hclosed => by
    -- a character that takes the next one with it is not the last
    have htwo : scan tail piece 1 (.quote mark) = some (k, mode') → ∃ d piece', piece = d :: piece' ∧
        ∃ body rest, piece' = body ++ mark :: rest ∧ QuotedBody mark body ∧
          (rest ++ tail).head? ≠ some mark ∧ scan tail rest 0 .plain = some (k, mode') := by
      intro h
      cases piece with
      | nil =>
        cases h
        rcases hclosed with h | h <;> cases h
      | cons d piece =>
        have hshort : piece.length ≤ n := by
          rw [List.length_cons, List.length_cons] at hlen
          omega
        exact ⟨d, piece, rfl, exists_quotedBody hshort h hclosed⟩
    rw [scan, if_neg (by simp), nextMode] at h
    split_ifs at h with hmark hnext hescape
    · -- a doubled mark
      obtain ⟨d, piece, rfl, body, rest, rfl, hbody, hend, hrest⟩ := htwo h
      exact ⟨mark :: mark :: body, rest, by rw [hmark, Option.some.inj hnext]; rfl,
        .doubled hbody, hend, hrest⟩
    · exact ⟨[], piece, by rw [hmark]; rfl, .nil, hnext, h⟩
    · -- an escape
      obtain ⟨d, piece, rfl, body, rest, rfl, hbody, hend, hrest⟩ := htwo h
      exact ⟨92 :: d :: body, rest, by rw [hescape.1]; rfl, .escaped hescape.2.1 hbody, hend,
        hrest⟩
    · obtain ⟨body, rest, rfl, hbody, hend, hrest⟩ :=
        exists_quotedBody (Nat.le_of_succ_le_succ hlen) h hclosed
      refine ⟨c :: body, rest, rfl, .char hmark (fun hslash => hescape ⟨hslash.1, hslash.2, ?_⟩)
        hbody, hend, hrest⟩
      simp

/-- A line comment that ends, or does not. -/
theorem exists_lineComment (h : scan tail piece 0 .lineComment = some (k, mode')) :
    (∃ body rest, piece = body ++ 10 :: rest ∧ 10 ∉ body ∧
      scan tail rest 0 .plain = some (k, mode')) ∨ 10 ∉ piece ∧ mode' = .lineComment := by
  induction piece with
  | nil =>
    cases h
    exact .inr ⟨by simp, rfl⟩
  | cons c piece ih =>
    rw [scan, if_neg (by simp), nextMode] at h
    split_ifs at h with hc
    · exact .inl ⟨[], piece, by rw [hc]; rfl, by simp, h⟩
    · rcases ih h with ⟨body, rest, rfl, hbody, hrest⟩ | ⟨hpiece, hmode⟩
      · exact .inl ⟨c :: body, rest, rfl, by simp [hbody, Ne.symm hc], hrest⟩
      · exact .inr ⟨by simp [hpiece, Ne.symm hc], hmode⟩

/-- A block comment that is closed. -/
theorem exists_commentBody (htail : Neutral tail)
    (h : scan tail piece 0 .blockComment = some (k, mode')) (hclosed : mode'.Closed) :
    ∃ body rest, piece = body ++ rest ∧ CommentBody body ∧
      scan tail rest 0 .plain = some (k, mode') := by
  induction piece with
  | nil =>
    cases h
    rcases hclosed with h | h <;> cases h
  | cons c piece ih =>
    have hhead := head?_append_neutral htail (by decide : Solid 47) piece
    rw [scan, if_neg (by simp), nextMode] at h
    split_ifs at h with hclose
    · obtain ⟨rest, rfl⟩ := List.head?_eq_some_iff.mp (hhead.mp hclose.2)
      exact ⟨[42, 47], rest, by rw [hclose.1]; rfl, .close, h⟩
    · obtain ⟨body, rest, rfl, hbody, hrest⟩ := ih h
      refine ⟨c :: body, rest, rfl, .char (fun hopen => hclose ⟨hopen.1, ?_⟩) hbody, hrest⟩
      rw [hhead, List.head?_append_of_ne_nil _ hbody.ne_nil]
      exact hopen.2

theorem solid_delimiter {tag : Str} (htag : IsAsciiTag tag) : ∀ c ∈ delimiter tag, Solid c := by
  intro c hc
  have hdollar : Solid 36 := by decide
  rcases List.mem_cons.mp hc with rfl | hc
  · exact hdollar
  · rcases List.mem_append.mp hc with hc | hc
    · exact solid_of_isIdentifier (htag.1 c hc)
    · rw [List.mem_singleton.mp hc]
      exact hdollar

/-- A dollar-quoted body that is closed. -/
theorem exists_dollarBody {tag : Str} (htag : IsAsciiTag tag) (htail : Neutral tail)
    (h : scan tail piece 0 (.dollar (delimiter tag)) = some (k, mode')) (hclosed : mode'.Closed) :
    ∃ body rest, piece = body ++ rest ∧ DollarBody (delimiter tag) body ∧
      scan tail rest 0 .plain = some (k, mode') := by
  induction piece with
  | nil =>
    cases h
    rcases hclosed with h | h <;> cases h
  | cons c piece ih =>
    have hprefix := isPrefixOf_append_neutral htail (solid_delimiter htag) (c :: piece)
    rw [List.cons_append] at hprefix
    rw [scan, if_neg (by simp), nextMode, hprefix] at h
    split_ifs at h with hfound
    · rw [List.isPrefixOf_iff_prefix] at hfound
      obtain ⟨rest, hrest⟩ := hfound
      have hparts : c = 36 ∧ piece = tag ++ [36] ++ rest := by
        rw [delimiter, List.cons_append] at hrest
        exact ⟨(List.cons.inj hrest).1.symm, (List.cons.inj hrest).2.symm⟩
      obtain ⟨rfl, rfl⟩ := hparts
      have hlen : (delimiter tag).length - 1 = (tag ++ [36]).length := by simp [delimiter]
      dsimp only at h
      rw [hlen, scan_skip] at h
      exact ⟨delimiter tag, rest, rfl, .close, h⟩
    · obtain ⟨body, rest, rfl, hbody, hrest⟩ := ih h
      refine ⟨c :: body, rest, rfl, .char (fun hopen => hfound ?_) hbody, hrest⟩
      rw [List.isPrefixOf_iff_prefix]
      exact hopen.trans (List.prefix_append (c :: body) rest)

/-- What the splitter reads to the end is a statement of the dialect; by
induction on its length. -/
theorem dialectStatement_of_scan (htail : Neutral tail) : ∀ {n : ℕ} {piece : Str},
    piece.length ≤ n → scan tail piece 0 .plain = some (k, mode') → mode'.Ends tail →
    DialectStatement tail piece
  | _, [], _, _, _ => .nil
  | 0, c :: piece, hlen, _, _ => absurd hlen (by simp)
  | n + 1, c :: piece, hlen, h, hends => by
    have hlen : piece.length ≤ n := Nat.le_of_succ_le_succ hlen
    have hdash := head?_append_neutral htail (by decide : Solid 45) piece
    have hstar := head?_append_neutral htail (by decide : Solid 42) piece
    rw [scan] at h
    split_ifs at h with hsemicolon
    rw [nextMode] at h
    split_ifs at h with hline hblock hquote hdollar
    · obtain ⟨piece, rfl⟩ := List.head?_eq_some_iff.mp (hdash.mp hline.2)
      rw [hline.1]
      rcases exists_lineComment h with ⟨body, rest, rfl, hbody, hrest⟩ | ⟨hbody, hmode⟩
      · exact .lineComment hbody (dialectStatement_of_scan htail (n := n)
          (by simp at hlen; omega) hrest hends)
      · rcases hends with h | ⟨-, htail⟩
        · rw [hmode] at h
          cases h
        · exact .lastComment hbody htail
    · obtain ⟨piece, rfl⟩ := List.head?_eq_some_iff.mp (hstar.mp hblock.2)
      rw [hblock.1]
      obtain ⟨body, rest, rfl, hbody, hrest⟩ := exists_commentBody htail h hends.closed
      exact .blockComment hbody (dialectStatement_of_scan htail (n := n) (by simp at hlen; omega)
        hrest hends)
    · obtain ⟨body, rest, rfl, hbody, hend, hrest⟩ := exists_quotedBody le_rfl h hends.closed
      exact .quoted hquote hbody hend (dialectStatement_of_scan htail (n := n)
        (by simp at hlen; omega) hrest hends)
    · rw [dollarTag_append_neutral htail] at h
      rcases hfound : dollarTag piece with _ | found
      · rw [hfound] at h
        refine .other (by simp [hdollar]) hquote hline hblock (fun _ tag after htag hparts => ?_)
          (dialectStatement_of_scan htail hlen h hends)
        have hnone := dollarTag_append_neutral htail piece
        rw [hparts, dollarTag_of_isAsciiTag htag, hfound] at hnone
        cases hnone
      · rw [hfound] at h
        obtain ⟨tag, after, htag, rfl, rfl⟩ := dollarTag_eq_some_iff.mp hfound
        have hlength : (delimiter tag).length - 1 = (tag ++ [36]).length := by simp [delimiter]
        have htext : tag ++ 36 :: after = tag ++ [36] ++ after := by simp
        dsimp only at h
        rw [hlength, htext, scan_skip] at h
        obtain ⟨body, rest, rfl, hbody, hrest⟩ := exists_dollarBody htag htail h hends.closed
        rw [hdollar, htext]
        exact .dollarQuoted htag hbody (dialectStatement_of_scan htail (n := n)
          (by simp at hlen; omega) hrest hends)
    · exact .other (fun hc => hsemicolon ⟨rfl, hc⟩) hquote hline hblock
        (fun hc => absurd hc hdollar) (dialectStatement_of_scan htail hlen h hends)

end AgentRoi
