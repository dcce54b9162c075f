/-
`split_sql_statements` of `agent_roi.db.core`.

The script is read once, one character after the other.  Strings, quoted
identifiers, comments and dollar-quoted bodies are passed over, so that only a
semicolon outside of them ends a statement.

* `SqlMode`, `splitLoop` — the loop, with what it is inside of;
* `splitSqlStatements` — the statements of a script.
-/
import AgentRoi.PyExc

namespace AgentRoi

/-- `MigrationError`. -/
def migrationError (message : Str) : PyExc :=
  .other (lit "MigrationError") (some message) true

/-- What the loop is inside of. -/
inductive SqlMode where
  | plain
  | lineComment
  | blockComment
  | dollar (tag : Str)
  | quote (mark : Nat)
  deriving DecidableEq

/-- `[A-Za-z0-9_]`. -/
def isIdentifier (c : Nat) : Bool :=
  (65 ≤ c && c ≤ 90) || (97 ≤ c && c ≤ 122) || c == 95 || (48 ≤ c && c ≤ 57)

/-- `re.match(r"\$[A-Za-z_][A-Za-z0-9_]*\$|\$\$", …)`, of what follows the
first `$`. -/
def dollarTag (rest : Str) : Option Str :=
  let name := rest.takeWhile isIdentifier
  if (rest.drop name.length).head? = some 36 ∧ (∀ c ∈ name.head?, ¬(48 ≤ c ∧ c ≤ 57)) then
    some (36 :: name ++ [36])
  else none

/-- A piece that is not blank is a statement. -/
def closeStatement (buffer : Str) (statements : List Str) : List Str :=
  if isBlank buffer then statements else statements ++ [strip buffer]

/-- What a character opens or closes: the mode after it, and how many of the
characters that follow belong to it. -/
def nextMode (mode : SqlMode) (char : Nat) (rest : Str) : SqlMode × ℕ :=
  match mode with
  | .lineComment => (if char = 10 then .plain else .lineComment, 0)
  | .blockComment =>
    if char = 42 ∧ rest.head? = some 47 then (.plain, 1) else (.blockComment, 0)
  | .dollar tag =>
    if tag.isPrefixOf (char :: rest) then (.plain, tag.length - 1) else (.dollar tag, 0)
  | .quote mark =>
    if char = mark then
      -- a doubled mark stands for itself
      if rest.head? = some mark then (.quote mark, 1) else (.plain, 0)
    else if char = 92 ∧ mark = 39 ∧ rest ≠ [] then (.quote mark, 1)
    else (.quote mark, 0)
  | .plain =>
    if char = 45 ∧ rest.head? = some 45 then (.lineComment, 1)
    else if char = 47 ∧ rest.head? = some 42 then (.blockComment, 1)
    else if char = 39 ∨ char = 34 then (.quote char, 0)
    else if char = 36 then
      match dollarTag rest with
      | some tag => (.dollar tag, tag.length - 1)
      | none => (.plain, 0)
    else (.plain, 0)

/-- The loop.  The first `skip` characters belong to one that was read. -/
def splitLoop : Str → ℕ → SqlMode → Str → List Str → Except PyExc (List Str)
  | [], _, .plain, buffer, statements => .ok (closeStatement buffer statements)
  | [], _, .lineComment, buffer, statements => .ok (closeStatement buffer statements)
  | [], _, _, _, _ => .error (migrationError
      (lit "Migration SQL contains an unterminated quoted value or comment"))
  | char :: rest, skip + 1, mode, buffer, statements =>
    splitLoop rest skip mode (buffer ++ [char]) statements
  | char :: rest, 0, mode, buffer, statements =>
    if mode = .plain ∧ char = 59 then
      splitLoop rest 0 .plain [] (closeStatement buffer statements)
    else
      let (next, skip) := nextMode mode char rest
      splitLoop rest skip next (buffer ++ [char]) statements

def splitSqlStatements (sql : Str) : Except PyExc (List Str) := splitLoop sql 0 .plain [] []

/-- The statements of a script that is cut into pieces. -/
def statementsOf (pieces : List Str) : List Str :=
  (pieces.filter fun piece => !isBlank piece).map strip

variable {buffer : Str} {statements : List Str}

theorem closeStatement_eq :
    closeStatement buffer statements = statements ++ statementsOf [buffer] := by
  unfold closeStatement statementsOf
  cases hblank : isBlank buffer <;> simp [hblank]

theorem statementsOf_cons {piece : Str} {pieces : List Str} :
    statementsOf (piece :: pieces) = statementsOf [piece] ++ statementsOf pieces := by
  unfold statementsOf
  cases hblank : isBlank piece <;> simp [hblank]

example : splitSqlStatements (lit "CREATE TABLE one(id INT); -- a; b\nSELECT ';' ;") =
    .ok [lit "CREATE TABLE one(id INT)", lit "-- a; b\nSELECT ';'"] := by decide +kernel

end AgentRoi
