/-
`json.loads`.

The scanner follows `json.decoder`: strict strings, surrogate pairs joined,
`NaN` and the infinities accepted, the last of equal keys kept.  Each function
returns what it read and what is left; none is `JSONDecodeError`.  The number
in front is fuel, and the length of the text is always enough of it
(`loads_render` in the next file).
-/
import AgentRoi.Json

namespace AgentRoi

namespace Json

/-! ### Scanning -/

def isWs (c : Nat) : Bool := c == 32 || c == 9 || c == 10 || c == 13

def skipWs (s : Str) : Str := s.dropWhile isWs

/-- What follows the prefix `p`. -/
def eat (p s : Str) : Option Str := if p.isPrefixOf s then some (s.drop p.length) else none

def hexVal (c : Nat) : Option Nat :=
  if 48 ≤ c ∧ c ≤ 57 then some (c - 48)
  else if 97 ≤ c ∧ c ≤ 102 then some (c - 87)
  else if 65 ≤ c ∧ c ≤ 70 then some (c - 55)
  else none

/-- The four digits of a `\u` escape. -/
def hex4 : Str → Option (Nat × Str)
  | a :: b :: c :: d :: r => do
    let a ← hexVal a
    let b ← hexVal b
    let c ← hexVal c
    let d ← hexVal d
    some (4096 * a + 256 * b + 16 * c + d, r)
  | _ => none

/-- A `\u` escape; two that form a surrogate pair make one code point. -/
def scanUnicode (s : Str) : Option (Nat × Str) := do
  let (u, r) ← hex4 s
  if 0xD800 ≤ u ∧ u ≤ 0xDBFF then
    match eat [92, 117] r with
    | some r' =>
      let (v, r'') ← hex4 r'
      if 0xDC00 ≤ v ∧ v ≤ 0xDFFF then
        some (0x10000 + (u - 0xD800) * 1024 + (v - 0xDC00), r'')
      else some (u, r)
    | none => some (u, r)
  else some (u, r)

/-- The escape after a backslash. -/
def scanEscape : Str → Option (Nat × Str)
  | [] => none
  | c :: r =>
    if c = 34 ∨ c = 92 ∨ c = 47 then some (c, r)
    else if c = 98 then some (8, r)
    else if c = 102 then some (12, r)
    else if c = 110 then some (10, r)
    else if c = 114 then some (13, r)
    else if c = 116 then some (9, r)
    else if c = 117 then scanUnicode r
    else none

/-- `scanstring` with `strict=True`, after the opening quote. -/
def scanString : Nat → Str → Option (Str × Str)
  | 0, _ => none
  | _ + 1, [] => none
  | n + 1, c :: r =>
    if c = 34 then some ([], r)
    else if c = 92 then do
      let (ch, r') ← scanEscape r
      let (s, r'') ← scanString n r'
      some (ch :: s, r'')
    else if c < 32 then none
    else do
      let (s, r') ← scanString n r
      some (c :: s, r')

/-- The sign, the integer part, the fraction and the exponent of a number, as
text. -/
def scanSign : Str → Str × Str
  | 45 :: r => ([45], r)
  | s => ([], s)

def scanInt : Str → Option (Str × Str)
  | [] => none
  | c :: r =>
    if c = 48 then some ([48], r)
    else if isDigit c then some (c :: r.takeWhile isDigit, r.dropWhile isDigit)
    else none

def scanFrac : Str → Str × Str
  | 46 :: r =>
    if r.takeWhile isDigit = [] then ([], 46 :: r)
    else (46 :: r.takeWhile isDigit, r.dropWhile isDigit)
  | s => ([], s)

def scanExp (s : Str) : Str × Str :=
  match s with
  | [] => ([], [])
  | e :: r =>
    if e = 101 ∨ e = 69 then
      let sr := match r with
        | c :: r' => if c = 43 ∨ c = 45 then ([c], r') else ([], r)
        | [] => ([], [])
      if sr.2.takeWhile isDigit = [] then ([], s)
      else (e :: (sr.1 ++ sr.2.takeWhile isDigit), sr.2.dropWhile isDigit)
    else ([], s)

variable {F : Type} [PyFloat F]

/-- A number: an `int` when it has neither fraction nor exponent. -/
def scanNumber (s : Str) : Option (Json F × Str) := do
  let sg := scanSign s
  let (w, r) ← scanInt sg.2
  let fr := scanFrac r
  let ex := scanExp fr.2
  if fr.1 = [] ∧ ex.1 = [] then
    some (.int (if sg.1 = [] then (ofDigits w : Int) else -(ofDigits w : Int)), ex.2)
  else
    some (.float (PyFloat.ofText (sg.1 ++ (w ++ (fr.1 ++ ex.1)))), ex.2)

/-- The words of JSON, and the three constants Python adds. -/
def scanWord (s : Str) : Option (Json F × Str) :=
  match eat (lit "null") s, eat (lit "true") s, eat (lit "false") s with
  | some r, _, _ => some (.null, r)
  | _, some r, _ => some (.bool true, r)
  | _, _, some r => some (.bool false, r)
  | none, none, none =>
    match scanNumber s, eat (lit "NaN") s, eat (lit "Infinity") s, eat (lit "-Infinity") s with
    | some p, _, _, _ => some p
    | _, some r, _, _ => some (.float .nan, r)
    | _, _, some r, _ => some (.float .inf, r)
    | _, _, _, some r => some (.float .negInf, r)
    | none, none, none, none => none

mutual
/-- `scan_once`. -/
def scanValue : Nat → Str → Option (Json F × Str)
  | 0, _ => none
  | _ + 1, [] => none
  | n + 1, c :: r =>
    if c = 34 then do
      let (s, r') ← scanString (r.length + 1) r
      some (.str s, r')
    else if c = 123 then
      if (skipWs r).head? = some 125 then some (.obj [], (skipWs r).tail)
      else do
        let (kvs, r') ← scanMembers n (skipWs r)
        some (.obj (dictOf kvs), r')
    else if c = 91 then
      if (skipWs r).head? = some 93 then some (.arr [], (skipWs r).tail)
      else do
        let (xs, r') ← scanItems n (skipWs r)
        some (.arr xs, r')
    else scanWord (c :: r)

/-- The elements of an array, up to the closing bracket. -/
def scanItems : Nat → Str → Option (List (Json F) × Str)
  | 0, _ => none
  | n + 1, s => do
    let (x, r) ← scanValue n s
    match skipWs r with
    | 93 :: r' => some ([x], r')
    | 44 :: r' => do
      let (xs, r'') ← scanItems n (skipWs r')
      some (x :: xs, r'')
    | _ => none

/-- The members of an object, up to the closing brace. -/
def scanMembers : Nat → Str → Option (List (Str × Json F) × Str)
  | 0, _ => none
  | n + 1, s => do
    let r ← eat [34] s
    let (k, r₁) ← scanString (r.length + 1) r
    let r₂ ← eat [58] (skipWs r₁)
    let (v, r₃) ← scanValue n (skipWs r₂)
    match skipWs r₃ with
    | 125 :: r' => some ([(k, v)], r')
    | 44 :: r' => do
      let (kvs, r'') ← scanMembers n (skipWs r')
      some ((k, v) :: kvs, r'')
    | _ => none
end

/-- `json.loads`. -/
def loads (s : Str) : Option (Json F) := do
  let (j, r) ← scanValue (skipWs s).length (skipWs s)
  if skipWs r = [] then some j else none

end Json

end AgentRoi
