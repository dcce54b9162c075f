/-
`ControlledHTTPAdapter` of `agent_roi.adapters.http`.

The answers of the servers are given, one for each host that is contacted, and
`urlopen` follows their redirects.

* `SplitUrl`, `urlsplit` — the scheme and the host of a URL;
* `Answer`, `urlopen` — what the servers answer, and what is sent to them;
* `ControlledHTTPAdapter` — the adapter, its checks and `request`;
* `Confined` — nothing is sent to a host that is not allowlisted;
* `confined_iff` — this holds exactly when no redirect leads to one.
-/
import AgentRoi.JsonScan
import AgentRoi.PolicyValidation
import AgentRoi.PyM

namespace AgentRoi

/-! ### URLs -/

/-- The library functions that `urlsplit` and the adapter rely on; `badNetloc`
is what `urlsplit` refuses of a network location besides unbalanced brackets. -/
class PyUrllib (F : Type) extends PyFloat F where
  lower : Str → Str
  upper : Str → Str
  badNetloc : Str → Bool
  decodeReplace : List UInt8 → Str
  loadsBytes : List UInt8 → Except PyExc (Json F)

/-- What is left of a text before the first `c`. -/
def textBefore (c : ℕ) (text : Str) : Str := text.takeWhile (· ≠ c)

/-- What follows the first `c`. -/
def textAfter (c : ℕ) (text : Str) : Str := (text.dropWhile (· ≠ c)).drop 1

/-- What follows the last `c`, or all. -/
def textAfterLast (c : ℕ) (text : Str) : Str := (textBefore c text.reverse).reverse

structure SplitUrl where
  scheme : Str
  netloc : Str
  deriving DecidableEq

def isAsciiLetter (c : ℕ) : Bool := (65 ≤ c && c ≤ 90) || (97 ≤ c && c ≤ 122)

def isSchemeChar (c : ℕ) : Bool :=
  isAsciiLetter c || (48 ≤ c && c ≤ 57) || c ∈ lit "+-."

/-- The scheme, if there is one, and the rest. -/
def splitScheme (url : Str) : Str × Str :=
  let scheme := textBefore 58 url
  if 58 ∈ url ∧ scheme.all isSchemeChar = true ∧ (scheme.head?.any isAsciiLetter) = true then
    (lowerAscii scheme, textAfter 58 url)
  else ([], url)

/-- `urllib.parse.urlsplit`, up to the network location. -/
def urlsplit (F : Type) [PyUrllib F] (url : Str) : Except PyExc SplitUrl :=
  let cleaned := (url.dropWhile (· ≤ 32)).filter fun c => c ≠ 9 ∧ c ≠ 10 ∧ c ≠ 13
  let split := splitScheme cleaned
  let netloc := if lit "//" <+: split.2 then (split.2.drop 2).takeWhile fun c => c ∉ lit "/?#"
    else []
  if (91 ∈ netloc) ≠ (93 ∈ netloc) then .error (.valueError (lit "Invalid IPv6 URL"))
  else if PyUrllib.badNetloc F netloc = true then .error (.valueError [])
  else .ok ⟨split.1, netloc⟩

/-- `parsed.hostname or ""`; a zone is not lowered. -/
def SplitUrl.hostname (F : Type) [PyUrllib F] (url : SplitUrl) : Str :=
  let hostinfo := textAfterLast 64 url.netloc
  let host := if 91 ∈ hostinfo then textBefore 93 (textAfter 91 hostinfo) else textBefore 58 hostinfo
  PyUrllib.lower F (textBefore 37 host) ++ host.dropWhile (· ≠ 37)

/-! ### Servers -/

/-- What is sent to a host. -/
structure Contact where
  scheme : Str
  host : Str
  headers : List (Str × Str)
  deriving DecidableEq

structure Document where
  status : ℤ
  headers : List (Str × Str)
  content : List UInt8

/-- The answer of a server: a redirect to the absolute URL its `Location`
gives, a document, an error with a document, or none for an exception. -/
inductive Answer where
  | redirect (code : ℤ) (location : Str) (content : List UInt8)
  | document (document : Document)
  | httpError (code : ℤ) (content : List UInt8)
  | failed (e : PyExc)

/-- What `urlopen` raises; an `HTTPError` has the document of the answer. -/
inductive OpenError where
  | http (code : ℤ) (content : List UInt8)
  | raised (e : PyExc)

def urlError : PyExc := .other (lit "URLError") (some []) true

section

variable (F : Type) [PyUrllib F]

def SplitUrl.contact (url : SplitUrl) (headers : List (Str × Str)) : Contact :=
  ⟨url.scheme, url.hostname F, headers⟩

/-- Redirects are followed over HTTP and HTTPS; there is no connection when the
answers are at an end. -/
def urlopen (headers : List (Str × Str)) :
    SplitUrl → List Answer → List Contact × Except OpenError Document
  | url, [] => ([url.contact F headers], .error (.raised urlError))
  | url, .document document :: _ => ([url.contact F headers], .ok document)
  | url, .httpError code content :: _ => ([url.contact F headers], .error (.http code content))
  | url, .failed e :: _ => ([url.contact F headers], .error (.raised e))
  | url, .redirect code location content :: answers =>
    match urlsplit F location with
    | .error e => ([url.contact F headers], .error (.raised e))
    | .ok next =>
      if next.scheme = lit "http" ∨ next.scheme = lit "https" then
        (url.contact F headers :: (urlopen headers next answers).1,
          (urlopen headers next answers).2)
      else ([url.contact F headers], .error (.http code content))

/-- The URLs that the redirects lead to, as far as they are followed. -/
def followed : List Answer → List SplitUrl
  | .redirect _ location _ :: answers =>
    match urlsplit F location with
    | .error _ => []
    | .ok next =>
      if next.scheme = lit "http" ∨ next.scheme = lit "https" then next :: followed answers else []
  | _ => []

/-- The hosts that are contacted, one after the other. -/
theorem urlopen_contacts (headers : List (Str × Str)) (url : SplitUrl) (answers : List Answer) :
    (urlopen F headers url answers).1 =
      (url :: followed F answers).map fun url => url.contact F headers := by
  induction answers generalizing url with
  | nil => rfl
  | cons answer answers ih =>
    cases answer with
    | redirect code location content =>
      rw [urlopen, followed]
      cases urlsplit F location with
      | error e => rfl
      | ok next =>
        show (if _ then _ else _ : List Contact × Except OpenError Document).1 =
          (url :: if _ then _ else _).map _
        split
        · rw [List.map_cons, ← ih next]
        · rfl
    | document document => rfl
    | httpError code content => rfl
    | failed e => rfl

end

/-! ### The adapter -/

structure ControlledHTTPAdapter where
  allowedHosts : List Str
  allowedMethods : List Str
  maxRequestBytes : ℤ
  maxResponseBytes : ℤ
  defaultHeaders : List (Str × Str)

structure HttpResult (F : Type) where
  status : ℤ
  headers : List (Str × Str)
  body : Json F

/-- What is sent, and what `request` returns or raises. -/
abbrev HttpOutcome (F : Type) := List Contact × Except PyExc (HttpResult F)

namespace ControlledHTTPAdapter

variable {F : Type} [PyUrllib F]

variable (F) in
/-- `__init__`, for these arguments; the timeout is left out. -/
def create (allowedHosts allowedMethods : List Str) (maxRequestBytes maxResponseBytes : ℤ)
    (defaultHeaders : List (Str × Str)) : Except PyExc ControlledHTTPAdapter :=
  let hosts := (allowedHosts.filter fun host => !isBlank host).map fun host =>
    strip (PyUrllib.lower F host)
  if hosts = [] then .error (.valueError (lit "allowed_hosts cannot be empty"))
  else .ok {
    allowedHosts := hosts
    allowedMethods := allowedMethods.map fun method => strip (PyUrllib.upper F method)
    maxRequestBytes := maxRequestBytes
    maxResponseBytes := maxResponseBytes
    defaultHeaders := defaultHeaders }

/-- The body of a request; none without `json_body`. -/
def encodeBody (a : ControlledHTTPAdapter) : PyVal F → Except PyExc (Option (List UInt8))
  | .none => return none
  | jsonBody =>
    match encodeUtf8 (canonicalJson jsonBody) with
    | none => .error .unicodeEncodeError
    | some body =>
      if a.maxRequestBytes < body.length then
        .error (.valueError (lit "HTTP request body exceeds max_request_bytes"))
      else return some body

/-- `{**first, **second}`. -/
def mergeHeaders (first second : List (Str × Str)) : List (Str × Str) :=
  second.foldl (fun headers header => dictInsert header.1 header.2 headers) first

/-- The checks of `request`: the URL and the headers that are sent to it. -/
def prepare (a : ControlledHTTPAdapter) (url method : Str) (jsonBody : PyVal F)
    (headers : List (Str × Str)) : Except PyExc (SplitUrl × List (Str × Str)) := do
  let parsed ← urlsplit F url
  if parsed.scheme ≠ lit "https" then
    .error (.valueError (lit "Controlled HTTP requests must use HTTPS"))
  else if PyUrllib.lower F (parsed.hostname F) ∉ a.allowedHosts then
    .error (.permissionError (lit "HTTP host is not allowlisted: " ++
      if parsed.hostname F = [] then lit "None" else parsed.hostname F))
  else if PyUrllib.upper F method ∉ a.allowedMethods then
    .error (.permissionError (lit "HTTP method is not allowlisted: " ++ PyUrllib.upper F method))
  else do
    let body ← a.encodeBody jsonBody
    return (parsed, mergeHeaders (mergeHeaders a.defaultHeaders headers)
      (if body.isSome then [(lit "Content-Type", lit "application/json")] else []))

/-- `response.read(self.max_response_bytes + 1)`. -/
def readContent (a : ControlledHTTPAdapter) (content : List UInt8) : List UInt8 :=
  if a.maxResponseBytes + 1 < 0 then content else content.take (a.maxResponseBytes + 1).toNat

/-- `response.headers.get(name, "")`. -/
def headerOf (F : Type) [PyUrllib F] (headers : List (Str × Str)) (name : Str) : Str :=
  ((headers.find? fun header => PyUrllib.lower F header.1 = PyUrllib.lower F name).map
    Prod.snd).getD []

def readDocument (a : ControlledHTTPAdapter) (document : Document) :
    Except PyExc (HttpResult F) := do
  let content := a.readContent document.content
  if a.maxResponseBytes < content.length then
    .error (.valueError (lit "HTTP response exceeds max_response_bytes"))
  else do
    let contentType := PyUrllib.lower F (headerOf F document.headers (lit "Content-Type"))
    let body ← if lit "json" <:+: contentType ∧ content ≠ [] then PyUrllib.loadsBytes content
      else .ok (.str (PyUrllib.decodeReplace F content))
    return ⟨document.status, mergeHeaders [] document.headers, body⟩

/-- What `request` makes of the answer. -/
def respond (a : ControlledHTTPAdapter) :
    Except OpenError Document → Except PyExc (HttpResult F)
  | .ok document => a.readDocument document
  | .error (.http code content) =>
    .error (.runtimeError (lit "Controlled HTTP request returned HTTP " ++ intText code ++
      lit ": " ++ PyUrllib.decodeReplace F (a.readContent content)))
  | .error (.raised e) => .error e

def request (a : ControlledHTTPAdapter) (url method : Str) (jsonBody : PyVal F)
    (headers : List (Str × Str)) (answers : List Answer) : HttpOutcome F :=
  match a.prepare url method jsonBody headers with
  | .error e => ([], .error e)
  | .ok prepared =>
    let opened := urlopen F prepared.2 prepared.1 answers
    (opened.1, a.respond opened.2)

/-! ### Where requests go -/

/-- The host of the URL is allowlisted, and the scheme is HTTPS. -/
def Permits (F : Type) [PyUrllib F] (a : ControlledHTTPAdapter) (url : SplitUrl) : Prop :=
  url.scheme = lit "https" ∧ PyUrllib.lower F (url.hostname F) ∈ a.allowedHosts

/-- Whatever is sent is sent to an allowlisted host over HTTPS, and nothing is
sent for a URL of another. -/
structure Confined (a : ControlledHTTPAdapter) (url : Str) (outcome : HttpOutcome F) : Prop where
  contacted : ∀ contact ∈ outcome.1,
    contact.scheme = lit "https" ∧ PyUrllib.lower F contact.host ∈ a.allowedHosts
  refused : (∀ parsed, urlsplit F url = .ok parsed → ¬ a.Permits F parsed) →
    outcome.1 = [] ∧ ∃ e, outcome.2 = .error e

variable {a : ControlledHTTPAdapter} {url method : Str} {jsonBody : PyVal F}
  {headers : List (Str × Str)}

/-- What passes the checks is a URL of an allowlisted host. -/
theorem permits_of_prepared {prepared : SplitUrl × List (Str × Str)}
    (h : a.prepare url method jsonBody headers = .ok prepared) :
    urlsplit F url = .ok prepared.1 ∧ a.Permits F prepared.1 := by
  obtain ⟨parsed, hparsed, h⟩ := except_bind_eq_ok.mp h
  split at h
  · cases h
  · next hscheme =>
    split at h
    · cases h
    · next hhost =>
      split at h
      · cases h
      · obtain ⟨body, -, h⟩ := except_bind_eq_ok.mp h
        cases h
        exact ⟨hparsed, not_not.mp hscheme, not_not.mp hhost⟩

/-- A request keeps to the allowlisted hosts exactly when every redirect that is
followed does. -/
theorem confined_iff (a : ControlledHTTPAdapter) (url method : Str) (jsonBody : PyVal F)
    (headers : List (Str × Str)) (answers : List Answer) :
    a.Confined url (a.request url method jsonBody headers answers) ↔
      ((∃ prepared, a.prepare url method jsonBody headers = .ok prepared) →
        ∀ next ∈ followed F answers, a.Permits F next) := by
  unfold request
  cases hprepared : a.prepare url method jsonBody headers with
  | error e =>
    refine iff_of_true ⟨fun _ h => absurd h List.not_mem_nil, fun _ => ⟨rfl, e, rfl⟩⟩ ?_
    rintro ⟨prepared, hok⟩
    cases hok
  | ok prepared =>
    obtain ⟨hparsed, hpermits⟩ := permits_of_prepared hprepared
    have hcontacts := urlopen_contacts F prepared.2 prepared.1 answers
    constructor
    · intro hconfined _ next hnext
      refine hconfined.contacted (next.contact F prepared.2) ?_
      show next.contact F prepared.2 ∈ (urlopen F prepared.2 prepared.1 answers).1
      rw [hcontacts]
      exact List.mem_map_of_mem (List.mem_cons_of_mem _ hnext)
    · intro hfollowed
      refine ⟨fun contact hcontact => ?_, fun hrefused => absurd hpermits (hrefused _ hparsed)⟩
      replace hcontact : contact ∈ (urlopen F prepared.2 prepared.1 answers).1 := hcontact
      rw [hcontacts] at hcontact
      obtain ⟨next, hnext, rfl⟩ := List.mem_map.mp hcontact
      rcases List.mem_cons.mp hnext with rfl | hnext
      · exact hpermits
      · exact hfollowed ⟨prepared, rfl⟩ next hnext

/-! ### A redirect that leaves the allowlist -/

/-- The library, as far as ASCII goes. -/
instance : PyUrllib Half where
  lower := lowerAscii
  upper text := text.map fun c => if 97 ≤ c ∧ c ≤ 122 then c - 32 else c
  badNetloc _ := false
  decodeReplace content := content.map UInt8.toNat
  loadsBytes content := (Json.loads (content.map UInt8.toNat)).elim (.error (.valueError [])) .ok

def exampleAdapter : ControlledHTTPAdapter where
  allowedHosts := [lit "api.example.com"]
  allowedMethods := [lit "GET"]
  maxRequestBytes := 1000000
  maxResponseBytes := 5000000
  defaultHeaders := [(lit "Authorization", lit "token")]

/-- The server redirects to another host, over HTTP. -/
def leavingAnswers : List Answer := [.redirect 302 (lit "http://elsewhere.test/") []]

/-- The headers are sent to the other host. -/
theorem redirect_leaves :
    create Half [lit "api.example.com"] [lit "GET"] 1000000 5000000
      [(lit "Authorization", lit "token")] = .ok exampleAdapter ∧
    (exampleAdapter.request (lit "https://api.example.com/") (lit "GET") (.none : PyVal Half) []
      leavingAnswers).1 = [
        ⟨lit "https", lit "api.example.com", [(lit "Authorization", lit "token")]⟩,
        ⟨lit "http", lit "elsewhere.test", [(lit "Authorization", lit "token")]⟩] ∧
    ¬ exampleAdapter.Confined (lit "https://api.example.com/")
      (exampleAdapter.request (lit "https://api.example.com/") (lit "GET") (.none : PyVal Half) []
        leavingAnswers) := by
  have hcontacts : (exampleAdapter.request (lit "https://api.example.com/") (lit "GET")
      (.none : PyVal Half) [] leavingAnswers).1 = [
        ⟨lit "https", lit "api.example.com", [(lit "Authorization", lit "token")]⟩,
        ⟨lit "http", lit "elsewhere.test", [(lit "Authorization", lit "token")]⟩] := by
    rfl
  refine ⟨rfl, hcontacts, fun hconfined => ?_⟩
  have hsecond := hconfined.contacted
    ⟨lit "http", lit "elsewhere.test", [(lit "Authorization", lit "token")]⟩
    (by rw [hcontacts]; exact List.mem_cons_of_mem _ List.mem_cons_self)
  exact absurd hsecond.1 (by decide)

end ControlledHTTPAdapter

end AgentRoi
