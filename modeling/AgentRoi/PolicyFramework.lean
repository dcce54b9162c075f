/-
A web framework for the policy routes.

It routes by the segments of a path, undoes percent-encoding and the plus signs
of a query, and prints answers as `json.dumps` does, without spaces.

* `readPath` — the read a path is for;
* `readPath_path` — it is the read the client wrote the path of;
* `PolicyFramework.server` — an application behind it, all of whose requests
  are one principal's;
* `PolicyFramework.web` — clients may rely on it.
-/
import AgentRoi.PlainFramework
import AgentRoi.PolicyRoutes

namespace AgentRoi

namespace PolicyFramework

/-! ### Reading a URL -/

/-- A query parameter, in which a plus sign is a space. -/
def readQuery (quoted : Str) : Option Str := do
  let parts ← (quoted.splitOn 43).mapM unquote
  return [32].intercalate parts

/-- Whose policy the last segment of a path asks for. -/
def readAgent (last : Str) : Option (Option Str) :=
  if last = lit "active" then some none
  else do
    let quoted ← last.dropPrefix? (lit "resolve?agent_id=")
    let agentId ← readQuery quoted
    return some agentId

/-- The read a path is for. -/
def readPath (path : Str) : Option PolicyRead :=
  match path.splitOn 47 with
  | [[], version, organizations, organizationId, policies, environment, name, last] =>
    if version = lit "v1" ∧ organizations = lit "organizations" ∧ policies = lit "policies" then do
      let organizationId ← PlainFramework.readSegment organizationId
      let environment ← PlainFramework.readSegment environment
      let name ← PlainFramework.readSegment name
      let agent ← readAgent last
      return ⟨⟨organizationId, name, environment⟩, agent⟩
    else none
  | _ => none

/-- A request to the application at `baseUrl`. -/
def parse (baseUrl : Str) (req : HttpRequest) : Option PolicyRead :=
  if req.method = lit "GET" then (req.url.dropPrefix? baseUrl).bind readPath else none

/-! ### Reading what a client wrote -/

/-- The parts of a query read back, and neither plus signs nor slashes are in
them. -/
theorem mapM_quote {parts quoted : List Str} (h : parts.mapM quote = .ok quoted) :
    quoted.mapM unquote = some parts ∧ ∀ text ∈ quoted, ∀ c ∈ text, c ≠ 43 ∧ c ≠ 47 := by
  induction parts generalizing quoted with
  | nil =>
    cases h
    exact ⟨rfl, fun text htext => absurd htext List.not_mem_nil⟩
  | cons part parts ih =>
    rw [List.mapM_cons] at h
    obtain ⟨first, hfirst, h⟩ := except_bind_eq_ok.mp h
    obtain ⟨rest, hrest, h⟩ := except_bind_eq_ok.mp h
    cases h
    obtain ⟨hread, hclean⟩ := ih hrest
    refine ⟨?_, List.forall_mem_cons.mpr ⟨fun c hc => ?_, hclean⟩⟩
    · rw [List.mapM_cons, unquote_quote hfirst, hread]
      rfl
    · have hmem := mem_quote hfirst c hc
      exact ⟨hmem.1, hmem.2.1⟩

/-- A query parameter reads back. -/
theorem readQuery_quotePlus {text quoted : Str} (h : quotePlus text = .ok quoted) :
    readQuery quoted = some text ∧ 47 ∉ quoted := by
  obtain ⟨parts, hparts, h⟩ := except_bind_eq_ok.mp h
  cases h
  obtain ⟨hread, hclean⟩ := mapM_quote hparts
  have hne : parts ≠ [] := by
    rintro rfl
    have hsplit : some [] = some (text.splitOn 32) := hread
    exact List.splitOn_ne_nil 32 text (Option.some.inj hsplit).symm
  constructor
  · rw [readQuery, List.splitOn_intercalate 43 (fun part hpart hc => (hclean part hpart 43 hc).1 rfl)
      hne, hread]
    exact congrArg some (List.intercalate_splitOn 32)
  · intro hslash
    rcases mem_intercalate hslash with hsame | ⟨part, hpart, hc⟩
    · exact absurd (List.mem_singleton.mp hsame) (by decide)
    · exact (hclean part hpart 47 hc).2 rfl

theorem readSegment_quote {text quoted : Str} (hquoted : quote text = .ok quoted)
    (h : IsSegment text) : PlainFramework.readSegment quoted = some text := by
  rw [PlainFramework.readSegment, unquote_quote hquoted, Option.bind_eq_bind, Option.bind_some,
    if_neg]
  exact not_or.mpr ⟨h.nonempty, h.slash⟩

theorem readAgent_resolve {agentId quoted : Str} (h : quotePlus agentId = .ok quoted) :
    readAgent (lit "resolve?agent_id=" ++ quoted) = some (some agentId) := by
  have hother : lit "resolve?agent_id=" ++ quoted ≠ lit "active" := by
    intro hsame
    have hfirst : some 114 = some 97 := congrArg List.head? hsame
    exact absurd hfirst (by decide)
  rw [readAgent, if_neg hother, PlainFramework.dropPrefix?_append, Option.bind_eq_bind,
    Option.bind_some, (readQuery_quotePlus h).1]
  rfl

/-- The segments of the path of a policy. -/
theorem splitOn_path {organizationId environment name last : Str}
    (horganization : 47 ∉ organizationId) (henvironment : 47 ∉ environment) (hname : 47 ∉ name)
    (hlast : 47 ∉ last) :
    (lit "/v1/organizations/" ++ organizationId ++ lit "/policies/" ++ environment ++ lit "/" ++
      name ++ 47 :: last).splitOn 47 = [[], lit "v1", lit "organizations", organizationId,
        lit "policies", environment, name, last] := by
  have hpath : lit "/v1/organizations/" ++ organizationId ++ lit "/policies/" ++ environment ++
      lit "/" ++ name ++ 47 :: last = [47].intercalate [[], lit "v1", lit "organizations",
        organizationId, lit "policies", environment, name, last] := by
    simp only [List.intercalate_cons_cons, List.intercalate_singleton, List.append_assoc]
    rfl
  rw [hpath, List.splitOn_intercalate]
  · intro segment hsegment
    simp only [List.mem_cons, List.not_mem_nil, or_false] at hsegment
    rcases hsegment with rfl | rfl | rfl | rfl | rfl | rfl | rfl | rfl
    · exact List.not_mem_nil
    · decide
    · decide
    · exact horganization
    · decide
    · exact henvironment
    · exact hname
    · exact hlast
  · exact List.cons_ne_nil _ _

/-- The path of a read is read as that read. -/
theorem readPath_path {request : PolicyRead} {path : Str} (h : request.Routable)
    (hpath : request.path = .ok path) : readPath path = some request := by
  obtain ⟨first, hfirst, hpath⟩ := except_bind_eq_ok.mp hpath
  obtain ⟨organizationId, horganization, hfirst⟩ := except_bind_eq_ok.mp hfirst
  obtain ⟨environment, henvironment, hfirst⟩ := except_bind_eq_ok.mp hfirst
  obtain ⟨name, hname, hfirst⟩ := except_bind_eq_ok.mp hfirst
  cases hfirst
  have hslash : ∀ {text quoted : Str}, quote text = .ok quoted → 47 ∉ quoted :=
    fun hquoted hc => (mem_quote hquoted 47 hc).2.1 rfl
  have hread : ∀ {last : Str} {agent : Option Str}, 47 ∉ last → readAgent last = some agent →
      readPath (lit "/v1/organizations/" ++ organizationId ++ lit "/policies/" ++ environment ++
        lit "/" ++ name ++ 47 :: last) = some ⟨request.key, agent⟩ := by
    intro last agent hlast hagent
    rw [readPath, splitOn_path (hslash horganization) (hslash henvironment) (hslash hname) hlast]
    show (if _ then _ else _) = _
    rw [if_pos ⟨rfl, rfl, rfl⟩, readSegment_quote horganization h.organizationId,
      readSegment_quote henvironment h.environment, readSegment_quote hname h.name, hagent]
    rfl
  obtain ⟨key, agent⟩ := request
  cases agent with
  | none =>
    cases hpath
    exact hread (by decide) (if_pos rfl)
  | some agentId =>
    obtain ⟨quoted, hquoted, hpath⟩ := except_bind_eq_ok.mp hpath
    cases hpath
    have hlast : 47 ∉ lit "resolve?agent_id=" ++ quoted := by
      rw [List.mem_append, not_or]
      exact ⟨by decide, (readQuery_quotePlus hquoted).2⟩
    have hsame := hread hlast (readAgent_resolve hquoted)
    rw [List.append_assoc]
    exact hsame

/-! ### The server -/

section

variable {F V T W X Y O : Type} [PyValues F] [LE Y]

/-- An application behind the framework. -/
def server (api : ControlPlaneApi F V T W X Y O) (principal : Principal) (baseUrl : Str) :
    PolicyServer F V T W X Y O where
  api := api
  authenticate _ _ := some principal
  parse := parse baseUrl
  respond := PlainFramework.respond

theorem web (api : ControlPlaneApi F V T W X Y O) (principal : Principal) (baseUrl : Str) :
    PolicyWeb baseUrl (server api principal baseUrl) where
  read headers request path hroutable hpath := by
    have hread : parse baseUrl ⟨lit "GET", baseUrl ++ path, headers, none⟩ = some request := by
      rw [parse, if_pos rfl, PlainFramework.dropPrefix?_append, Option.bind_some,
        readPath_path hroutable hpath]
    exact hread
  respond j hclean hscalars := by
    obtain ⟨bytes, hbytes⟩ := exists_encodeUtf8 hscalars
    refine ⟨j.render, ?_, Json.loads_render hclean⟩
    show PlainFramework.respond _ = _
    rw [PlainFramework.respond, PyVal.plain_ofJson, Option.bind_eq_bind, Option.bind_some, hbytes]
    rfl

end

end PolicyFramework

end AgentRoi
