/-
A web framework for the audit service.

It routes by comparing methods and paths, undoes percent-encoding, reads bodies
as UTF-8 and JSON, and prints answers as `json.dumps` does, without spaces.

* `PlainFramework.service` — the service behind it, which permits everything;
* `PlainFramework.web` — the audit service may rely on it.
-/
import AgentRoi.RemoteAuditCalls

namespace AgentRoi

namespace PlainFramework

variable {F : Type} [PyValues F]

/-- The members of a body. -/
def readBody (req : HttpRequest) : Option (JsonObj F) := do
  let bytes ← req.data
  let text ← decodeUtf8 bytes
  match (Json.loads text : Option (Json F)) with
  | some (.obj members) => some members
  | _ => none

/-- The members of a body, its two hashes of the type they have. -/
def readEvent (members : JsonObj F) : Option (AppendBody F) :=
  if h : (Json.optStr (dictGet (lit "prev_hash") members)).isSome ∧
      (Json.optStr (dictGet (lit "hash") members)).isSome then
    some ⟨members, _, _, (Option.some_get h.1).symm, (Option.some_get h.2).symm⟩
  else none

/-- A path parameter. -/
def readSegment (quoted : Str) : Option Str := do
  let segment ← unquote quoted
  if segment = [] ∨ 47 ∈ segment then none else some segment

/-- A GET request, by its path. -/
def routeGet (path : Str) : Option (AuditRequest F) :=
  if path = lit "/v1/audit/verify" then some (.verify [])
  else match path.dropPrefix? (lit "/v1/audit/verify?correlation_id=") with
    | some quoted => (unquote quoted).map .verify
    | none => match path.dropPrefix? (lit "/v1/audit/chains/") with
      | some rest => ((rest.dropSuffix? (lit "/tail")).bind readSegment).map .tail
      | none => none

/-- A request to the service at `baseUrl`. -/
def parse (baseUrl : Str) (req : HttpRequest) : Option (AuditRequest F) := do
  let path ← req.url.dropPrefix? baseUrl
  if req.method = lit "GET" then routeGet path
  else do
    let members ← readBody req
    if path = lit "/v1/audit/events" then some (.record members)
    else if path = lit "/v1/audit/events/append" then (readEvent members).map .append
    else none

/-- What is printed of an answer. -/
def respond (v : PyVal F) : Option Str := do
  let j ← v.plain
  let _ ← encodeUtf8 j.render
  return j.render

/-- The service, permitting everything. -/
def service (H : Sha256) (baseUrl : Str) : AuditService F where
  hash := H
  permits _ _ _ := true
  parse := parse baseUrl
  respond := respond

omit [PyValues F] in
theorem dropPrefix?_append (p s : Str) : (p ++ s).dropPrefix? p = some s :=
  List.dropPrefix?_append_of_beq s (beq_self_eq_true p)

omit [PyValues F] in
theorem dropSuffix?_append (p s : Str) : (p ++ s).dropSuffix? s = some p :=
  List.dropSuffix?_eq_some_iff.mpr ⟨s, rfl, beq_self_eq_true s⟩

theorem readBody_eq {req : HttpRequest} {text : Str} {bytes : List UInt8} {members : JsonObj F}
    (hdata : req.data = some bytes) (hbytes : encodeUtf8 text = some bytes)
    (hloads : Json.loads text = some (.obj members)) : readBody req = some members := by
  rw [readBody, hdata, Option.bind_eq_bind, Option.bind_some, decodeUtf8_encodeUtf8 hbytes,
    Option.bind_eq_bind, Option.bind_some, hloads]

omit [PyValues F] in
theorem readEvent_members (body : AppendBody F) : readEvent body.members = some body := by
  obtain ⟨members, prevHash, hash, hprev, hhash⟩ := body
  have h : (Json.optStr (dictGet (lit "prev_hash") members)).isSome ∧
      (Json.optStr (dictGet (lit "hash") members)).isSome := by
    rw [hprev, hhash]
    exact ⟨rfl, rfl⟩
  rw [readEvent, dif_pos h]
  congr 2
  · exact Option.get_of_eq_some _ hprev
  · exact Option.get_of_eq_some _ hhash

omit [PyValues F] in
theorem routeGet_tail {id quoted : Str} (hquoted : quote id = .ok quoted) (hne : id ≠ [])
    (hslash : 47 ∉ id) :
    (routeGet (RemoteAuditStore.tailPath quoted) : Option (AuditRequest F)) =
      some (.tail id) := by
  have hpath : RemoteAuditStore.tailPath quoted =
      lit "/v1/audit/chains/" ++ (quoted ++ lit "/tail") := List.append_assoc ..
  -- the tenth code point after the first tells the two kinds of path apart
  have hten : (RemoteAuditStore.tailPath quoted)[10]? = some 99 := by
    rw [hpath]
    rfl
  have hverify : RemoteAuditStore.tailPath quoted ≠ lit "/v1/audit/verify" := by
    intro h
    rw [h] at hten
    exact absurd hten (by decide)
  have hquery : (RemoteAuditStore.tailPath quoted).dropPrefix?
      (lit "/v1/audit/verify?correlation_id=") = none := by
    rw [Option.eq_none_iff_forall_not_mem]
    intro rest hrest
    obtain ⟨p, hp, heq⟩ := List.dropPrefix?_eq_some_iff.mp hrest
    obtain rfl := eq_of_beq heq
    rw [hp] at hten
    exact absurd (hten.symm.trans rfl : some 99 = some 118) (by decide)
  rw [routeGet, if_neg hverify, hquery, hpath]
  simp only [dropPrefix?_append, dropSuffix?_append, Option.bind_some]
  have hsegment : readSegment quoted = some id := by
    rw [readSegment, unquote_quote hquoted, Option.bind_eq_bind, Option.bind_some, if_neg]
    exact not_or.mpr ⟨hne, hslash⟩
  rw [hsegment]
  rfl

omit [PyValues F] in
theorem routeGet_verify {id path : Str} (hpath : RemoteAuditStore.verifyPath id = .ok path) :
    (routeGet path : Option (AuditRequest F)) = some (.verify id) := by
  rw [RemoteAuditStore.verifyPath] at hpath
  split_ifs at hpath with hid
  · cases hpath
    rw [routeGet, if_pos rfl, hid]
  · obtain ⟨quoted, hquoted, hpath⟩ := except_bind_eq_ok.mp hpath
    cases hpath
    have hquery : lit "/v1/audit/verify" ++ lit "?correlation_id=" ++ quoted =
      lit "/v1/audit/verify?correlation_id=" ++ quoted := rfl
    have hlonger : lit "/v1/audit/verify?correlation_id=" ++ quoted ≠ lit "/v1/audit/verify" := by
      intro h
      have hmark : (lit "/v1/audit/verify?correlation_id=" ++ quoted)[16]? = some 63 := rfl
      rw [h] at hmark
      exact absurd hmark (by decide)
    rw [hquery, routeGet, if_neg hlonger, dropPrefix?_append]
    simp only [unquote_quote hquoted, Option.map_some]

/-- The service may rely on the framework. -/
theorem web (H : Sha256) (baseUrl : Str) :
    WebFramework baseUrl (service H baseUrl : AuditService F) where
  record headers text bytes members _ hbytes hloads := by
    show parse baseUrl _ = _
    rw [parse, dropPrefix?_append, Option.bind_eq_bind, Option.bind_some,
      if_neg (by decide : lit "POST" ≠ lit "GET"), readBody_eq rfl hbytes hloads]
    rfl
  append headers text bytes body _ hbytes hloads := by
    show parse baseUrl _ = _
    rw [parse, dropPrefix?_append, Option.bind_eq_bind, Option.bind_some,
      if_neg (by decide : lit "POST" ≠ lit "GET"), readBody_eq rfl hbytes hloads,
      Option.bind_eq_bind, Option.bind_some,
      if_neg (by decide : lit "/v1/audit/events/append" ≠ lit "/v1/audit/events"), if_pos rfl,
      readEvent_members]
    rfl
  tail headers id quoted hquoted hne hslash := by
    show parse baseUrl _ = _
    rw [parse, dropPrefix?_append, Option.bind_eq_bind, Option.bind_some, if_pos rfl,
      routeGet_tail hquoted hne hslash]
  verify headers id path hpath := by
    show parse baseUrl _ = _
    rw [parse, dropPrefix?_append, Option.bind_eq_bind, Option.bind_some, if_pos rfl,
      routeGet_verify hpath]
  respond j hclean hscalars := by
    obtain ⟨bytes, hbytes⟩ := exists_encodeUtf8 hscalars
    refine ⟨j.render, ?_, Json.loads_render hclean⟩
    show PlainFramework.respond _ = _
    rw [PlainFramework.respond, PyVal.plain_ofJson, Option.bind_eq_bind, Option.bind_some, hbytes]
    rfl

end PlainFramework

end AgentRoi
