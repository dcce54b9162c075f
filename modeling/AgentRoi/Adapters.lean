/-
`agent_roi.adapters`: tool calls of OpenAI, Bedrock and LangChain agents.

Payloads carry JSON values; an SDK may hand a call over as a mapping or as an
object with attributes.

* `parseCall`, `BedrockEvent.parse`, `AgentAction.parse` — the three parsers;
* `bindArguments` — how Python binds the keyword arguments of `call_tool`;
* `AdapterRequest.execute` — `execute`, `aexecute` and their LangChain namesakes,
  up to the result of the tool;
* `PassesUnchanged` — the tool call is made with the arguments as keyword
  arguments, and the handler is started with nothing else;
* `passes_unchanged_iff` — so it is exactly if no argument bears the name of one
  of the parameters of `call_tool`.
-/
import AgentRoi.AuditEvent
import AgentRoi.CallLayers
import AgentRoi.Interference
import AgentRoi.ToolRuns

namespace AgentRoi

variable {F W C J : Type}

/-! ### The parsers -/

/-- `a.get(…) or b`. -/
def orElse [PyBuiltins F] (found : Option (Json F)) (default : Json F) : Json F :=
  match found with
  | none => default
  | some value => if value.truthy then value else default

/-- The attributes of an object that an SDK hands over. -/
structure SdkObject (F : Type) where
  name : Option (Json F)
  arguments : Option (Json F)

/-- A tool call of OpenAI, which may wrap its `function`. -/
inductive OpenAIToolCall (F : Type) where
  | mapping (items : List (Str × Json F))
  | object (attributes : SdkObject F) (function : Option (SdkObject F))

namespace OpenAIToolCall

/-- `json.loads(arguments or "{}")`, of arguments that are a string. -/
def loadArguments [PyFloat F] : Json F → Except PyExc (Json F)
  | .str text =>
    match Json.loads (if text = [] then lit "\x7b\x7d" else text) with
    | some arguments => .ok arguments
    | none => .error (.valueError (lit "OpenAI tool arguments are not valid JSON"))
  | arguments => .ok arguments

/-- The checks of a name and its arguments. -/
def checkCall [PyFloat F] (name : Option (Json F)) (arguments : Json F) :
    Except PyExc (Str × List (Str × Json F)) :=
  match name with
  | some (.str name) =>
    if isBlank name then
      .error (.valueError (lit "OpenAI tool call is missing function.name"))
    else do
      match ← loadArguments arguments with
      | .obj arguments => return (name, arguments)
      | _ => .error (.valueError (lit "OpenAI tool arguments must be an object"))
  | _ => .error (.valueError (lit "OpenAI tool call is missing function.name"))

/-- `_parse_call`. -/
def parseCall [PyFloat F] : OpenAIToolCall F → Except PyExc (Str × List (Str × Json F))
  | .mapping items =>
    match (dictGet (lit "function") items).getD (.obj items) with
    | .obj function => checkCall (dictGet (lit "name") function)
        ((dictGet (lit "arguments") function).getD (.obj []))
    | _ => .error attributeError
  | .object attributes function =>
    checkCall (function.getD attributes).name ((function.getD attributes).arguments.getD (.obj []))

end OpenAIToolCall

/-- An invocation of a Bedrock action group. -/
structure BedrockEvent (F : Type) where
  items : List (Str × Json F)

namespace BedrockEvent

variable [PyBuiltins F]

def missingMappings : PyExc :=
  .valueError (lit "Bedrock parameters must contain name/value mappings")

/-- `arguments[str(parameter["name"])] = parameter.get("value")`. -/
def addParameter (arguments : List (Str × Json F)) :
    Json F → Except PyExc (List (Str × Json F))
  | .obj parameter =>
    match dictGet (lit "name") parameter with
    | some name =>
      if name.truthy then
        .ok (dictInsert name.pyStr ((dictGet (lit "value") parameter).getD .null) arguments)
      else .error missingMappings
    | none => .error missingMappings
  | _ => .error missingMappings

/-- The arguments of an event. -/
def arguments : Json F → Except PyExc (List (Str × Json F))
  | .obj parameters => .ok parameters
  | .arr parameters => parameters.foldlM addParameter []
  | _ => .error (.valueError (lit "Bedrock parameters must be a list or mapping"))

/-- `parse`. -/
def parse (event : BedrockEvent F) : Except PyExc (Str × List (Str × Json F)) :=
  let name := strip (orElse (dictGet (lit "function") event.items)
    (orElse (dictGet (lit "apiPath") event.items) (.str []))).pyStr
  if name = [] then
    .error (.valueError (lit "Bedrock invocation is missing function or apiPath"))
  else do
    let parameters ← arguments ((dictGet (lit "parameters") event.items).getD (.arr []))
    return (name, parameters)

end BedrockEvent

/-- An action of a LangChain agent; the attributes of an object are those the
adapter looks for. -/
inductive AgentAction (F : Type) where
  | mapping (items : List (Str × Json F))
  | object (tool name toolInput arguments : Option (Json F))

namespace AgentAction

def checkAction (name : Option (Json F)) (value : Json F) : Except PyExc (Str × Json F) :=
  match name with
  | some (.str name) =>
    if isBlank name then .error (.valueError (lit "LangChain action is missing a tool name"))
    else .ok (strip name, value)
  | _ => .error (.valueError (lit "LangChain action is missing a tool name"))

/-- `_parse_action`. -/
def parseAction [PyBuiltins F] : AgentAction F → Except PyExc (Str × Json F)
  | .mapping items => checkAction
      (match dictGet (lit "tool") items with
        | some tool => if tool.truthy then some tool else dictGet (lit "name") items
        | none => dictGet (lit "name") items)
      ((dictGet (lit "tool_input") items).getD ((dictGet (lit "arguments") items).getD (.obj [])))
  | .object tool name toolInput arguments =>
    checkAction (some (tool.getD (name.getD (.str []))))
      (toolInput.getD (arguments.getD (.obj [])))

end AgentAction

/-! ### Keyword arguments -/

/-- The parameters of `call_tool` and `acall_tool` that a keyword can name. -/
def controlParameters : List Str :=
  [lit "self", lit "tool_name", lit "fn_or_first_arg", lit "cost_usd"]

/-- The arguments as keyword arguments. -/
def keywordsOf (arguments : List (Str × Json F)) : PyDict F :=
  arguments.map fun p => (p.1, .ofJson p.2)

/-- What a keyword argument `cost_usd` is; `costAmount` is what `float` makes of
a value. -/
def boundCost (costAmount : PyVal F → CostAmount) : Option (PyVal F) → Option CostAmount
  | none | some .none => none
  | some value => some (costAmount value)

/-- The binding of `context.call_tool(name, **keywords)`; the first two
parameters are bound already.  A JSON value is no callable. -/
def bindArguments (costAmount : PyVal F → CostAmount) (name : Str) (keywords : PyDict F) :
    Except PyExc (ToolCall F C) :=
  if (dictGet (lit "self") keywords).isSome ∨ (dictGet (lit "tool_name") keywords).isSome then
    .error (.typeError (lit "got multiple values for argument"))
  else .ok {
    toolName := name
    first := (dictGet (lit "fn_or_first_arg") keywords).elim .missing .value
    rest := []
    kwargs := keywords.filter fun p => p.1 ∉ controlParameters
    costUsd := boundCost costAmount (dictGet (lit "cost_usd") keywords) }

/-- `context.call_tool(name, **arguments)` as the model asked for it. -/
def plainCall (name : Str) (arguments : List (Str × Json F)) : ToolCall F C :=
  ⟨name, .missing, [], keywordsOf arguments, none⟩

/-! ### The adapters -/

/-- What an adapter is given to execute. -/
inductive AdapterRequest (F : Type) where
  | openAI (toolCall : OpenAIToolCall F)
  | bedrock (event : BedrockEvent F)
  | langChain (action : AgentAction F)

namespace AdapterRequest

variable [PyBuiltins F]

/-- The name of the tool, and its input. -/
def parse : AdapterRequest F → Except PyExc (Str × Json F)
  | .openAI toolCall => do
    let parsed ← toolCall.parseCall
    return (parsed.1, .obj parsed.2)
  | .bedrock event => do
    let parsed ← event.parse
    return (parsed.1, .obj parsed.2)
  | .langChain action => action.parseAction

/-- The tool call that is made; LangChain passes an input that is no mapping as
the first argument. -/
def toolCall (costAmount : PyVal F → CostAmount) (request : AdapterRequest F) :
    Except PyExc (ToolCall F C) := do
  let parsed ← request.parse
  match parsed.2 with
  | .obj arguments => bindArguments costAmount parsed.1 (keywordsOf arguments)
  | input => return ⟨parsed.1, .value (.ofJson input), [], [], none⟩

/-- `execute`, or `aexecute`, by the call `i`. -/
def execute [DecidableEq C] (cfg : ContextConfig F W C J) (costAmount : PyVal F → CostAmount)
    (i : ℕ) (asyncMode : Bool) (request : AdapterRequest F) :
    Proc (ContextState F W C J) PyExc (ToolResult F) :=
  match request.toolCall costAmount with
  | .error e => .raise e
  | .ok call => cfg.toolCall i asyncMode call

end AdapterRequest

/-! ### What the calls note -/

open ContextState

/-- The call `i` notes `e` in a step. -/
def Noted (i : ℕ) (e : CallEvent F C) (s t : ContextState F W C J) : Prop :=
  ∃ events : List (CallEvent F C), t.trace = events.map (i, ·) ++ s.trace ∧ e ∈ events

/-- All that the call `i` notes in a step meets `P`. -/
def NotesOnly (i : ℕ) (P : CallEvent F C → Prop) (s t : ContextState F W C J) : Prop :=
  ∃ events : List (CallEvent F C), t.trace = events.map (i, ·) ++ s.trace ∧ ∀ e ∈ events, P e

theorem NotesOnly.of_noted {i : ℕ} {P : CallEvent F C → Prop} {e : CallEvent F C}
    {s t : ContextState F W C J} (h : NotesOnly i P s t) (he : Noted i e s t) : P e := by
  obtain ⟨events, htrace, hevents⟩ := h
  obtain ⟨events', htrace', hmem⟩ := he
  have hsame : events.map (fun e => (i, e)) = events'.map (fun e => (i, e)) :=
    List.append_cancel_right (htrace.symm.trans htrace')
  have hinjective : Function.Injective fun e : CallEvent F C => (i, e) :=
    fun _ _ h => (Prod.mk.inj h).2
  obtain rfl := List.map_injective_iff.mpr hinjective hsame
  exact hevents e hmem

namespace ContextConfig

variable (cfg : ContextConfig F W C J)

/-- What `call` can note: that it was called, and starts of the tool it resolves
to with its own arguments. -/
def OfCall [DecidableEq C] (call : ToolCall F C) : CallEvent F C → Prop
  | .called c => c = call
  | .invoked _ args kwargs =>
    (∃ tool, cfg.resolveTool call = .ok tool ∧ args = tool.args) ∧ kwargs = call.kwargs
  | _ => True

end ContextConfig

namespace ContextConfig

variable {cfg : ContextConfig F W C J} {i : ℕ} {call : ToolCall F C} {asyncMode : Bool}

theorem ofCall_told [DecidableEq C] {eventType : Str} {payload : PyDict F} :
    ∀ e ∈ cfg.told eventType payload, cfg.OfCall call e := forall_told trivial

section

variable [DecidableEq C] {e : CallEvent F C}

theorem ofCall_of_beforeRequest (h : BeforeRequest e) : cfg.OfCall call e := by
  cases e with
  | called | invoked => exact h.elim
  | _ => trivial

theorem ofCall_of_ofApproval (h : OfApproval e) : cfg.OfCall call e := by
  cases e with
  | called | invoked => exact h.elim
  | _ => trivial

theorem ofCall_called : ∀ e ∈ [(.called call : CallEvent F C)], cfg.OfCall call e := by
  intro e he
  rw [List.mem_singleton.mp he]
  rfl

end

variable [PyFloat F] [DecidableEq C] {r : Except PyExc (PreparedCall F W C)}
  {events before approval : List (CallEvent F C)} {prepared : PreparedCall F W C}
  {checkpoint : Option Checkpoint}

theorem Authorised.ofCall (h : cfg.Authorised call asyncMode before approval prepared checkpoint) :
    ∀ e ∈ cfg.upToCharge call before approval prepared, cfg.OfCall call e := by
  refine forall_append (forall_append (forall_append ?_ ofCall_told) ?_) ofCall_called
  · intro e he
    rcases List.mem_cons.mp he with rfl | he
    · trivial
    · exact ofCall_of_ofApproval (h.ofApproval e he)
  · exact fun e he => ofCall_of_beforeRequest (h.before e he)

theorem Preparation.ofCall (h : cfg.Preparation call asyncMode r events) :
    ∀ e ∈ events, cfg.OfCall call e := by
  cases h with
  | refused hbefore =>
    exact forall_append (fun e he => ofCall_of_beforeRequest (hbefore e he)) ofCall_called
  | unapproved hrequested hbefore happroval =>
    refine forall_append (forall_append (forall_append ?_ ofCall_told) ?_) ofCall_called
    · exact fun e he => ofCall_of_ofApproval (happroval e he)
    · exact fun e he => ofCall_of_beforeRequest (hbefore e he)
  | unheard h => exact forall_append ofCall_told h.ofCall
  | unstarted h => exact forall_append (forall_append ofCall_told ofCall_told) h.ofCall
  | prepared h => exact forall_append (forall_append ofCall_told ofCall_told) h.ofCall

theorem Preparation.called_mem (h : cfg.Preparation call asyncMode r events) :
    .called call ∈ events := by
  have hlast : ∀ more : List (CallEvent F C), .called call ∈ more ++ [.called call] :=
    fun more => List.mem_append_right more List.mem_cons_self
  cases h with
  | refused => exact hlast _
  | unapproved => exact hlast _
  | unheard => exact List.mem_append_right _ (hlast _)
  | unstarted => exact List.mem_append_right _ (hlast _)
  | prepared => exact List.mem_append_right _ (hlast _)

theorem Preparation.resolved (h : cfg.Preparation call asyncMode (.ok prepared) events) :
    cfg.resolveTool call = .ok prepared.toResolvedTool := by
  cases h with
  | prepared h => exact h.resolved

variable (cfg i) in
/-- The step that prepares a call. -/
theorem notesOnly_prepareCall (s : ContextState F W C J) :
    NotesOnly i (cfg.OfCall call) s (cfg.prepareCall i call asyncMode s).2 ∧
      ∀ prepared, (cfg.prepareCall i call asyncMode s).1 = .ok prepared →
        cfg.resolveTool call = .ok prepared.toResolvedTool := by
  obtain ⟨events, hnotes, hprep⟩ := logs_prepareCall cfg i call asyncMode s
  refine ⟨⟨events, hnotes.trace, hprep.ofCall⟩, fun prepared hok => ?_⟩
  rw [hok] at hprep
  exact hprep.resolved

omit [PyFloat F] in
theorem notesOnly_of_settling {s t : ContextState F W C J} (h : Settling s t) :
    NotesOnly i (cfg.OfCall call) s t :=
  ⟨[], h.trace, nofun⟩

omit [PyFloat F] in
theorem notesOnly_emitEnd (started : ℚ) (eventType : Str) (detail : Str × PyVal F)
    (s : ContextState F W C J) :
    NotesOnly i (cfg.OfCall call) s (cfg.emitEnd i prepared started eventType detail s).2 := by
  have hlogs : cfg.Logs i (fun _ events => ∀ e ∈ events, cfg.OfCall call e)
      (cfg.emitEnd i prepared started eventType detail) :=
    logs_onWorld_bind (fun _ => logs_emit fun _ => ofCall_told) fun _ => nofun
  obtain ⟨events, hnotes, hevents⟩ := hlogs s
  exact ⟨events, hnotes.trace, hevents⟩

variable (cfg i) in
/-- A call notes that it was called, and starts of the tool it resolves to. -/
theorem follows_toolCall (asyncMode : Bool) (s : ContextState F W C J) :
    Proc.Follows (fun _ _ => True) (NotesOnly i (cfg.OfCall call)) (cfg.toolCall i asyncMode call)
      s := by
  refine follows_layers (fun _ => trivial) (fun _ _ => notesOnly_of_settling)
    (fun s => (notesOnly_prepareCall cfg i s).1) (fun s prepared hok t => ?_)
    (fun _ _ _ started _ t => ⟨notesOnly_emitEnd started _ _ t, notesOnly_emitEnd started _ _ t⟩) s
  refine ⟨[.invoked prepared.handler prepared.args call.kwargs], rfl, fun e he => ?_⟩
  rw [List.mem_singleton.mp he]
  exact ⟨⟨_, (notesOnly_prepareCall cfg i s).2 prepared hok, rfl⟩, rfl⟩

/-- A call that is authorised starts its handler, if neither an idempotency
record nor a breaker stands before it. -/
theorem takes_invoked {found : ℕ → ContextState F W C J}
    (hprepares : (cfg.prepareCall i call asyncMode (found 0)).1 = .ok prepared)
    (hpolicy : prepared.spec.bind ToolSpec.idempotencyPolicy = none)
    (hbreaker : prepared.spec.bind ToolSpec.circuitBreaker = none) :
    (cfg.toolCall i asyncMode call).Takes
      (Noted i (.invoked prepared.handler prepared.args call.kwargs)) found 0 := by
  have hinvoked : ∀ (n : ℕ) (q : Proc W PyExc (ToolResult F)), Proc.Takes
      (Noted i (.invoked prepared.handler prepared.args call.kwargs)) found n
      (Proc.atomic (PyM.modify (note i (.invoked prepared.handler prepared.args call.kwargs))) >>=
        fun _ => (inWorld q : Proc (ContextState F W C J) PyExc (ToolResult F))) :=
    fun n q => Proc.takes_bind _ (Proc.takes_atomic ⟨_, rfl, List.mem_singleton_self _⟩)
  have hretried : ∀ (n : ℕ) (sleep : ℕ → PyM W Unit) (q : Proc W PyExc (ToolResult F)),
      Proc.Takes (Noted i (.invoked prepared.handler prepared.args call.kwargs)) found n
        (prepared.toResolvedTool.retried sleep (prepared.toResolvedTool.guarded
          (Proc.atomic (PyM.modify (note i (.invoked prepared.handler prepared.args call.kwargs)))
            >>= fun _ => inWorld q))) := by
    intro n sleep q
    simp only [ResolvedTool.guarded, hbreaker]
    unfold ResolvedTool.retried
    split
    · exact hinvoked n q
    · rename_i policy _
      -- there is at least one attempt
      obtain ⟨k, hk⟩ : ∃ k, policy.maxAttempts = k + 1 :=
        ⟨policy.maxAttempts - 1, (Nat.sub_add_cancel policy.maxAttempts_pos).symm⟩
      rw [retryCall, hk]
      exact Proc.takes_bind _ (Proc.takes_attempt (hinvoked n q))
  have hexecution : ∀ n, Proc.Takes
      (Noted i (.invoked prepared.handler prepared.args call.kwargs)) found n
      (cfg.execution i asyncMode prepared.toResolvedTool call.kwargs) := by
    intro n
    cases asyncMode with
    | true => exact hretried n _ _
    | false => exact Proc.takes_bind _ (hretried n _ _)
  have hreport : Proc.Takes
      (Noted i (.invoked prepared.handler prepared.args call.kwargs)) found 1
      (cfg.reportCall i prepared (cfg.execute prepared.toResolvedTool call.kwargs
        (cfg.execution i asyncMode prepared.toResolvedTool call.kwargs))) := by
    have hexecute : ∀ q : Proc (ContextState F W C J) PyExc (ToolResult F),
        cfg.execute prepared.toResolvedTool call.kwargs q = q := by
      intro q
      simp only [ContextConfig.execute, hpolicy]
    rw [hexecute]
    refine Proc.takes_step (.inr ⟨_, rfl, ?_⟩)
    exact Proc.takes_bind _ (Proc.takes_attempt (hexecution 2))
  cases asyncMode with
  | true => exact Proc.takes_step (.inr ⟨prepared, hprepares, hreport⟩)
  | false => exact Proc.takes_step (.inr ⟨prepared, hprepares, hreport⟩)

end ContextConfig

/-! ### Binding -/

section Binding

variable {name : Str} {arguments : List (Str × Json F)}

theorem dictGet_keywordsOf (k : Str) (hk : k ∈ controlParameters)
    (h : ∀ p ∈ arguments, p.1 ∉ controlParameters) : dictGet k (keywordsOf arguments) = none := by
  induction arguments with
  | nil => rfl
  | cons p rest ih =>
    have hne : p.1 ≠ k := fun heq => h p List.mem_cons_self (heq ▸ hk)
    exact (if_neg hne).trans (ih fun q hq => h q (List.mem_cons_of_mem p hq))

/-- Arguments with no name of a parameter reach the tool as they are. -/
theorem bindArguments_of_plain (costAmount : PyVal F → CostAmount)
    (h : ∀ p ∈ arguments, p.1 ∉ controlParameters) :
    bindArguments costAmount name (keywordsOf arguments) =
      .ok (plainCall name arguments : ToolCall F C) := by
  have hself := dictGet_keywordsOf (lit "self") (by decide) h
  have htool := dictGet_keywordsOf (lit "tool_name") (by decide) h
  have hfirst := dictGet_keywordsOf (lit "fn_or_first_arg") (by decide) h
  have hcost := dictGet_keywordsOf (lit "cost_usd") (by decide) h
  have hkept : (keywordsOf arguments).filter (fun p => p.1 ∉ controlParameters) =
      keywordsOf arguments := by
    refine List.filter_eq_self.mpr fun q hq => ?_
    obtain ⟨p, hp, rfl⟩ := List.mem_map.mp hq
    exact decide_eq_true (h p hp)
  rw [bindArguments, hself, htool, hfirst, hcost, hkept]
  rfl

/-- Only these do. -/
theorem plain_of_bindArguments {costAmount : PyVal F → CostAmount} {call : ToolCall F C}
    (hbind : bindArguments costAmount name (keywordsOf arguments) = .ok call)
    (hkwargs : call.kwargs = keywordsOf arguments) :
    ∀ p ∈ arguments, p.1 ∉ controlParameters := by
  unfold bindArguments at hbind
  split at hbind
  · cases hbind
  · obtain rfl := Except.ok.inj hbind
    intro p hp
    have hkept := List.filter_eq_self.mp hkwargs (p.1, .ofJson p.2) (List.mem_map_of_mem hp)
    exact of_decide_eq_true hkept

end Binding

/-! ### The adapters pass arguments through -/

section Adapters

variable [PyBuiltins F] [DecidableEq C]

/-- The tool is called with the arguments as its keyword arguments, no other
arguments and no cost; the handler is started with these only, and an
authorised call does start it. -/
structure PassesUnchanged (cfg : ContextConfig F W C J) (i : ℕ)
    (found : ℕ → ContextState F W C J) (asyncMode : Bool) (name : Str)
    (arguments : List (Str × Json F)) (p : Proc (ContextState F W C J) PyExc (ToolResult F)) :
    Prop where
  called : p.Takes (Noted i (.called (plainCall name arguments))) found 0
  invoked : ∀ handler args kwargs, p.Takes (Noted i (.invoked handler args kwargs)) found 0 →
    args = [] ∧ kwargs = keywordsOf arguments
  starts : ∀ prepared,
    (cfg.prepareCall i (plainCall name arguments) asyncMode (found 0)).1 = .ok prepared →
    prepared.spec.bind ToolSpec.idempotencyPolicy = none →
    prepared.spec.bind ToolSpec.circuitBreaker = none →
    p.Takes (Noted i (.invoked prepared.handler [] (keywordsOf arguments))) found 0

variable {cfg : ContextConfig F W C J} {i : ℕ} {found : ℕ → ContextState F W C J}
  {asyncMode : Bool} {name : Str} {arguments : List (Str × Json F)}
  {costAmount : PyVal F → CostAmount} {request : AdapterRequest F}

omit [PyBuiltins F] in
/-- A tool that is called without positional arguments gets none. -/
theorem args_of_plainCall {tool : ResolvedTool F W C}
    (h : cfg.resolveTool (plainCall name arguments) = .ok tool) : tool.args = [] := by
  unfold ContextConfig.resolveTool at h
  cases hregistered : cfg.registered (plainCall name arguments : ToolCall F C).toolName with
  | none =>
    rw [hregistered] at h
    change (if _ then Except.error _ else Except.error _) = Except.ok tool at h
    split at h
    · cases h
    · cases h
  | some spec =>
    rw [hregistered] at h
    obtain rfl := Except.ok.inj h
    rfl

theorem passesUnchanged_plainCall :
    PassesUnchanged cfg i found asyncMode name arguments
      (cfg.toolCall i asyncMode (plainCall name arguments)) where
  called := by
    obtain ⟨events, hnotes, hprep⟩ :=
      ContextConfig.logs_prepareCall cfg i (plainCall name arguments) asyncMode (found 0)
    have hnoted : Noted i (.called (plainCall name arguments)) (found 0)
        (cfg.prepareCall i (plainCall name arguments) asyncMode (found 0)).2 :=
      ⟨events, hnotes.trace, hprep.called_mem⟩
    cases asyncMode with
    | true => exact Proc.takes_step (.inl hnoted)
    | false => exact Proc.takes_step (.inl hnoted)
  invoked := by
    intro handler args kwargs htakes
    obtain ⟨s, t, hnotes, hnoted⟩ :=
      (ContextConfig.follows_toolCall cfg i asyncMode (found 0)).takes htakes
    obtain ⟨⟨tool, hresolved, rfl⟩, rfl⟩ := hnotes.of_noted hnoted
    exact ⟨args_of_plainCall hresolved, rfl⟩
  starts := by
    intro prepared hprepares hpolicy hbreaker
    have hresolved := (ContextConfig.notesOnly_prepareCall cfg i (found 0)).2 prepared
      hprepares
    have hinvoked := ContextConfig.takes_invoked hprepares hpolicy hbreaker
    rwa [args_of_plainCall hresolved] at hinvoked

/-- A request that is passed unchanged calls its tool with all its arguments. -/
theorem plain_of_passesUnchanged (hparse : request.parse = .ok (name, .obj arguments))
    (h : PassesUnchanged cfg i found asyncMode name arguments
      (request.execute cfg costAmount i asyncMode)) :
    ∀ p ∈ arguments, p.1 ∉ controlParameters := by
  have hcall : (request.toolCall costAmount : Except PyExc (ToolCall F C)) =
      bindArguments costAmount name (keywordsOf arguments) := by
    rw [AdapterRequest.toolCall, hparse]
    rfl
  have hcalled := h.called
  rw [AdapterRequest.execute, hcall] at hcalled
  cases hbind : (bindArguments costAmount name (keywordsOf arguments) :
      Except PyExc (ToolCall F C)) with
  | error e =>
    -- no call is made at all
    rw [hbind] at hcalled
    exact hcalled.elim
  | ok call =>
    rw [hbind] at hcalled
    obtain ⟨s, t, hnotes, hnoted⟩ :=
      (ContextConfig.follows_toolCall cfg i asyncMode (found 0)).takes hcalled
    have hsame : plainCall name arguments = call := hnotes.of_noted hnoted
    exact plain_of_bindArguments hbind (congrArg ToolCall.kwargs hsame.symm)

/-- The adapters pass the arguments through exactly if none of them bears the
name of a parameter of `call_tool`. -/
theorem passes_unchanged_iff (hparse : request.parse = .ok (name, .obj arguments)) :
    PassesUnchanged cfg i found asyncMode name arguments
        (request.execute cfg costAmount i asyncMode) ↔
      ∀ p ∈ arguments, p.1 ∉ controlParameters := by
  refine ⟨plain_of_passesUnchanged hparse, fun hplain => ?_⟩
  have hexecute : request.execute cfg costAmount i asyncMode =
      cfg.toolCall i asyncMode (plainCall name arguments) := by
    rw [AdapterRequest.execute, AdapterRequest.toolCall, hparse]
    show (match (bindArguments costAmount name (keywordsOf arguments) :
        Except PyExc (ToolCall F C)) with | .error e => _ | .ok call => _) = _
    rw [bindArguments_of_plain costAmount hplain]
  rw [hexecute]
  exact passesUnchanged_plainCall

end Adapters

/-- A model asks for a payment. -/
def payRequest (arguments : List (Str × Json Half)) : AdapterRequest Half :=
  .openAI (.mapping [(lit "name", .str (lit "pay")), (lit "arguments", .obj arguments)])

theorem parse_payRequest (arguments : List (Str × Json Half)) :
    (payRequest arguments).parse = .ok (lit "pay", .obj arguments) := rfl

/-- What `float` makes of an integer. -/
def wholeCost : PyVal Half → CostAmount
  | .int n => .number n
  | _ => .notNumeric

theorem passes_unchanged_amount :
    PassesUnchanged payContext 0 (fun _ => newContextState) false (lit "pay")
      [(lit "amount", .int 5)]
      ((payRequest [(lit "amount", .int 5)]).execute payContext wholeCost 0 false) :=
  (passes_unchanged_iff (parse_payRequest _)).mpr (by decide)

/-- A model that names an argument `cost_usd` chooses the cost of its call, and
the handler does not get the argument. -/
theorem cost_chosen_by_model :
    ((payRequest [(lit "cost_usd", .int 3)]).toolCall wholeCost : Except PyExc (ToolCall Half Bool)) =
        .ok ⟨lit "pay", .missing, [], [], some (.number 3)⟩ ∧
      ¬PassesUnchanged payContext 0 (fun _ => newContextState) false (lit "pay")
        [(lit "cost_usd", .int 3)]
        ((payRequest [(lit "cost_usd", .int 3)]).execute payContext wholeCost 0 false) := by
  refine ⟨rfl, fun h => ?_⟩
  have hplain := plain_of_passesUnchanged (parse_payRequest _) h
  exact hplain _ List.mem_cons_self (by decide)

end AgentRoi
