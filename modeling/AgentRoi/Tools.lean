/-
`agent_roi.runtime.tools`: what a registered tool is.

`C` are the callables of the process, told apart as Python tells objects apart,
and `W` is the world outside of the runtime.  A call of a handler is a program
on that world; so others take steps while it runs.

* `Callables` — what the runtime asks of a callable;
* `ToolSpec`, `ToolRegistry` — a tool as `__post_init__` leaves it, and the
  frozen registry;
* `ApprovalCallback`, `IdempotencyPolicy`, `BreakerRef` — what a tool or a
  context is configured with.
-/
import AgentRoi.ApprovalGrant
import AgentRoi.Guardrails
import AgentRoi.IdempotencyStore
import AgentRoi.Resilience

namespace AgentRoi

variable {F W C : Type}

/-- What a call yields; `typeName` is `type(result).__name__`. -/
structure ToolResult (F : Type) where
  value : PyVal F
  typeName : Str
  isAwaitable : Bool

/-- `module` and `qualname` are what `_callable_identity` reads. -/
structure Callables (F W C : Type) where
  module : C → PyVal F
  qualname : C → PyVal F
  isCoroutineFunction : C → Bool
  call : C → List (PyVal F) → PyDict F → Proc W PyExc (ToolResult F)

/-- A breaker, which of those in the process it is, and its clock. -/
structure BreakerRef (W : Type) where
  breaker : CircuitBreaker
  id : ℕ
  clock : PyM W Binary64

/-- `keyFactory` is followed by `str`; `store` is which of those in the process
it is. -/
structure IdempotencyPolicy (F W : Type) where
  store : ℕ
  namesp : Str
  keyFactory : List (PyVal F) → PyDict F → PyM W Str
  ttlSeconds : ℕ
  namesp_not_blank : isBlank namesp = false
  ttlSeconds_pos : 1 ≤ ttlSeconds

structure ToolSpec (F W C : Type) where
  name : Str
  handler : C
  risk : Str
  requiresApproval : Bool
  defaultCostUsd : ℚ
  version : Str
  approvalTtlSeconds : ℕ
  costEstimator : Option (List (PyVal F) → PyDict F → PyM W CostAmount)
  timeoutSeconds : Option ℚ
  retryPolicy : Option (RetryPolicy W)
  circuitBreaker : Option (BreakerRef W)
  idempotencyPolicy : Option (IdempotencyPolicy F W)
  name_not_blank : isBlank name = false
  name_strip : strip name = name
  defaultCostUsd_nonneg : 0 ≤ defaultCostUsd
  approvalTtlSeconds_pos : 1 ≤ approvalTtlSeconds

/-- The tools of a frozen registry, by their names. -/
structure ToolRegistry (F W C : Type) where
  get : Str → Option (ToolSpec F W C)
  name_of_get : ∀ name spec, get name = some spec → spec.name = name

/-- What a callback answers: a grant, `True`, or anything else. -/
inductive ApprovalAnswer where
  | grant (grant : ApprovalGrant)
  | approved
  | refused

/-- `supportsCheckpoint` is what `inspect.signature` tells of the callback,
which is then given the checkpoint. -/
structure ApprovalCallback (F W C : Type) where
  supportsCheckpoint : Bool
  call : ToolSpec F W C → List (PyVal F) → PyDict F → Option Checkpoint → PyM W ApprovalAnswer

/-- `fn_or_first_arg`. -/
inductive FirstArg (F C : Type) where
  | missing
  | callable (fn : C)
  | value (v : PyVal F)

/-- The arguments of `call_tool` and `acall_tool`. -/
structure ToolCall (F C : Type) where
  toolName : Str
  first : FirstArg F C
  rest : List (PyVal F)
  kwargs : PyDict F
  costUsd : Option CostAmount

end AgentRoi
