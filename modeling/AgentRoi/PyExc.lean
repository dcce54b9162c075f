/-
The exceptions of the package, with the texts the source gives them.

`PyExc.other` is any exception raised by code outside the package: its class
name, the text `str(exc)` yields (none when `__str__` itself raises) and
whether the class derives from `Exception`.  Cancellation, `KeyboardInterrupt`
and `SystemExit` derive from `BaseException` only.
-/
import AgentRoi.PyStr
import Mathlib.Data.Rat.Defs

namespace AgentRoi

/-- The dictionary `SentinelContext._approval_checkpoint` returns. -/
structure Checkpoint where
  checkpointId : Str
  correlationId : Str
  runId : Str
  toolName : Str
  toolVersion : Str
  risk : Str
  estimatedCostUsd : ℚ
  actionDigest : Str
  policyDigest : Str
  argumentsDigest : Str
  createdAtEpochMs : Int
  expiresAtEpochMs : Int
  principalSubject : Str
  organizationId : Str
  environment : Str
  agentId : Str
  deriving DecidableEq

inductive PyExc where
  | auditIntegrityError (message : Str)
  | guardrailViolation (message : Str)
  | humanApprovalRequired (checkpoint : Checkpoint)
  | circuitOpenError (message : Str)
  | idempotencyConflict (message : Str)
  | idempotencyInProgress (message : Str)
  | valueError (message : Str)
  | typeError (message : Str)
  | runtimeError (message : Str)
  | permissionError (message : Str)
  | keyError (key : List Str)
  | unicodeEncodeError
  | overflowError
  | integrityError
  | httpException (status : Nat) (detail : Str)
  | other (className : Str) (text : Option Str) (isException : Bool)
  deriving DecidableEq

def attributeError : PyExc := .other (lit "AttributeError") (some []) true

namespace PyExc

/-- `isinstance(exc, Exception)`. -/
def isException : PyExc → Bool
  | .other _ _ isException => isException
  | _ => true

/-- `type(exc).__name__`. -/
def className : PyExc → Str
  | .auditIntegrityError _ => lit "AuditIntegrityError"
  | .guardrailViolation _ => lit "GuardrailViolation"
  | .humanApprovalRequired _ => lit "HumanApprovalRequired"
  | .circuitOpenError _ => lit "CircuitOpenError"
  | .idempotencyConflict _ => lit "IdempotencyConflict"
  | .idempotencyInProgress _ => lit "IdempotencyInProgress"
  | .valueError _ => lit "ValueError"
  | .typeError _ => lit "TypeError"
  | .runtimeError _ => lit "RuntimeError"
  | .permissionError _ => lit "PermissionError"
  | .keyError _ => lit "KeyError"
  | .unicodeEncodeError => lit "UnicodeEncodeError"
  | .overflowError => lit "OverflowError"
  | .integrityError => lit "IntegrityError"
  | .httpException _ _ => lit "HTTPException"
  | .other className _ _ => className

/-- `str(exc)`; none when `__str__` raises.  The texts Python's own library
gives its errors are not modelled. -/
def text : PyExc → Option Str
  | .auditIntegrityError m | .guardrailViolation m | .circuitOpenError m
  | .idempotencyConflict m | .idempotencyInProgress m | .valueError m | .typeError m
  | .runtimeError m | .permissionError m => some m
  | .humanApprovalRequired c =>
    some (lit "Human approval is required before executing tool '" ++ c.toolName ++ lit "'")
  | .keyError key => some (key.flatMap id)
  | .unicodeEncodeError | .overflowError | .integrityError => some []
  | .httpException status detail => some (natDigits status ++ lit ": " ++ detail)
  | .other _ text _ => text

end PyExc

end AgentRoi
