/-
`ApprovalGrant` of `agent_roi.runtime.tools`: an approval bound to one action.

* `ApprovalGrant` — a grant carries the checks of `__post_init__`: a SHA-256
  digest in hexadecimal, an approver without surrounding whitespace;
* `ApprovalGrant.create` — the constructor, `create_eq_ok` what it yields;
* `ApprovalGrant.validate` — the test against a checkpoint, at a time.
-/
import AgentRoi.PyM

namespace AgentRoi

/-- `character in "0123456789abcdefABCDEF"`. -/
def isHexDigit (c : Nat) : Bool :=
  (48 ≤ c && c ≤ 57) || (97 ≤ c && c ≤ 102) || (65 ≤ c && c ≤ 70)

/-- The shape `ApprovalGrant` requires of an action digest. -/
def isSha256Hex (digest : Str) : Bool := digest.length == 64 && digest.all isHexDigit

structure ApprovalGrant where
  actionDigest : Str
  approvedBy : Str
  expiresAtEpochMs : Int
  checkpointId : Option Str
  reason : Str
  digest_hex : isSha256Hex actionDigest = true
  approvedBy_ne : approvedBy ≠ []
  approvedBy_strip : strip approvedBy = approvedBy
  deriving DecidableEq

namespace ApprovalGrant

def create (actionDigest approvedBy : Str) (expiresAtEpochMs : Int) (checkpointId : Option Str)
    (reason : Str) : Except PyExc ApprovalGrant :=
  if hd : isSha256Hex actionDigest then
    if hb : strip approvedBy = [] then
      .error (.valueError (lit "approved_by must be a non-empty string"))
    else .ok ⟨actionDigest, strip approvedBy, expiresAtEpochMs, checkpointId, reason, hd, hb,
      strip_strip approvedBy⟩
  else .error (.valueError (lit "action_digest must be a SHA-256 hex digest"))

theorem create_eq_ok {actionDigest approvedBy : Str} {expiresAtEpochMs : Int}
    {checkpointId : Option Str} {reason : Str} {grant : ApprovalGrant}
    (h : create actionDigest approvedBy expiresAtEpochMs checkpointId reason = .ok grant) :
    grant.actionDigest = actionDigest ∧ grant.approvedBy = strip approvedBy ∧
      grant.expiresAtEpochMs = expiresAtEpochMs ∧ grant.checkpointId = checkpointId ∧
      grant.reason = reason := by
  unfold create at h
  split_ifs at h
  cases h
  exact ⟨rfl, rfl, rfl, rfl, rfl⟩

/-- `validate(checkpoint)` at the time `nowMs`. -/
def validate (grant : ApprovalGrant) (checkpoint : Checkpoint) (nowMs : Int) :
    Except PyExc Unit :=
  if grant.actionDigest ≠ checkpoint.actionDigest then
    .error (.valueError (lit "Approval grant does not match the requested action"))
  else if ∃ c ∈ grant.checkpointId, c ≠ [] ∧ c ≠ checkpoint.checkpointId then
    .error (.valueError (lit "Approval grant does not match the checkpoint"))
  else if grant.expiresAtEpochMs < nowMs then
    .error (.valueError (lit "Approval grant has expired"))
  else .ok ()

theorem validate_eq_ok_iff {grant : ApprovalGrant} {checkpoint : Checkpoint} {nowMs : Int} :
    grant.validate checkpoint nowMs = .ok () ↔ grant.actionDigest = checkpoint.actionDigest ∧
      (∀ c ∈ grant.checkpointId, c ≠ [] → c = checkpoint.checkpointId) ∧
      nowMs ≤ grant.expiresAtEpochMs := by
  unfold validate
  split_ifs with hd hc he
  · exact ⟨nofun, fun h => absurd h.1 hd⟩
  · obtain ⟨c, hmem, hne, hcp⟩ := hc
    exact ⟨nofun, fun h => absurd (h.2.1 c hmem hne) hcp⟩
  · exact ⟨nofun, fun h => absurd h.2.2 (not_le.mpr he)⟩
  · refine ⟨fun _ => ⟨not_not.mp hd, ?_, not_lt.mp he⟩, fun _ => rfl⟩
    intro c hmem hne
    by_contra hcp
    exact hc ⟨c, hmem, hne, hcp⟩

end ApprovalGrant

end AgentRoi
