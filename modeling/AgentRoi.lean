import AgentRoi.AuditAppend
import AgentRoi.AuditExport
import AgentRoi.TamperEvidence
import AgentRoi.IdempotencyProvenance
import AgentRoi.ApprovalSession
import AgentRoi.ApprovalDecisions
import AgentRoi.ApprovalConsumption
import AgentRoi.ApprovalFailure
import AgentRoi.OutboxProcesses
import AgentRoi.OutboxDelivery
import AgentRoi.FanOut
import AgentRoi.CircuitReference
import AgentRoi.RetryCalls
import AgentRoi.PolicyRollout
import AgentRoi.PolicyLoader
import AgentRoi.JsonbHashes
import AgentRoi.RoiSummary
import AgentRoi.ControlPlaneClients
import AgentRoi.RoiCosts
import AgentRoi.RoiHistory
import AgentRoi.RoiRecording
import AgentRoi.Redaction
import AgentRoi.CanonicalJson
import AgentRoi.SqlLexemes
import AgentRoi.ToolBudget
import AgentRoi.PolicyUse
import AgentRoi.Migrations
import AgentRoi.RecordedActors
import AgentRoi.TenantIsolation
import AgentRoi.ScimDictionaries
import AgentRoi.DirectoryListings
import AgentRoi.DecisionPolicy
import AgentRoi.DuplicateInvoices
import AgentRoi.RecoverableValue
import AgentRoi.ApprovalRouting
import AgentRoi.ControlledHttp
import AgentRoi.CacheFallback
import AgentRoi.CanaryRollout
import AgentRoi.WorkerPass
import AgentRoi.PayloadBinding
import AgentRoi.OrganizationScope
import AgentRoi.ScimCreation
import AgentRoi.IsoOrder
import AgentRoi.ScimRoundTrip
import AgentRoi.CallAgreement
import AgentRoi.RecordSettling
import AgentRoi.ToolTraces
import AgentRoi.Adapters
import AgentRoi.RunFraming
import AgentRoi.RunTelemetry
import AgentRoi.CostTelemetry
import AgentRoi.RunRedaction
import AgentRoi.RemoteAuditRuns
import AgentRoi.RoleHistory
import AgentRoi.EffectsOnce
import AgentRoi.AccessHistory
import AgentRoi.PolicyOutages
