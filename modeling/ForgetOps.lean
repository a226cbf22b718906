import ForgetOps.Domain.Approval
import ForgetOps.Domain.Identity
import ForgetOps.Domain.Completion
import ForgetOps.Domain.Atomicity
import ForgetOps.Database.ChainHead
import ForgetOps.Database.Accounting
import ForgetOps.Database.SaveFrame
import ForgetOps.Database.IdempotencyProtocol
import ForgetOps.Signer.RecordedAuthorization
import ForgetOps.Agent.AuthorizationAgreement
import ForgetOps.Agent.LeaseWindow
import ForgetOps.Api.EnvelopeDestruction
import ForgetOps.Api.ExecutionPlans
import ForgetOps.Sdk.AdapterReplay
import ForgetOps.Sdk.ExportAgreement
import ForgetOps.Sdk.RequestAgreement
import ForgetOps.Supabase.EraseCompleteness
import ForgetOps.Supabase.DuplicateSubjects
import ForgetOps.Web.EnvelopeRoundTrip
import ForgetOps.Agent.ExactClock
import ForgetOps.Agent.LenientClock
import ForgetOps.Agent.Scheduling
import ForgetOps.Supabase.ExportAssembly
import ForgetOps.Sdk.NonceCrashes
import ForgetOps.Worker.WebhookRequests
import ForgetOps.Api.InMemoryPairingRuns
import ForgetOps.Api.MagicLinks
import ForgetOps.Agent.ArchiveTruncation
import ForgetOps.Agent.DeliveryDeduplicator
import ForgetOps.Agent.StepIsolation
import ForgetOps.Api.PortalCapabilities
import ForgetOps.Api.ProjectLimit
import ForgetOps.Api.SocketCleanup
import ForgetOps.Api.DuplicateOrder
import ForgetOps.Agent.EncryptedRunner
import ForgetOps.Agent.IdentityAgreement
import ForgetOps.Supabase.SharedErasure
import ForgetOps.Agent.ControlMessages
import ForgetOps.Agent.ConnectionLoop
import ForgetOps.Agent.KeyWrap
