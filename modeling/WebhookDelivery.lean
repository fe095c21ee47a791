import WebhookDelivery.Library.Discipline
import WebhookDelivery.System
import WebhookDelivery.Footprints
import WebhookDelivery.Places
import WebhookDelivery.Processes
import WebhookDelivery.Fencing
import WebhookDelivery.Recovery
import WebhookDelivery.DeadLetters
import WebhookDelivery.Budget
import WebhookDelivery.Success
import WebhookDelivery.Breaker
import WebhookDelivery.ClockSkew
import WebhookDelivery.Leadership
import WebhookDelivery.Agreement
import WebhookDelivery.AuditTrail
import WebhookDelivery.Schedule
import WebhookDelivery.Stores
import WebhookDelivery.OnePlace
import WebhookDelivery.Wedges
import WebhookDelivery.Admission
import WebhookDelivery.CutReplays
import WebhookDelivery.RetryExactness
import WebhookDelivery.TenantIsolation
import WebhookDelivery.LimiterRange
import WebhookDelivery.Cooldowns
import WebhookDelivery.DlqListing
import WebhookDelivery.Deferrals
import WebhookDelivery.Waits
import WebhookDelivery.AttemptNumbers
import WebhookDelivery.SlotOwners
import WebhookDelivery.MigrationOrder
import WebhookDelivery.Dashboard
import WebhookDelivery.ServiceOrder
import WebhookDelivery.SentRequests
import WebhookDelivery.Provenance
import WebhookDelivery.Pacing
import WebhookDelivery.Lifecycle
import WebhookDelivery.Deliverability
import WebhookDelivery.MigrationProgress
import WebhookDelivery.OpenBreaker
import WebhookDelivery.Verdicts
import WebhookDelivery.Deletions
import WebhookDelivery.Sweeps
import WebhookDelivery.Secrecy
import WebhookDelivery.Failover
import WebhookDelivery.WindingDown
