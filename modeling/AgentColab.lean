import AgentColab.Events.Memory
import AgentColab.Schedules.VersionChange
import AgentColab.Approvals.Bounded
import AgentColab.Verification.Rebuild
import AgentColab.Outbox.Progress
import AgentColab.Outbox.Mattermost
import AgentColab.Outbox.OneSend
import AgentColab.Schedules.Leftovers
import AgentColab.Verdicts.Separation
import AgentColab.Secrets.Cleanup
import AgentColab.Secrets.Feed
import AgentColab.Bridge.Threads
import AgentColab.Brainstorm.Holder
import AgentColab.Secrets.Wiped
import AgentColab.BreakGlass.Endings
import AgentColab.Identity.Guessing
import AgentColab.Artifacts.Held
import AgentColab.Documents.Stuck
import AgentColab.Documents.Agreement
import AgentColab.Documents.Once
import AgentColab.Rerouting.Follows
import AgentColab.Documents.Disclosure
import AgentColab.Documents.Freeze
import AgentColab.Documents.Narrated
import AgentColab.Usage.Settlement
import AgentColab.Usage.Oversubscription
import AgentColab.Ledger.Convergence
import AgentColab.Retention.Holds
import AgentColab.Notifications.Lossless
import AgentColab.Notifications.QuietHours
import AgentColab.Agents.Admission
import AgentColab.Agents.Webhook
import AgentColab.HardDelete.AllOrNothing
import AgentColab.Verdicts.Snapshot
import AgentColab.Schedules.Next
import AgentColab.Schedules.RunNow
import AgentColab.Schedules.Accepted
import AgentColab.Schedules.Interval
import AgentColab.Verification.Cancelling
import AgentColab.Work.Answers
import AgentColab.Tasks.Joins
import AgentColab.Observability.Redaction
import AgentColab.Brainstorm.Retries
import AgentColab.Policy.Decisions
import AgentColab.Events.Stored
import AgentColab.Events.Injective
import AgentColab.Artifacts.Scan
import AgentColab.Artifacts.Upload
import AgentColab.Secrets.Ceiling
import AgentColab.Secrets.GrantEvents
import AgentColab.Identity.RateLimit
import AgentColab.Settings.Registry
