import WebhookIngestion.Library.Tables
import WebhookIngestion.Library.Programs
import WebhookIngestion.Library.Lifecycle
import WebhookIngestion.Library.Interleaving
import WebhookIngestion.Json
import WebhookIngestion.Canonical
import WebhookIngestion.Text
import WebhookIngestion.TracedEvents
import WebhookIngestion.Runtime
import WebhookIngestion.Parsers
import WebhookIngestion.Normalizer
import WebhookIngestion.Store
import WebhookIngestion.StateMachine
import WebhookIngestion.ApplyPaths
import WebhookIngestion.EntityLedger
import WebhookIngestion.ApplyRuns
import WebhookIngestion.Convergence
import WebhookIngestion.Sessions
import WebhookIngestion.Hashing
import WebhookIngestion.SchemaDiscoverer
import WebhookIngestion.LLMUniversal
import WebhookIngestion.LearnedSchemas
import WebhookIngestion.SchemaDriven
import WebhookIngestion.Database
import WebhookIngestion.Fallback
import WebhookIngestion.BudgetSafety
import WebhookIngestion.Pipeline
import WebhookIngestion.Receiver
import WebhookIngestion.Library.Runs
import WebhookIngestion.Asking
import WebhookIngestion.WorkerSteps
import WebhookIngestion.Deliveries
import WebhookIngestion.Compaction
import WebhookIngestion.ConcurrentAppliers
import WebhookIngestion.ServiceRuns
import WebhookIngestion.Reprocessing
import WebhookIngestion.Signatures
import WebhookIngestion.Lessons
import WebhookIngestion.Library.Concurrent
import WebhookIngestion.Library.Costs
import WebhookIngestion.ServiceTasks
import WebhookIngestion.References
import WebhookIngestion.ConcurrentDeliveries
import WebhookIngestion.EventTypeMappings
import WebhookIngestion.UsableMappings
import WebhookIngestion.AppliedClassifications
import WebhookIngestion.FallbackRuns
import WebhookIngestion.SureDrafts
import WebhookIngestion.ReplayCommand
import WebhookIngestion.Replays
import WebhookIngestion.Fingerprints
import WebhookIngestion.Decimals
import WebhookIngestion.Library.Delimited
import WebhookIngestion.Places
import WebhookIngestion.DiscoveredPaths
import WebhookIngestion.InterchangeableShapes
import WebhookIngestion.CanonicalJson
import WebhookIngestion.HashedKeys
import WebhookIngestion.MoneyRoundTrip
import WebhookIngestion.AmountTexts
import WebhookIngestion.Library.Calendar
import WebhookIngestion.DayFirst
import WebhookIngestion.FencedAnswers
import WebhookIngestion.EventTypeAnswers
import WebhookIngestion.ProjectionReady
import WebhookIngestion.Acknowledgements
import WebhookIngestion.ExtractionFailures
import WebhookIngestion.FailureReports
import WebhookIngestion.CuratedSchemas
import WebhookIngestion.DocumentedPaths
import WebhookIngestion.Library.Crashes
import WebhookIngestion.Migrations
import WebhookIngestion.ReviewQueue
import WebhookIngestion.SchemaIdentity
import WebhookIngestion.LearnOnce
import WebhookIngestion.NormalForm
import WebhookIngestion.ServedRows
import WebhookIngestion.Effort
import WebhookIngestion.JobEndings
import WebhookIngestion.LearnedRows
import WebhookIngestion.Provenance
import WebhookIngestion.Constraints
