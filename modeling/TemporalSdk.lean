import TemporalSdk.Workflow.Isolation
import TemporalSdk.Workflow.ReplayScheduling
import TemporalSdk.Workflow.Patches
import TemporalSdk.Workflow.EventGroups
import TemporalSdk.Activation.Responses
import TemporalSdk.Activation.TaskErrors
import TemporalSdk.Workflow.Flags
import TemporalSdk.Workflow.ScopeTree
import TemporalSdk.Workflow.ConditionRace
import TemporalSdk.Worker.HeartbeatLog
import TemporalSdk.Codec.Agreement
import TemporalSdk.Worker.ActivityContexts
import TemporalSdk.Workflow.RandomStreams
import TemporalSdk.Worker.LogCollector
import TemporalSdk.Worker.HeartbeatCounter
import TemporalSdk.Worker.ThreadClients
import TemporalSdk.Worker.ActivityTasks
import TemporalSdk.Worker.NexusTasks
import TemporalSdk.Worker.WorkflowCache
import TemporalSdk.Worker.RuntimeLifetime
import TemporalSdk.Storage.Transparency
import TemporalSdk.Storage.RoundTrip
import TemporalSdk.Visits.Coverage
import TemporalSdk.Failures.Repeated
import TemporalSdk.Failures.Overrides
import TemporalSdk.Failures.PayloadCodecs
import TemporalSdk.Plugin.Additions
import TemporalSdk.Worker.WorkerLifecycle
import TemporalSdk.Activation.Queries
import TemporalSdk.Client.Updates
import TemporalSdk.Client.Retries
import TemporalSdk.Streams.WireRoundTrip
import TemporalSdk.Streams.Conformance
import TemporalSdk.Streams.EndToEnd
import TemporalSdk.Nexus.TemporalNexusClient
import TemporalSdk.Client.UpdateWithStart
import TemporalSdk.Schedules.UpdateUnchanged
import TemporalSdk.Worker.MetricTags
import TemporalSdk.Client.CallMetadata
import TemporalSdk.Nexus.SystemEnvelope
import TemporalSdk.Worker.WorkerLimits
import TemporalSdk.Worker.HistoryJson
import TemporalSdk.Schedules.Timestamps
import TemporalSdk.Storage.OperationMetrics
import TemporalSdk.Workflow.TypedAttributes
import TemporalSdk.Client.ParseHostUri
import TemporalSdk.Nexus.OperationTokens
import TemporalSdk.Client.InstrumentAsyncIterable
import TemporalSdk.EnvConfig.Overrides
import TemporalSdk.Storage.InMemoryPayloadCache
import TemporalSdk.Concurrency.Limit
