import CoreUtils.AiRules.Selection
import CoreUtils.AiRules.Sync
import CoreUtils.Clearance.Allowlist
import CoreUtils.Clearance.Config
import CoreUtils.Clearance.ConnectTarget
import CoreUtils.Clearance.Egress
import CoreUtils.Clearance.EgressSafety
import CoreUtils.Clearance.HeaderForwarding
import CoreUtils.Clearance.HostForm
import CoreUtils.Clearance.HostRule
import CoreUtils.Clearance.Launcher
import CoreUtils.Clearance.Restart
import CoreUtils.Clearance.RuleForm
import CoreUtils.Clearance.RuleIdempotence
import CoreUtils.Clearance.Server
import CoreUtils.Clearance.ServerSafety
import CoreUtils.Config.Resolver
import CoreUtils.Embedex.Classification
import CoreUtils.Embedex.CodeFences
import CoreUtils.Embedex.Command
import CoreUtils.Embedex.CommentEscape
import CoreUtils.Embedex.CommentSafety
import CoreUtils.Embedex.CycleDetection
import CoreUtils.Embedex.DependencyGraph
import CoreUtils.Embedex.Embed
import CoreUtils.Embedex.EscapedTags
import CoreUtils.Embedex.InPlace
import CoreUtils.Embedex.Lines
import CoreUtils.Embedex.Ordering
import CoreUtils.Embedex.Replacement
import CoreUtils.Embedex.Rescan
import CoreUtils.Embedex.SecondRun
import CoreUtils.Embedex.Settling
import CoreUtils.Embedex.Tags
import CoreUtils.Embedex.TopologicalOrder
import CoreUtils.Embedex.Types
import CoreUtils.ExecutionContext.ContextStore
import CoreUtils.FlakeLinter.Dependencies
import CoreUtils.FlakeLinter.DependencyClosure
import CoreUtils.FlakeLinter.Findings
import CoreUtils.FlakeLinter.Linter
import CoreUtils.FlakeLinter.Project
import CoreUtils.FlakeLinter.Syntax
import CoreUtils.FlakeLinter.Violations
import CoreUtils.JsonApi.Query
import CoreUtils.JsonApi.QueryFilter
import CoreUtils.JsonApi.QueryRoundTrip
import CoreUtils.JsonApi.ServerQuery
import CoreUtils.JsonApi.ServerRoundTrip
import CoreUtils.Library.Backtracking
import CoreUtils.Library.ByteLayout
import CoreUtils.Library.Dates
import CoreUtils.Library.DirectedGraph
import CoreUtils.Library.Fuel
import CoreUtils.Library.GreedyFill
import CoreUtils.Library.HexText
import CoreUtils.Library.IpAddress
import CoreUtils.Library.IpText
import CoreUtils.Library.Json
import CoreUtils.Library.JsonSchema
import CoreUtils.Library.JsonText
import CoreUtils.Library.KeyedFold
import CoreUtils.Library.LowerCase
import CoreUtils.Library.NumericText
import CoreUtils.Library.ObjectLiteral
import CoreUtils.Library.OrderedMap
import CoreUtils.Library.Outline
import CoreUtils.Library.PatternReplace
import CoreUtils.Library.PercentEncoding
import CoreUtils.Library.PriorityBuffer
import CoreUtils.Library.QuotedText
import CoreUtils.Library.ReplaceAll
import CoreUtils.Library.RoseTree
import CoreUtils.Library.Selection
import CoreUtils.Library.SetMap
import CoreUtils.Library.StateExcept
import CoreUtils.Library.Tally
import CoreUtils.Library.Text
import CoreUtils.Library.Transition
import CoreUtils.Library.Utf16
import CoreUtils.Library.Utf8
import CoreUtils.Library.WorkerPool
import CoreUtils.Library.Worklist
import CoreUtils.Notifications.IdempotencyKey
import CoreUtils.Notifications.JobEnqueuer
import CoreUtils.Notifications.PushTokens
import CoreUtils.Notifications.Redact
import CoreUtils.Notifications.TriggerBody
import CoreUtils.Notifications.TriggerChunked
import CoreUtils.Notifications.TriggerDelivery
import CoreUtils.Reporter.ActionDiagnostics
import CoreUtils.Reporter.AttemptResult
import CoreUtils.Reporter.AttemptTimeline
import CoreUtils.Reporter.ClientLifecycleAttaching
import CoreUtils.Reporter.ClientLifecycleAttachment
import CoreUtils.Reporter.ClientLifecycleContract
import CoreUtils.Reporter.ClientLifecycleJoin
import CoreUtils.Reporter.ClientLifecyclePriority
import CoreUtils.Reporter.ClientLifecycleRoundTrip
import CoreUtils.Reporter.ClientLifecycleSanitization
import CoreUtils.Reporter.ClientLifecycleSchema
import CoreUtils.Reporter.ConsoleRetention
import CoreUtils.Reporter.LlmReporter
import CoreUtils.Reporter.LlmReporterRuns
import CoreUtils.Reporter.NetworkAdmission
import CoreUtils.Reporter.NetworkBodies
import CoreUtils.Reporter.NetworkBodySharing
import CoreUtils.Reporter.NetworkBuilder
import CoreUtils.Reporter.NetworkCaps
import CoreUtils.Reporter.NetworkCommit
import CoreUtils.Reporter.NetworkCounting
import CoreUtils.Reporter.NetworkEviction
import CoreUtils.Reporter.NetworkFinalize
import CoreUtils.Reporter.NetworkGroups
import CoreUtils.Reporter.NetworkIntegrity
import CoreUtils.Reporter.NetworkInvariant
import CoreUtils.Reporter.NetworkObservation
import CoreUtils.Reporter.NetworkOffsets
import CoreUtils.Reporter.NetworkOrigin
import CoreUtils.Reporter.NetworkPriority
import CoreUtils.Reporter.NetworkProcessing
import CoreUtils.Reporter.NetworkRedirects
import CoreUtils.Reporter.NetworkRetention
import CoreUtils.Reporter.NetworkSampling
import CoreUtils.Reporter.ReportMachine
import CoreUtils.Reporter.StaticAssetFilter
import CoreUtils.Reporter.TextProcessing
import CoreUtils.Reporter.TraceConfidentiality
import CoreUtils.Reporter.TraceCorrelation
import CoreUtils.Reporter.TraceDiagnostics
import CoreUtils.Reporter.Traceparent
import CoreUtils.Reporter.ZipArchive
import CoreUtils.Reporter.ZipFormat
import CoreUtils.Reporter.ZipRecovery
import CoreUtils.Reporter.ZipSafety
import CoreUtils.RulesEngine.Rules
import CoreUtils.Toolkit.AdminAuthTokenCache
import CoreUtils.Toolkit.AdminAuthTokenEntry
import CoreUtils.Toolkit.AdminAuthTokenExclusive
import CoreUtils.Toolkit.AdminAuthTokenFreshness
import CoreUtils.Toolkit.AdminAuthTokenLock
import CoreUtils.Toolkit.AdminAuthTokenLockExclusion
import CoreUtils.Toolkit.AdminAuthTokenLockInvariant
import CoreUtils.Toolkit.AdminAuthTokenRefresh
import CoreUtils.Toolkit.CognitoAddresses
import CoreUtils.Toolkit.CognitoDiagnostics
import CoreUtils.Toolkit.DeployedAssets
import CoreUtils.Toolkit.DeployedAssetsPool
import CoreUtils.Toolkit.DeployedAssetsWait
import CoreUtils.Toolkit.Mailpit
import CoreUtils.Toolkit.MailpitPolling
import CoreUtils.Toolkit.Retry
import CoreUtils.Toolkit.RetryCause
import CoreUtils.Toolkit.RetryClassified
import CoreUtils.Toolkit.RetryPoll
import CoreUtils.Toolkit.RetrySteps
import CoreUtils.Toolkit.Traceparent
import CoreUtils.UtilTs.Chunk
import CoreUtils.UtilTs.DeepFreeze
import CoreUtils.UtilTs.ServiceError
import CoreUtils.UtilTs.ServiceErrorJsonApi
