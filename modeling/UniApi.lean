import UniApi.Admission.MemoryGovernor
import UniApi.Admission.IdleLanes
import UniApi.Admission.BoundedGate
import UniApi.Streaming.Accounting
import UniApi.Streaming.SseSplit
import UniApi.Streaming.SseRoundTrip
import UniApi.Streaming.DeltaBypass
import UniApi.CrossPlane.SseEvents
import UniApi.Front.TerminalFrame
import UniApi.Front.Capture
import UniApi.CrossPlane.StatusRemap
import UniApi.CrossPlane.EventClass
import UniApi.CrossPlane.FailureStatus
import UniApi.CrossPlane.Overrides
import UniApi.CrossPlane.Timeouts
import UniApi.Middleware.BodyReading
import UniApi.CrossPlane.Circuit
import UniApi.Front.ModelTimeout
import UniApi.Upstream.Keepalive
import UniApi.Auth.CodexOAuth
import UniApi.Upstream.ClientPool
import UniApi.Routing.Advertised
import UniApi.Routing.Plan
import UniApi.CrossPlane.RateLimit
import UniApi.Front.Cooldowns
import UniApi.CrossPlane.ItemIds
import UniApi.Admission.NetworkGovernor
import UniApi.Front.RequestSpool
import UniApi.Admission.CpuPhase
import UniApi.Routing.WeightedOrder
import UniApi.Routing.Breaker
import UniApi.RateLimit.KeyPool
import UniApi.Providers.AwsSignature
import UniApi.Middleware.ReplaySpool
import UniApi.CrossPlane.WaitHints
import UniApi.Providers.ClaudeAnswers
import UniApi.Providers.ThoughtSignature
import UniApi.Providers.OpenaiReasoning
import UniApi.Providers.ClaudeTranslation
import UniApi.Providers.Base64Chunks
import UniApi.Providers.ToolReferences
import UniApi.Providers.GeminiCleanup
import UniApi.Providers.GeminiFraming
import UniApi.Providers.AwsEventStream
import UniApi.Providers.ThinkCuts
import UniApi.Streaming.LineSplit
import UniApi.Middleware.ZstdCheck
import UniApi.Streaming.CollectedMessage
import UniApi.Upstream.BufferedResponse
import UniApi.Admission.JsonDocuments
import UniApi.Admission.MemoryRuns
