import AdsRealtime.Shared.LittleEndian
import AdsRealtime.Shared.Looping
import AdsRealtime.Shared.Runs
import AdsRealtime.Shared.Indistinguishable
import AdsRealtime.Shared.Circular
import AdsRealtime.Shared.Scan
import AdsRealtime.Shared.Channel
import AdsRealtime.Shared.Subscription
import AdsRealtime.Shared.Counter
import AdsRealtime.Shared.Framing
import AdsRealtime.Shared.Ownership
import AdsRealtime.Shared.MaximalRuns
import AdsRealtime.Shared.Shortest
import AdsRealtime.Shared.InFlight
import AdsRealtime.Shared.Quiescence
import AdsRealtime.Shared.Histories
import AdsRealtime.Shared.WaitFree
import AdsRealtime.Shared.Search
import AdsRealtime.Shared.Rank
import AdsRealtime.Shared.Sample
import AdsRealtime.Shared.Releases
import AdsRealtime.Compression.SimpleCompressor
import AdsRealtime.Compression.RunLengthCost
import AdsRealtime.Compression.RunLengthCut
import AdsRealtime.Compression.RunLengthDecoder
import AdsRealtime.Compression.RunLengthShortest
import AdsRealtime.Compression.ShouldCompress
import AdsRealtime.Compression.DictionaryCompressor
import AdsRealtime.Compression.DictionaryMatch
import AdsRealtime.Compression.DictionarySearch
import AdsRealtime.Compression.DictionaryRoundTrip
import AdsRealtime.Compression.DictionaryTokens
import AdsRealtime.Compression.DictionaryReading
import AdsRealtime.Compression.DictionaryPacking
import AdsRealtime.Compression.DictionaryStream
import AdsRealtime.Compression.PayloadCompressor
import AdsRealtime.Compression.Benchmark
import AdsRealtime.Payload.BinaryPayload
import AdsRealtime.Payload.WireFormat
import AdsRealtime.Payload.CompressedPayload
import AdsRealtime.Payload.RoundTrip
import AdsRealtime.Payload.FrameSize
import AdsRealtime.Payload.Termination
import AdsRealtime.Payload.Received
import AdsRealtime.Payload.Sequence
import AdsRealtime.Payload.CompressionExample
import AdsRealtime.Payload.VariableBatch
import AdsRealtime.Payload.BatchSender
import AdsRealtime.Ring.SharedMemory
import AdsRealtime.Ring.WrappedCopy
import AdsRealtime.Ring.Contents
import AdsRealtime.Ring.History
import AdsRealtime.Ring.View
import AdsRealtime.Ring.Concurrent
import AdsRealtime.Ring.WaitFree
import AdsRealtime.Ring.Interleaving
import AdsRealtime.Ring.Delivery
import AdsRealtime.Ring.Draining
import AdsRealtime.Ring.Endpoints
import AdsRealtime.Engine.AdsRealtimeEngine
import AdsRealtime.Engine.Lifecycle
import AdsRealtime.Engine.Logging
import AdsRealtime.Engine.Handles
import AdsRealtime.Engine.Ports
import AdsRealtime.Engine.AddVariable
import AdsRealtime.Engine.Notification
import AdsRealtime.Engine.Dispatch
import AdsRealtime.Engine.Addressing
import AdsRealtime.Engine.Statistics
import AdsRealtime.Realtime.RtThread
import AdsRealtime.Realtime.RtLatencyTracker
import AdsRealtime.Realtime.RtPeriodicTask
import AdsRealtime.Realtime.LinuxRtExample
import AdsRealtime.Realtime.RtssThread
import AdsRealtime.Realtime.RtssAdsHandler
import AdsRealtime.Realtime.RefusedStart
import AdsRealtime.Realtime.ThreadSessions
import AdsRealtime.Realtime.PerformanceCounter
import AdsRealtime.Realtime.WaitUs
import AdsRealtime.Realtime.RtssExample
import AdsRealtime.Realtime.RtssMemoryPool
import AdsRealtime.Realtime.PoolWaitFree
import AdsRealtime.Realtime.PoolExhaustion
import AdsRealtime.Realtime.PoolScan
import AdsRealtime.Bridge.MqttPublisher
import AdsRealtime.Bridge.MainProgram
import AdsRealtime.Bridge.Stages
import AdsRealtime.Bridge.Lifetimes
import AdsRealtime.Bridge.Registrations
import AdsRealtime.Bridge.Addresses
import AdsRealtime.Bridge.Dangling
import AdsRealtime.Bridge.Shutdown
import AdsRealtime.Bridge.CleanExit
import AdsRealtime.Discovery.PlcDiscovery
import AdsRealtime.Discovery.AutoDiscovery
