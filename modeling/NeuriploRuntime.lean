import NeuriploRuntime.Admin.Acceptance
import NeuriploRuntime.Admin.AdminCodec
import NeuriploRuntime.Admin.Installed
import NeuriploRuntime.Batch.Accounting
import NeuriploRuntime.Batch.Accounts
import NeuriploRuntime.Batch.Apart
import NeuriploRuntime.Batch.Attendance
import NeuriploRuntime.Batch.Attention
import NeuriploRuntime.Batch.Brief
import NeuriploRuntime.Batch.Compatibility
import NeuriploRuntime.Batch.Counted
import NeuriploRuntime.Batch.Delivery
import NeuriploRuntime.Batch.Drain
import NeuriploRuntime.Batch.DynamicBatcher
import NeuriploRuntime.Batch.Echo
import NeuriploRuntime.Batch.Equivalence
import NeuriploRuntime.Batch.Exchange
import NeuriploRuntime.Batch.Executors
import NeuriploRuntime.Batch.Idle
import NeuriploRuntime.Batch.Invisible
import NeuriploRuntime.Batch.IteratorUse
import NeuriploRuntime.Batch.Iterators
import NeuriploRuntime.Batch.Layout
import NeuriploRuntime.Batch.Ledger
import NeuriploRuntime.Batch.Limit
import NeuriploRuntime.Batch.Measure
import NeuriploRuntime.Batch.Merged
import NeuriploRuntime.Batch.Merging
import NeuriploRuntime.Batch.Moves
import NeuriploRuntime.Batch.Partition
import NeuriploRuntime.Batch.Places
import NeuriploRuntime.Batch.Probe
import NeuriploRuntime.Batch.Probed
import NeuriploRuntime.Batch.Progress
import NeuriploRuntime.Batch.Promises
import NeuriploRuntime.Batch.Quiescence
import NeuriploRuntime.Batch.Rank
import NeuriploRuntime.Batch.Responses
import NeuriploRuntime.Batch.Return
import NeuriploRuntime.Batch.Rousing
import NeuriploRuntime.Batch.RowWise
import NeuriploRuntime.Batch.Scanning
import NeuriploRuntime.Batch.Separation
import NeuriploRuntime.Batch.Settling
import NeuriploRuntime.Batch.Slices
import NeuriploRuntime.Batch.Soundness
import NeuriploRuntime.Batch.Splitting
import NeuriploRuntime.Batch.State
import NeuriploRuntime.Batch.Step
import NeuriploRuntime.Batch.Wakeup
import NeuriploRuntime.Batch.WorkerAccounts
import NeuriploRuntime.Codec.Acceptance
import NeuriploRuntime.Codec.Admission
import NeuriploRuntime.Codec.Framing
import NeuriploRuntime.Codec.InferenceRequest
import NeuriploRuntime.Codec.Integers
import NeuriploRuntime.Codec.Json
import NeuriploRuntime.Codec.OutputTensor
import NeuriploRuntime.Codec.Parameters
import NeuriploRuntime.Config.Checks
import NeuriploRuntime.Config.RuntimeConfig
import NeuriploRuntime.Executor.NeuriploExecutor
import NeuriploRuntime.Executor.OrderedInputs
import NeuriploRuntime.Executor.Parameters
import NeuriploRuntime.Exposition.Lexer
import NeuriploRuntime.Exposition.Page
import NeuriploRuntime.Exposition.Sample
import NeuriploRuntime.Fallible.Except
import NeuriploRuntime.Grpc.InferRequest
import NeuriploRuntime.Grpc.InferResponse
import NeuriploRuntime.Http.Blocks
import NeuriploRuntime.Http.Exchange
import NeuriploRuntime.Http.Framing
import NeuriploRuntime.Http.Messages
import NeuriploRuntime.Http.Server
import NeuriploRuntime.Http.SizeLimit
import NeuriploRuntime.Keyed.Cover
import NeuriploRuntime.Keyed.Find
import NeuriploRuntime.Llm.Accounts
import NeuriploRuntime.Llm.Answering
import NeuriploRuntime.Llm.Answers
import NeuriploRuntime.Llm.Attended
import NeuriploRuntime.Llm.Cancellation
import NeuriploRuntime.Llm.Deadline
import NeuriploRuntime.Llm.Delivery
import NeuriploRuntime.Llm.Drain
import NeuriploRuntime.Llm.Executors
import NeuriploRuntime.Llm.Handling
import NeuriploRuntime.Llm.MemoryBudget
import NeuriploRuntime.Llm.Moves
import NeuriploRuntime.Llm.Parting
import NeuriploRuntime.Llm.Queueing
import NeuriploRuntime.Llm.Slots
import NeuriploRuntime.Llm.State
import NeuriploRuntime.Llm.Step
import NeuriploRuntime.Llm.TimedOut
import NeuriploRuntime.Llm.TokenBudget
import NeuriploRuntime.Llm.Validation
import NeuriploRuntime.Loops.Counted
import NeuriploRuntime.Metrics.Answers
import NeuriploRuntime.Metrics.Completion
import NeuriploRuntime.Metrics.Histogram
import NeuriploRuntime.Metrics.HistogramPage
import NeuriploRuntime.Metrics.Lines
import NeuriploRuntime.Metrics.Page
import NeuriploRuntime.Metrics.ReadBack
import NeuriploRuntime.Metrics.Recording
import NeuriploRuntime.Metrics.Registry
import NeuriploRuntime.Model.Executors
import NeuriploRuntime.Model.Lifecycle
import NeuriploRuntime.Model.Load
import NeuriploRuntime.Model.Snapshot
import NeuriploRuntime.Model.State
import NeuriploRuntime.Numeral.Double
import NeuriploRuntime.Numeral.Positional
import NeuriploRuntime.Numeral.Rounding
import NeuriploRuntime.Numeral.Significand
import NeuriploRuntime.Numeral.Word
import NeuriploRuntime.Pipeline.BoxMask
import NeuriploRuntime.Pipeline.Build
import NeuriploRuntime.Pipeline.Config
import NeuriploRuntime.Pipeline.Dataflow
import NeuriploRuntime.Pipeline.Envelope
import NeuriploRuntime.Pipeline.ImageHeader
import NeuriploRuntime.Pipeline.Infer
import NeuriploRuntime.Pipeline.Masks
import NeuriploRuntime.Pipeline.Moves
import NeuriploRuntime.Pipeline.Parse
import NeuriploRuntime.Pipeline.ParseWiring
import NeuriploRuntime.Pipeline.Polygons
import NeuriploRuntime.Pipeline.PostprocessStep
import NeuriploRuntime.Pipeline.PreprocessStep
import NeuriploRuntime.Pipeline.Wiring
import NeuriploRuntime.Ranking.Stable
import NeuriploRuntime.Registry.DefaultVersion
import NeuriploRuntime.Registry.Effect
import NeuriploRuntime.Registry.Ensembles
import NeuriploRuntime.Registry.Invariant
import NeuriploRuntime.Registry.Phase
import NeuriploRuntime.Registry.Preservation
import NeuriploRuntime.Registry.Provenance
import NeuriploRuntime.Registry.Reachable
import NeuriploRuntime.Registry.ReferenceGraph
import NeuriploRuntime.Registry.References
import NeuriploRuntime.Registry.Rejection
import NeuriploRuntime.Registry.Retirement
import NeuriploRuntime.Registry.Sections
import NeuriploRuntime.Registry.Service
import NeuriploRuntime.Registry.SlotInvariant
import NeuriploRuntime.Registry.Slots
import NeuriploRuntime.Registry.State
import NeuriploRuntime.Registry.SwitchVersion
import NeuriploRuntime.Registry.Threads
import NeuriploRuntime.Registry.Waiters
import NeuriploRuntime.Repository.Agreement
import NeuriploRuntime.Repository.Groups
import NeuriploRuntime.Repository.Scan
import NeuriploRuntime.Repository.Tree
import NeuriploRuntime.Repository.Version
import NeuriploRuntime.Rows.Boundaries
import NeuriploRuntime.Rows.Fill
import NeuriploRuntime.Rows.Slice
import NeuriploRuntime.Scheduler.Config
import NeuriploRuntime.Scheduler.Deadlines
import NeuriploRuntime.Scheduler.ExecutorPool
import NeuriploRuntime.Scheduler.ExecutorUse
import NeuriploRuntime.Scheduler.Result
import NeuriploRuntime.Server.CleanUp
import NeuriploRuntime.Server.Completions
import NeuriploRuntime.Server.Inference
import NeuriploRuntime.Server.LoadRoutes
import NeuriploRuntime.Server.RouteGrammar
import NeuriploRuntime.Server.Routes
import NeuriploRuntime.Server.StreamOrder
import NeuriploRuntime.Server.StreamText
import NeuriploRuntime.Server.Streaming
import NeuriploRuntime.Server.Streams
import NeuriploRuntime.Server.WrongMethods
import NeuriploRuntime.Store.Dataflow
import NeuriploRuntime.Store.Liveness
import NeuriploRuntime.Stream.Events
import NeuriploRuntime.Stream.Octets
import NeuriploRuntime.Stream.Reader
import NeuriploRuntime.Stream.Segments
import NeuriploRuntime.Tensor.Bytes
import NeuriploRuntime.Tensor.ElementType
import NeuriploRuntime.Tensor.Execution
import NeuriploRuntime.Tensor.Metadata
import NeuriploRuntime.Transition.Acyclic
import NeuriploRuntime.Transition.Balance
import NeuriploRuntime.Transition.Log
import NeuriploRuntime.Transition.Ownership
import NeuriploRuntime.Transition.Stretch
import NeuriploRuntime.Transition.System
import NeuriploRuntime.Transition.Tally
import NeuriploRuntime.Transition.Update
import NeuriploRuntime.Transition.WorkQueue
import NeuriploRuntime.Transport.Agreement
import NeuriploRuntime.Transport.InferRoutes
