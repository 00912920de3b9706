import AtomrAccel.Lib.Transition
import AtomrAccel.Lib.Liveness
import AtomrAccel.Lib.Loops
import AtomrAccel.Lib.Buckets
import AtomrAccel.Lib.BoundedMap
import AtomrAccel.Lib.Delimited
import AtomrAccel.Lib.Flat
import AtomrAccel.Lib.Kahn
import AtomrAccel.Lib.Lru
import AtomrAccel.Lib.Numeral
import AtomrAccel.Lib.PrefixCode
import AtomrAccel.Lib.Greedy
import AtomrAccel.Lib.Guard
import AtomrAccel.Lib.Compact
import AtomrAccel.Lib.FileSystem
import AtomrAccel.Lib.InFlight
import AtomrAccel.Lib.Kernel
import AtomrAccel.Lib.Probing
import AtomrAccel.Lib.Reduction
import AtomrAccel.Lib.Reactive
import AtomrAccel.Lib.Region
import AtomrAccel.Lib.Resource
import AtomrAccel.Lib.Ledger
import AtomrAccel.Lib.StableSort
import AtomrAccel.Lib.VirtualClock
import AtomrAccel.Device.Error
import AtomrAccel.Device.GpuRef
import AtomrAccel.Device.Validity
import AtomrAccel.Device.GenerationWatch
import AtomrAccel.Device.Rebuild
import AtomrAccel.Device.DeviceActor
import AtomrAccel.Device.ContextActor
import AtomrAccel.Device.WriteRequest
import AtomrAccel.Kernel.Collective
import AtomrAccel.Kernel.AllToAll
import AtomrAccel.Kernel.Envelope
import AtomrAccel.Kernel.Rng
import AtomrAccel.Kernel.Solver
import AtomrAccel.Kernel.SolverBatched
import AtomrAccel.Kernel.StreamReply
import AtomrAccel.Kernel.Workspace
import AtomrAccel.Kernel.WorkspacePool
import AtomrAccel.Graph.Record
import AtomrAccel.Module.ModuleActor
import AtomrAccel.Fft.PlanCache
import AtomrAccel.FlashAttn.Dispatch
import AtomrAccel.P2p.Topology
import AtomrAccel.Host.Pinned
import AtomrAccel.Hopper.Tma
import AtomrAccel.Hopper.Cluster
import AtomrAccel.Memory.Managed
import AtomrAccel.MultiDevice.World
import AtomrAccel.MultiDevice.NcclWorld
import AtomrAccel.MultiDevice.WorldBuild
import AtomrAccel.Nvrtc.Cache
import AtomrAccel.Nvrtc.ReadThrough
import AtomrAccel.Nvrtc.Compile
import AtomrAccel.Nvrtc.CacheKey
import AtomrAccel.Nvrtc.Stamp
import AtomrAccel.Tensor.PlanCache
import AtomrAccel.Cutlass.Request
import AtomrAccel.Cutlass.PlanCache
import AtomrAccel.Cutlass.PlanKey
import AtomrAccel.Cutlass.Evt
import AtomrAccel.Cudnn.Graph
import AtomrAccel.Cudnn.Request
import AtomrAccel.Cudnn.Blueprint
import AtomrAccel.Cudnn.PlanKey
import AtomrAccel.Cudnn.Attention
import AtomrAccel.Cudnn.WellFormed
import AtomrAccel.Agents.SharedState
import AtomrAccel.Agents.EmbeddingCache
import AtomrAccel.Agents.NodeGraph
import AtomrAccel.Realtime.HashMap
import AtomrAccel.Realtime.HashmapProbe
import AtomrAccel.Realtime.HashmapAgree
import AtomrAccel.Realtime.HashmapMap
import AtomrAccel.Realtime.SpatialIndex
import AtomrAccel.Realtime.Fluid
import AtomrAccel.Realtime.Cloth
import AtomrAccel.Replay.Harness
import AtomrAccel.Telemetry.CuptiSession
import AtomrAccel.Tensorrt.Shim
import AtomrAccel.Tensorrt.Lifetimes
import AtomrAccel.Tensorrt.Plugin
import AtomrAccel.Train.ParameterServer
import AtomrAccel.Patterns.Speculative
import AtomrAccel.Patterns.Scheduler
import AtomrAccel.Patterns.Fairness
import AtomrAccel.Patterns.Batching
import AtomrAccel.Patterns.BatchingTimers
import AtomrAccel.Cub.Tile
import AtomrAccel.Cub.Scan
import AtomrAccel.Cub.Dtype
import AtomrAccel.Cub.Sort
import AtomrAccel.Cub.Select
import AtomrAccel.Cub.Reduce
import AtomrAccel.Cub.CubActor
import AtomrAccel.Cub.Histogram
import AtomrAccel.Cub.HistogramCount
import AtomrAccel.Cub.Segmented
import AtomrAccel.Cub.SegmentedFold
import AtomrAccel.Cudnn.Graph
import AtomrAccel.Lib.Overflow
import AtomrAccel.FlashAttn.Forward
import AtomrAccel.FlashAttn.Varlen
import AtomrAccel.Lib.Components
import AtomrAccel.Lib.Gather
import AtomrAccel.Placement.PlacementActor
import AtomrAccel.Placement.Sharding
import AtomrAccel.P2p.Graph
import AtomrAccel.P2p.Access
import AtomrAccel.Train.DataParallel
import AtomrAccel.Train.TensorParallel
import AtomrAccel.Train.PipelineParallel
import AtomrAccel.Train.PipelineJourney
import AtomrAccel.Train.PipelineSteps
import AtomrAccel.Patterns.Moe
import AtomrAccel.Lib.TextSearch
import AtomrAccel.Xtask.Version
import AtomrAccel.Lib.MixedRadix
import AtomrAccel.Cudnn.Strides
import AtomrAccel.Cudnn.Digest
import AtomrAccel.Lib.Streams
import AtomrAccel.Lib.Worker
import AtomrAccel.Lib.Ranking
import AtomrAccel.Pipeline.Executor
import AtomrAccel.Pipeline.Progress
import AtomrAccel.Pipeline.Chain
import AtomrAccel.Pipeline.Sink
import AtomrAccel.Agents.VectorIndex
import AtomrAccel.Agents.Rag
import AtomrAccel.Lib.Shared
import AtomrAccel.Tensor.PlanLifetime
import AtomrAccel.Lib.Router
import AtomrAccel.Patterns.HotSwap
import AtomrAccel.Patterns.ReplicaPool
import AtomrAccel.Lib.Threads
import AtomrAccel.Realtime.Sparse
import AtomrAccel.Realtime.Particle
import AtomrAccel.Realtime.ClothKernels
import AtomrAccel.Lib.Rounding
import AtomrAccel.Dtype.Float8
