import InfiniRT.Library.Action
import InfiniRT.Library.Runs
import InfiniRT.Library.GrowingStore
import InfiniRT.Library.Ledger
import InfiniRT.Library.ArrayHeap
import InfiniRT.Library.ObjectTable
import InfiniRT.Library.RowMajor
import InfiniRT.Library.Brackets
import InfiniRT.Library.BinaryFormat
import InfiniRT.Library.IntegralTypes
import InfiniRT.Library.Words
import InfiniRT.Library.Worklist
import InfiniRT.Pool.State
import InfiniRT.Pool.Operations
import InfiniRT.Pool.AllocateSteps
import InfiniRT.Pool.OperationSteps
import InfiniRT.Pool.World
import InfiniRT.Pool.Placement
import InfiniRT.Pool.PlacementSteps
import InfiniRT.Pool.Pins
import InfiniRT.Pool.Soundness
import InfiniRT.Pool.Effects
import InfiniRT.Pool.Invariant
import InfiniRT.Pool.Transactions
import InfiniRT.Pool.Ledger
import InfiniRT.Pool.PinSafety
import InfiniRT.Pool.PinAccounting
import InfiniRT.Pool.LeaseContents
import InfiniRT.Pool.Conservation
import InfiniRT.Pool.StoreView
import InfiniRT.Pool.WarmUp
import InfiniRT.Pool.Lives
import InfiniRT.Pool.CaptureAnswer
import InfiniRT.Pool.Requests
import InfiniRT.Pool.Trim
import InfiniRT.Pool.LogicalOwners
import InfiniRT.Pool.Isolation
import InfiniRT.Pool.Footprint
import InfiniRT.Metadata.SmallVector
import InfiniRT.Metadata.SmallVectorSteps
import InfiniRT.Metadata.VectorWorld
import InfiniRT.Metadata.VectorModel
import InfiniRT.Metadata.VectorWorldSteps
import InfiniRT.Metadata.VectorGranting
import InfiniRT.Metadata.VectorRefinement
import InfiniRT.Metadata.ShapeStridesStorage
import InfiniRT.Metadata.StorageSteps
import InfiniRT.Metadata.StorageInitializers
import InfiniRT.Metadata.DefaultStrides
import InfiniRT.Metadata.Granting
import InfiniRT.Metadata.CombinedLayout
import InfiniRT.Metadata.MetadataWorld
import InfiniRT.Metadata.MetadataModel
import InfiniRT.Metadata.MetadataSteps
import InfiniRT.Metadata.ReadBack
import InfiniRT.Tensor.TensorView
import InfiniRT.Tensor.Broadcast
import InfiniRT.Tensor.Contiguity
import InfiniRT.Tensor.Rendering
import InfiniRT.Tensor.PrintedScalars
import InfiniRT.Tensor.PrintedTensors
import InfiniRT.Tensor.StoredView
import InfiniRT.Tensor.DefaultLayout
import InfiniRT.Tensor.Indexing
import InfiniRT.Tensor.PooledTensors
import InfiniRT.Scalar.BFloat16
import InfiniRT.Scalar.Float16
import InfiniRT.Device.Selection
import InfiniRT.Device.DeviceGuard
import InfiniRT.Device.GuardedPrograms
import InfiniRT.Pool.GuardedPools
import InfiniRT.Pool.GuardedRuns
import InfiniRT.Pool.StreamLife
import InfiniRT.Pool.CpuHeap
import InfiniRT.Pool.CpuCalls
import InfiniRT.Pool.CpuPools
import InfiniRT.Graph.AscendGraph
import InfiniRT.Graph.GraphLifetime
import InfiniRT.Headers.DetailHeaders
import InfiniRT.Headers.IncludeRewriting
import InfiniRT.Headers.RuntimeFunctions
import InfiniRT.Headers.EmittedSwitches
import InfiniRT.Headers.RuntimeDispatch
import InfiniRT.Headers.PublicHeaders
import InfiniRT.Headers.DeclaredFunctions
import InfiniRT.Dispatch.Dispatcher
import InfiniRT.Dispatch.DispatcherSteps
import InfiniRT.Dispatch.IntegerKeys
import InfiniRT.Dispatch.EnumKeys
