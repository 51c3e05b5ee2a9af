import FlagFft.Api.Descriptor
import FlagFft.Api.Layout
import FlagFft.Api.Stream
import FlagFft.Axes.Cube
import FlagFft.Axes.Plane
import FlagFft.Axes.RealCube
import FlagFft.Axes.Requests
import FlagFft.Axes.Workload
import FlagFft.Batch
import FlagFft.Codegen.BluesteinTables
import FlagFft.Codegen.CacheSound
import FlagFft.Codegen.Generation
import FlagFft.Codegen.KernelCache
import FlagFft.Codegen.KernelKey
import FlagFft.Codegen.LeafTables
import FlagFft.Codegen.SingleSmem
import FlagFft.Codegen.StageLanes
import FlagFft.Compiled.Bluestein
import FlagFft.Compiled.BluesteinFused
import FlagFft.Compiled.Convolve
import FlagFft.Compiled.FourStep
import FlagFft.Compiled.Lower
import FlagFft.Compiled.Machine
import FlagFft.Compiled.Rader
import FlagFft.Compiled.Roots
import FlagFft.Compiled.Runs
import FlagFft.Compiled.Transforms
import FlagFft.Compiled.Tree
import FlagFft.Device
import FlagFft.Direct.Forms
import FlagFft.Direct.Kernels
import FlagFft.Exec.Fits
import FlagFft.Exec.Grids
import FlagFft.Exec.Launches
import FlagFft.Exec.Nodes
import FlagFft.Exec.Steps
import FlagFft.FourStep.Execute
import FlagFft.FourStep.Kernels
import FlagFft.Graph
import FlagFft.Kernel
import FlagFft.Layout.Cube
import FlagFft.Layout.CubeMoves
import FlagFft.Layout.Lanes
import FlagFft.Layout.Plane
import FlagFft.Leaf.Contiguous
import FlagFft.Leaf.Indexing
import FlagFft.Leaf.Kernel
import FlagFft.Leaf.RegisterCodelets
import FlagFft.Leaf.Routing
import FlagFft.Leaf.Run
import FlagFft.Leaf.SharedStages
import FlagFft.Leaf.SingleBuffer
import FlagFft.Leaf.StageValues
import FlagFft.Leaf.Tables
import FlagFft.Library.ArbitraryLength
import FlagFft.Library.Capture
import FlagFft.Library.Convolution
import FlagFft.Library.Dft
import FlagFft.Library.Distinct
import FlagFft.Library.Filling
import FlagFft.Library.Fuel
import FlagFft.Library.Generators
import FlagFft.Library.InPlace
import FlagFft.Library.Indexing
import FlagFft.Library.Interleave
import FlagFft.Library.Inverse
import FlagFft.Library.Json
import FlagFft.Library.Memo
import FlagFft.Library.MixedRadix
import FlagFft.Library.Radix2
import FlagFft.Library.RealDft
import FlagFft.Library.Scan
import FlagFft.Library.Significand
import FlagFft.Library.Stores
import FlagFft.Library.Summation
import FlagFft.Library.Table
import FlagFft.Library.Text
import FlagFft.Library.Words
import FlagFft.Npu.Ascend
import FlagFft.Npu.PackedReal
import FlagFft.Npu.SmallFft
import FlagFft.Npu.StockhamStage
import FlagFft.Npu.StockhamStores
import FlagFft.Npu.StockhamTiles
import FlagFft.Npu.Transpose2d
import FlagFft.Npu.Transpose3d
import FlagFft.Offsets.Access
import FlagFft.Offsets.Exact
import FlagFft.Offsets.Kernels
import FlagFft.Offsets.Wide
import FlagFft.Plan.AutoCandidates
import FlagFft.Plan.Builder
import FlagFft.Plan.Candidates
import FlagFft.Plan.Convolution
import FlagFft.Plan.Decomposition
import FlagFft.Plan.Enumeration
import FlagFft.Plan.Factorization
import FlagFft.Plan.Growth
import FlagFft.Plan.Json
import FlagFft.Plan.Key
import FlagFft.Plan.LeafFactors
import FlagFft.Plan.Nodes
import FlagFft.Plan.RaderUtils
import FlagFft.Plan.SearchSound
import FlagFft.Plan.Sessions
import FlagFft.Plan.Termination
import FlagFft.Plan.Tuned
import FlagFft.Plan.WellPlanned
import FlagFft.Real.Kernels
import FlagFft.Real.Packed
import FlagFft.Real.RowChunks
import FlagFft.Stockham
import FlagFft.Stockham.Paired
import FlagFft.ThreeDim.Complex
import FlagFft.ThreeDim.Execute
import FlagFft.ThreeDim.Fused
import FlagFft.ThreeDim.FusedCube
import FlagFft.ThreeDim.FusedCubeOrder
import FlagFft.ThreeDim.FusedExecute
import FlagFft.ThreeDim.FusedForward
import FlagFft.ThreeDim.FusedInverse
import FlagFft.ThreeDim.Inner
import FlagFft.ThreeDim.Passes
import FlagFft.ThreeDim.PermutedLeaf
import FlagFft.ThreeDim.Real
import FlagFft.ThreeDim.Schedules
import FlagFft.ThreeDim.Stores
import FlagFft.TwoDim.Complex
import FlagFft.TwoDim.Execute
import FlagFft.TwoDim.Passes
import FlagFft.TwoDim.Real
import FlagFft.Compiled.Planned
