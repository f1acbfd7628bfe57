import Omniprobe.Lib.Maps
import Omniprobe.Lib.Run
import Omniprobe.Lib.Text
import Omniprobe.Lib.Buffer
import Omniprobe.Lib.Residues
import Omniprobe.Lib.Scan
import Omniprobe.Lib.Numbers
import Omniprobe.Lib.Interleavings
import Omniprobe.Lib.Json
import Omniprobe.Lib.JsonValue
import Omniprobe.Lib.JsonScan
import Omniprobe.Lib.JsonPrint
import Omniprobe.Lib.Regex
import Omniprobe.Hsa
import Omniprobe.Cache.Descriptor
import Omniprobe.Cache.Names
import Omniprobe.Cache.CoCache
import Omniprobe.Cache.Calls
import Omniprobe.Interceptor.Kernargs
import Omniprobe.Interceptor.Packets
import Omniprobe.Interceptor.Delivery
import Omniprobe.Interceptor.HiddenArgs
import Omniprobe.Interceptor.Segments
import Omniprobe.Interceptor.Loading
import Omniprobe.Interceptor.Filter
import Omniprobe.Filter.Glob
import Omniprobe.Filter.Config
import Omniprobe.Lib.Closure
import Omniprobe.Filter.FailedLoad
import Omniprobe.Filter.StringArray
import Omniprobe.Filter.Includes
import Omniprobe.Interceptor.Exclusion
import Omniprobe.Interceptor.StartupScan
import Omniprobe.Interceptor.Coherence
import Omniprobe.Interceptor.Signals
import Omniprobe.Interceptor.Bookkeeping
import Omniprobe.Interceptor.Shutdown
import Omniprobe.Scope.InstrumentationScope
import Omniprobe.Scope.Format
import Omniprobe.Scope.Compose
import Omniprobe.Scope.Grammar
import Omniprobe.Scope.Ranges
import Omniprobe.Memory.Handler
import Omniprobe.Memory.BankConflicts
import Omniprobe.Memory.CacheLines
import Omniprobe.Memory.Report
import Omniprobe.Memory.Clear
import Omniprobe.Memory.JsonReport
import Omniprobe.Memory.JsonBody
import Omniprobe.Memory.JsonObject
import Omniprobe.BasicBlocks.Analysis
import Omniprobe.BasicBlocks.Accounting
import Omniprobe.BasicBlocks.Clear
import Omniprobe.Handlers.Counters
import Omniprobe.Handlers.Clear
import Omniprobe.BasicBlocks.Masks
import Omniprobe.Memory.LineCount
import Omniprobe.Memory.Attribution
import Omniprobe.Memory.LineLoop
import Omniprobe.Interceptor.Dispatches
import Omniprobe.Interceptor.KernargBounds
import Omniprobe.Lib.JsonCompact
import Omniprobe.BasicBlocks.Resources
import Omniprobe.BasicBlocks.ResourceReport
import Omniprobe.Lib.Nodes
import Omniprobe.Lib.Executions
import Omniprobe.Instrumentation.IR
import Omniprobe.Instrumentation.AddressMessages
import Omniprobe.Instrumentation.Coverage
import Omniprobe.Instrumentation.Semantics
import Omniprobe.Instrumentation.BufferAddress
import Omniprobe.Instrumentation.Executions
import Omniprobe.Instrumentation.BasicBlockStart
import Omniprobe.Instrumentation.BlockCounts
import Omniprobe.Instrumentation.AccessCounts
import Omniprobe.Instrumentation.AddressExecutions
import Omniprobe.Script.Environment
import Omniprobe.Interceptor.CacheWatches
import Omniprobe.Lib.JsonLine
import Omniprobe.Handlers.JsonHelper
import Omniprobe.Handlers.MessageLog
import Omniprobe.Handlers.HeatmapReport
import Omniprobe.Lib.Visits
import Omniprobe.Instrumentation.BasicBlockInterval
import Omniprobe.Instrumentation.IntervalExecutions
import Omniprobe.Instrumentation.IntervalReports
import Omniprobe.Instrumentation.IntervalTotals
