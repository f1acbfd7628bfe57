import Omniprobe.Lib.Maps
import Omniprobe.Lib.Text

/-!
# The HSA side

Handles, dispatch packets and code-object metadata, and what the HSA runtime, its loader
extension and the libraries the interceptor links against answer when they are asked.
-/

namespace Omniprobe
open Lib

abbrev Signal := UInt64
abbrev Agent := UInt64
abbrev Symbol := UInt64
abbrev Queue := UInt64
abbrev Executable := UInt64
abbrev KernelObject := UInt64
abbrev Address := UInt64

/-! ### Packets -/

/-- `hsa_kernel_dispatch_packet_t`. Its fields cover the 64 bytes of every AQL packet, so a
packet of another type is the same record read through the same cast. -/
structure Packet where
  header : UInt16
  setup : UInt16
  workgroupSizeX : UInt16
  workgroupSizeY : UInt16
  workgroupSizeZ : UInt16
  reserved0 : UInt16
  gridSizeX : UInt32
  gridSizeY : UInt32
  gridSizeZ : UInt32
  privateSegmentSize : UInt32
  groupSegmentSize : UInt32
  kernelObject : KernelObject
  kernargAddress : Address
  reserved2 : UInt64
  completionSignal : Signal
  deriving DecidableEq, Repr

def hsaPacketHeaderType : UInt32 := 0
def hsaPacketHeaderWidthType : UInt32 := 8
def hsaPacketTypeKernelDispatch : UInt32 := 2

def headerTypeMask : UInt32 := (1 <<< hsaPacketHeaderWidthType) - 1

def Packet.headerWord (packet : Packet) : UInt32 := packet.header.toUInt32 ||| (packet.setup.toUInt32 <<< 16)

def getHeaderType (packet : Packet) : UInt32 :=
  (packet.headerWord >>> hsaPacketHeaderType) &&& headerTypeMask

def Packet.isDispatch (packet : Packet) : Bool := getHeaderType packet == hsaPacketTypeKernelDispatch

/-! ### Code objects -/

structure ArgMetadata where
  offset : UInt64
  size : UInt64
  valueKind : Text
  deriving DecidableEq, Repr

structure KernelMetadata where
  symbol : Text
  args : List ArgMetadata
  kernargSegmentSize : UInt64
  privateSegmentFixedSize : UInt64
  groupSegmentFixedSize : UInt64
  deriving DecidableEq, Repr

/-- A code object as the loader extension describes it: its URI, when it has one, and the
kernel metadata in its bytes, when they can be read from its memory or file storage. -/
structure LoadedCodeObject where
  uri : Option Text
  metadata : Option (List KernelMetadata)
  deriving DecidableEq, Repr

inductive SymbolKind where
  | variable | kernel | indirectFunction
  deriving DecidableEq, Repr

/-- One file that `extractCodeObjects` returns. `loads` says that it could be opened and read
and is compatible with the agent. -/
structure CodeObjectFile where
  coFile : Text
  loads : Bool
  metadata : List KernelMetadata
  symbols : List (SymbolKind × Symbol)
  deriving DecidableEq, Repr

structure BinaryFile where
  name : Text
  codeObjects : List CodeObjectFile
  deriving DecidableEq, Repr

/-- What the code asks of the HSA runtime, its loader extension, `kernelDB` and `std::regex`. -/
structure Runtime where
  demangleName : Text → Text
  /-- `regex_search(name, regex(filter))`, or `none` where compiling the filter throws. -/
  regexSearch : Text → Text → Option Bool
  /-- Whether `hsa_executable_symbol_get_info` accepts the handle. -/
  knowsSymbol : Symbol → Bool
  nullSymbol : knowsSymbol 0 = false
  symbolName : Symbol → Text
  symbolAgent : Symbol → Agent
  symbolKernelObject : Symbol → KernelObject
  symbolKernargSize : Symbol → UInt32
  queryExecutable : KernelObject → Option Executable
  loadedCodeObjects : Executable → List LoadedCodeObject

/-- Two runtimes agree on everything but what the loader has loaded. -/
structure Runtime.SameSymbols (rt rt₀ : Runtime) : Prop where
  demangleName : rt.demangleName = rt₀.demangleName
  regexSearch : rt.regexSearch = rt₀.regexSearch
  knowsSymbol : rt.knowsSymbol = rt₀.knowsSymbol
  symbolName : rt.symbolName = rt₀.symbolName
  symbolAgent : rt.symbolAgent = rt₀.symbolAgent
  symbolKernelObject : rt.symbolKernelObject = rt₀.symbolKernelObject

/-- A runtime with nothing loaded whose names are not mangled. -/
def Runtime.idle : Runtime where
  demangleName name := name
  regexSearch _ _ := some false
  knowsSymbol symbol := symbol != 0
  nullSymbol := rfl
  symbolName _ := []
  symbolAgent _ := 0
  symbolKernelObject _ := 0
  symbolKernargSize _ := 0
  queryExecutable _ := none
  loadedCodeObjects _ := []

/-- `LibraryFilter`. A compiled exclude regex is the predicate that `regex_match` decides with it. -/
structure LibraryFilter where
  active : Bool
  excludeRegexes : List (Text → Bool)

def LibraryFilter.matchesAnyPattern (path : Text) (patterns : List (Text → Bool)) : Bool :=
  patterns.any fun pattern => pattern path

def LibraryFilter.isExcluded (filter : LibraryFilter) (path : Text) : Bool :=
  filter.active && matchesAnyPattern path filter.excludeRegexes

end Omniprobe
