/-
Postmortem.lean

Inspecting the heap of a JavaScript process after its death: memory, layout,
objects, frames, and the files that hold them.
-/
import Postmortem.Address
import Postmortem.Capture
import Postmortem.Cli
import Postmortem.Cli.Arguments
import Postmortem.Cli.Invocation
import Postmortem.Cli.Line
import Postmortem.Compression.Bits
import Postmortem.Compression.Deflate
import Postmortem.Compression.Literals
import Postmortem.Compression.PrefixCode
import Postmortem.Compression.Sequences
import Postmortem.Compression.StateCode
import Postmortem.Compression.Zlib
import Postmortem.Compression.Zstd
import Postmortem.Decoder
import Postmortem.Directory
import Postmortem.Document
import Postmortem.Dwarf.Attribute
import Postmortem.Dwarf.Cursor
import Postmortem.Dwarf.Function
import Postmortem.Dwarf.Line
import Postmortem.Dwarf.Place
import Postmortem.Dwarf.Range
import Postmortem.Dwarf.Unit
import Postmortem.Elf.Compressed
import Postmortem.Elf.Core
import Postmortem.Elf.Data
import Postmortem.Elf.Executable
import Postmortem.Elf.Fault
import Postmortem.Elf.Header
import Postmortem.Elf.Note
import Postmortem.Elf.Symbol
import Postmortem.Failure
import Postmortem.Frame
import Postmortem.Frame.Managed
import Postmortem.Frame.Summary
import Postmortem.Heap
import Postmortem.Heap.Array
import Postmortem.Heap.Buffer
import Postmortem.Heap.CapturedStack
import Postmortem.Heap.Constructor
import Postmortem.Heap.Descriptor
import Postmortem.Heap.Dictionary
import Postmortem.Heap.Function
import Postmortem.Heap.Kind
import Postmortem.Heap.Map
import Postmortem.Heap.Object
import Postmortem.Heap.Oddball
import Postmortem.Heap.Primitive
import Postmortem.Heap.Scope
import Postmortem.Heap.String
import Postmortem.Image
import Postmortem.Inspection
import Postmortem.Layout
import Postmortem.Layout.Cache
import Postmortem.Layout.Constant
import Postmortem.Logging
import Postmortem.Main
import Postmortem.Mangling
import Postmortem.Mangling.Hashed
import Postmortem.Mangling.Path
import Postmortem.Mangling.Piece
import Postmortem.Mangling.Punycode
import Postmortem.Mangling.Writer
import Postmortem.Node
import Postmortem.Node.Document
import Postmortem.Node.Text
import Postmortem.Number.Double
import Postmortem.Number.Rounding
import Postmortem.Number.Shortest
import Postmortem.Options
import Postmortem.Path
import Postmortem.Session
import Postmortem.Symbol
import Postmortem.Symbolication
import Postmortem.Synthetic.Builder
import Postmortem.Synthetic.Constants
import Postmortem.Synthetic.Memory
import Postmortem.Tagged
import Postmortem.Target
import Postmortem.Text.Blank
import Postmortem.Text.Excerpt
import Postmortem.Text.Hidden
import Postmortem.Text.Lines
import Postmortem.Text.Utf16
import Postmortem.Text.Utf8
import Postmortem.Text.Visible
import Postmortem.Thread
import Postmortem.Window
import Postmortem.Word
import Postmortem.Proofs.Collections
import Postmortem.Proofs.Caching
import Postmortem.Proofs.Yield
import Postmortem.Proofs.Strict
import Postmortem.Proofs.Resolution
import Postmortem.Proofs.Listing
import Postmortem.Proofs.Rope
import Postmortem.Proofs.Readers
import Postmortem.Proofs.Level
import Postmortem.Proofs.CycleSafety
import Postmortem.Proofs.FailClosed
import Postmortem.Proofs.Depth
import Postmortem.Proofs.Positions
import Postmortem.Proofs.Properties
import Postmortem.Proofs.Division
import Postmortem.Proofs.Domains
import Postmortem.Proofs.Paging
import Postmortem.Proofs.Pages
import Postmortem.Proofs.CoreMemory
import Postmortem.Proofs.Selection
import Postmortem.Proofs.CoreImage
import Postmortem.Proofs.Excerpts
import Postmortem.Proofs.CoreParsing
import Postmortem.Proofs.StackWalk
import Postmortem.Proofs.Backtrace
import Postmortem.Proofs.Tiling
import Postmortem.Proofs.Blocks
import Postmortem.Proofs.Construction
import Postmortem.Proofs.BuiltObjects
import Postmortem.Proofs.StandardBuild
import Postmortem.Proofs.Decoding
import Postmortem.Proofs.RoundTrip
import Postmortem.Proofs.SmallIntegers
import Postmortem.Proofs.Footprint
import Postmortem.Proofs.Calls
import Postmortem.Proofs.Markers
import Postmortem.Proofs.CapturedStacks
import Postmortem.Proofs.Alike
import Postmortem.Proofs.Neutered
import Postmortem.Proofs.Windowing
import Postmortem.Proofs.Balance
import Postmortem.Proofs.Keys
import Postmortem.Proofs.BuiltScopes
import Postmortem.Proofs.BuiltContexts
import Postmortem.Proofs.Lines
import Postmortem.Proofs.Projection
import Postmortem.Proofs.Summaries
import Postmortem.Proofs.TypeNames
import Postmortem.Proofs.Placeholders
import Postmortem.Proofs.Utf16Codec
import Postmortem.Proofs.Tagging
import Postmortem.Proofs.TypedAddresses
import Postmortem.Proofs.Payloads
import Postmortem.Proofs.ByteCounts
import Postmortem.Proofs.FileTables
import Postmortem.Proofs.FunctionTables
import Postmortem.Proofs.MapAddresses
import Postmortem.Proofs.Absences
import Postmortem.Proofs.SharedLayouts
import Postmortem.Proofs.SegmentRanges
import Postmortem.Proofs.HashedNames
import Postmortem.Proofs.Constructors
import Postmortem.Proofs.Accounts
import Postmortem.Proofs.Undisturbed
