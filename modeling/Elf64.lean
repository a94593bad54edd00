import Elf64.Bytes
import Elf64.Error
import Elf64.FileHeader.Basic
import Elf64.FileHeader.FileType
import Elf64.FileHeader.Machine
import Elf64.FileHeader.OsAbi
import Elf64.FixedInt.Basic
import Elf64.FixedInt.Codec
import Elf64.Image.Basic
import Elf64.Image.Edit
import Elf64.Image.Finalize
import Elf64.Image.Layout
import Elf64.Image.Serialize
import Elf64.Label
import Elf64.Outcome
import Elf64.Output.Destination
import Elf64.Output.Fault
import Elf64.Output.Sink
import Elf64.Output.Writer
import Elf64.Proofs.File
import Elf64.Proofs.Finalize
import Elf64.Proofs.Layout
import Elf64.Proofs.Reader
import Elf64.Proofs.Records
import Elf64.Proofs.Run
import Elf64.Proofs.Sections
import Elf64.Proofs.Serialization
import Elf64.Proofs.Slices
import Elf64.Proofs.Steps
import Elf64.Proofs.Strings
import Elf64.Proofs.Symbols
import Elf64.Proofs.Tables
import Elf64.Proofs.Writer
import Elf64.Record
import Elf64.Section.Flags
import Elf64.Section.Header
import Elf64.Section.Table
import Elf64.Section.Type
import Elf64.StringTable
import Elf64.Symbol.Basic
import Elf64.Symbol.Info
import Elf64.Symbol.SectionRef
import Elf64.Symbol.Table
import Elf64.Text.CodeRanges
import Elf64.Text.GraphemeExtend
import Elf64.Text.Hex
import Elf64.Text.Invisible
import Elf64.Text.Printable
import Elf64.Text.Quoted
import Elf64.Proofs.Success
import Elf64.Proofs.Twins
import Elf64.Proofs.Replay
import Elf64.Proofs.Acceptance
import Elf64.Proofs.Additions
import Elf64.Proofs.Refusals
import Elf64.Proofs.Indexes
import Elf64.Proofs.Handles
import Elf64.Proofs.TableSections
import Elf64.Proofs.Views
import Elf64.Proofs.Recomputed
import Elf64.Proofs.Kinds
import Elf64.Proofs.Interleaving
import Elf64.Proofs.Sinks
import Elf64.Proofs.Delivery
import Elf64.Proofs.SymbolInfo
import Elf64.Proofs.Codec
import Elf64.Proofs.MinimalLayout
import Elf64.Proofs.ExactLayout
import Elf64.Proofs.Links
import Elf64.Proofs.Verdicts
import Elf64.Proofs.TextBytes
import Elf64.Proofs.TwosComplement
import Elf64.Proofs.SymbolOrder
import Elf64.Proofs.SectionChanges
import Elf64.Proofs.LateLinks
import Elf64.Proofs.Retry
import Elf64.Proofs.Frame
import Elf64.Proofs.Emission
import Elf64.Proofs.Padding
import Elf64.Proofs.Flags
