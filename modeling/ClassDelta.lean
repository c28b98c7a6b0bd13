import ClassDelta.AccessFlags
import ClassDelta.Archive.Collector
import ClassDelta.Archive.EntryFilter
import ClassDelta.Archive.FileTree
import ClassDelta.Archive.Glob
import ClassDelta.Archive.Source
import ClassDelta.Assembly
import ClassDelta.Attributes
import ClassDelta.Bytes.BigEndian
import ClassDelta.Bytes.Codec
import ClassDelta.Bytes.Reader
import ClassDelta.Change
import ClassDelta.ClassFile
import ClassDelta.Classification
import ClassDelta.CommandLine
import ClassDelta.Comparison.Basic
import ClassDelta.Comparison.Events
import ClassDelta.Comparison.Settings
import ClassDelta.Comparison.Sources
import ClassDelta.Comparison.Workers
import ClassDelta.Described.ClassInfo
import ClassDelta.Described.Member
import ClassDelta.Diff
import ClassDelta.Journal
import ClassDelta.Main
import ClassDelta.OffsetVector
import ClassDelta.ParseError
import ClassDelta.Pool.Basic
import ClassDelta.Pool.Builder
import ClassDelta.Pool.Constant
import ClassDelta.Pool.Kind
import ClassDelta.Pool.Resolve
import ClassDelta.Program
import ClassDelta.Proofs.AccessFlags
import ClassDelta.Proofs.Archive.Collector
import ClassDelta.Proofs.Archive.EntryFilter
import ClassDelta.Proofs.Assembly.Assembled
import ClassDelta.Proofs.Assembly.Described
import ClassDelta.Proofs.Attributes
import ClassDelta.Proofs.Bytes.Normalising
import ClassDelta.Proofs.Bytes.Reading
import ClassDelta.Proofs.Bytes.Rewriting
import ClassDelta.Proofs.Bytes.RoundTrip
import ClassDelta.Proofs.Bytes.Stability
import ClassDelta.Proofs.ClassFile.Canonical
import ClassDelta.Proofs.ClassFile.RoundTrip
import ClassDelta.Proofs.ClassFile.Stability
import ClassDelta.Proofs.Comparison.Collecting
import ClassDelta.Proofs.Comparison.Filtering
import ClassDelta.Proofs.Comparison.Matching
import ClassDelta.Proofs.Comparison.Outcomes
import ClassDelta.Proofs.Comparison.SelfComparison
import ClassDelta.Proofs.Comparison.Silence
import ClassDelta.Proofs.Comparison.Workers
import ClassDelta.Proofs.Described.FirstAttributes
import ClassDelta.Proofs.Diff.Completeness
import ClassDelta.Proofs.Diff.Filtering
import ClassDelta.Proofs.Diff.Mirror
import ClassDelta.Proofs.Diff.Surface
import ClassDelta.Proofs.OffsetVector
import ClassDelta.Proofs.Pool.Building
import ClassDelta.Proofs.Pool.Constant
import ClassDelta.Proofs.Pool.IndexSpace
import ClassDelta.Proofs.Pool.Interning
import ClassDelta.Proofs.Pool.ReadBack
import ClassDelta.Proofs.Pool.RoundTrip
import ClassDelta.Proofs.Report.ExitCode
import ClassDelta.Proofs.Stateful
import ClassDelta.Proofs.Text.ModifiedUtf8
import ClassDelta.Proofs.Text.Utf16
import ClassDelta.Proofs.TypeDescriptor
import ClassDelta.Report.Basic
import ClassDelta.Report.Document
import ClassDelta.Report.Render
import ClassDelta.Text.Binary
import ClassDelta.Text.Decimal
import ClassDelta.Text.Json
import ClassDelta.Text.ModifiedUtf8
import ClassDelta.Text.Quoted
import ClassDelta.Text.Styled
import ClassDelta.Text.Unseen
import ClassDelta.Text.Utf16
import ClassDelta.TypeDescriptor
import ClassDelta.Version
import ClassDelta.Zip.Archive
import ClassDelta.Zip.Crc32
import ClassDelta.Zip.DirectoryEnd
import ClassDelta.Zip.Entry
import ClassDelta.Zip.EntryName
import ClassDelta.Zip.Error
import ClassDelta.Zip.Huffman
import ClassDelta.Zip.Inflate
import ClassDelta.Zip.Record
import ClassDelta.Proofs.Diff.Application
import ClassDelta.Proofs.Pool.References
import ClassDelta.Proofs.Text.Binary
import ClassDelta.Proofs.Text.Rounding
import ClassDelta.Proofs.Text.Decimal
import ClassDelta.Proofs.Text.Quoted
import ClassDelta.Proofs.Pool.Literal
import ClassDelta.Proofs.Bytes.Failing
import ClassDelta.Proofs.Pool.EntryFault
import ClassDelta.Proofs.Pool.FirstFault
import ClassDelta.Proofs.Attributes.Decoding
import ClassDelta.Proofs.Described.Failures
import ClassDelta.Proofs.Described.Repetition
import ClassDelta.Proofs.Described.OuterClass
import ClassDelta.Proofs.ClassFile.TextLength
import ClassDelta.Proofs.Text.PlainText
import ClassDelta.Proofs.Archive.Ranking
import ClassDelta.Proofs.Text.Json
import ClassDelta.Proofs.Report.Document
import ClassDelta.Proofs.Bytes.Bounds
import ClassDelta.Proofs.ClassFile.LeastSize
import ClassDelta.Proofs.Text.Utf8Order
import ClassDelta.Proofs.Archive.Listing
import ClassDelta.Proofs.Archive.FailedReads
import ClassDelta.Proofs.OffsetVector.Lookup
