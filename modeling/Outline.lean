import Outline.Main
import Outline.Merge
import Outline.Proofs.Batch
import Outline.Proofs.Declaration.Levels
import Outline.Proofs.Declaration.Order
import Outline.Proofs.Declaration.Shift
import Outline.Proofs.Extent.Bounds
import Outline.Proofs.Extent.Settled
import Outline.Proofs.Extent.Shift
import Outline.Proofs.Grammar.Names
import Outline.Proofs.Lexing.Pass
import Outline.Proofs.Pattern.Matching
import Outline.Proofs.Scan.Accounting
import Outline.Proofs.Scan.Budget
import Outline.Proofs.Scan.Cut
import Outline.Proofs.Scan.Depth
import Outline.Proofs.Scan.Geometry
import Outline.Proofs.Scan.Interior
import Outline.Proofs.Scan.Role
import Outline.Proofs.Scan.Room
import Outline.Proofs.Scan.Silence
import Outline.Proofs.Scan.Step
import Outline.Proofs.Scan.Tracking
import Outline.Proofs.Scan.Overflow
import Outline.Proofs.Session.Agreement
import Outline.Proofs.Session.Interleaving
import Outline.Proofs.Session.Workers
import Outline.Proofs.Text.Lines
import Outline.Proofs.Session.Isolation
import Outline.Proofs.Merge.Containment
import Outline.Proofs.Merge.Idempotence
import Outline.Proofs.Merge.Lineage
import Outline.Proofs.Scan.Translation
import Outline.Proofs.Path.Extension
import Outline.Proofs.Registry.Resolution
import Outline.Proofs.FileTree.Ways
import Outline.Proofs.FileTree.Collection
import Outline.Proofs.Declaration.RoundTrip
import Outline.Proofs.Json.Reading
import Outline.Proofs.Report.RoundTrip
import Outline.Proofs.Text.Runs
import Outline.Proofs.Lexing.Stream
import Outline.Proofs.Extent.Reach
import Outline.Proofs.Extent.Reliable
import Outline.Proofs.Lexing.Lingering
import Outline.Proofs.Extent.Balance
import Outline.Proofs.Extent.Pairs
import Outline.Proofs.Extent.Indentation
import Outline.Proofs.Extent.Words
import Outline.Proofs.Extent.Keywords
import Outline.Proofs.Text.Edges
import Outline.Proofs.Lexing.Faithful
import Outline.Proofs.Extent.Statements
import Outline.Proofs.Extent.Openings
import Outline.Proofs.Lexing.Comments
import Outline.Proofs.Extent.Alike
import Outline.Proofs.Extent.Comments
import Outline.Proofs.Lexing.Literals
import Outline.Proofs.Lexing.Nesting
import Outline.Proofs.Text.Places
import Outline.Proofs.Lexing.RawLiterals
import Outline.Proofs.Text.Solid
import Outline.Proofs.Imports.UseTree
import Outline.Proofs.Imports.Layout
import Outline.Proofs.Pattern.Preferred
import Outline.Proofs.Imports.Statements
import Outline.Proofs.Imports.Distinct
import Outline.Proofs.Imports.Lines
import Outline.Proofs.Imports.Entries
import Outline.Proofs.Imports.Expansion
import Outline.Proofs.Imports.Reading
import Outline.Proofs.Imports.Remarks
import Outline.Proofs.Imports.Quotes
import Outline.Proofs.Attribute.Closing
import Outline.Proofs.Doc.Blocks
import Outline.Proofs.Pattern.Taking
import Outline.Proofs.Grammar.SolidNames
import Outline.Proofs.Attribute.Tidy
import Outline.Proofs.Scan.NormalForm
import Outline.Proofs.Pattern.Displacement
import Outline.Proofs.Grammar.Headings
import Outline.Proofs.Lexing.Prefixes
import Outline.Proofs.Attribute.Nesting
import Outline.Proofs.Extent.Prefixes
import Outline.Proofs.Scan.Placement
import Outline.Proofs.Extent.Checked
import Outline.Proofs.Extent.Spans
import Outline.Proofs.Path.Relative
import Outline.Proofs.Report.ShownPath
import Outline.Proofs.Text.Decoding
import Outline.Proofs.Session.Outcomes
import Outline.Proofs.Text.Offsets
import Outline.Proofs.Grammar.Offsets
import Outline.Proofs.Attribute.Ranges
