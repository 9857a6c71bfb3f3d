import Hypertext.Ascii
import Hypertext.Binary64
import Hypertext.Binary64.Shortest
import Hypertext.Conformance.Escape
import Hypertext.Conformance.Slices
import Hypertext.Conformance.TokenList
import Hypertext.Conformance.TokenizerCase
import Hypertext.Conformance.TreeCase
import Hypertext.Cursor
import Hypertext.Dom.Checked
import Hypertext.Dom.Element
import Hypertext.Dom.Outline
import Hypertext.Dom.Traversal
import Hypertext.Dom.Tree
import Hypertext.Entity
import Hypertext.Entity.Entry
import Hypertext.Entity.Table.AToC
import Hypertext.Entity.Table.Capitals
import Hypertext.Entity.Table.DToG
import Hypertext.Entity.Table.HToM
import Hypertext.Entity.Table.NToQ
import Hypertext.Entity.Table.RToS
import Hypertext.Entity.Table.TToZ
import Hypertext.Foreign
import Hypertext.Indexed
import Hypertext.Json
import Hypertext.Json.Number
import Hypertext.Json.Raw
import Hypertext.Json.Reader
import Hypertext.Json.Record
import Hypertext.ParseError
import Hypertext.Position
import Hypertext.Proofs.Completion
import Hypertext.Proofs.Conformance.Escape
import Hypertext.Proofs.Conformance.TreeCase
import Hypertext.Proofs.Cursor
import Hypertext.Proofs.Cursor.Calls
import Hypertext.Proofs.Dom.Arrangement
import Hypertext.Proofs.Dom.Attributes
import Hypertext.Proofs.Dom.Changes
import Hypertext.Proofs.Dom.Checked
import Hypertext.Proofs.Dom.Forest
import Hypertext.Proofs.Dom.Links
import Hypertext.Proofs.Dom.Neighbours
import Hypertext.Proofs.Dom.Outline
import Hypertext.Proofs.Dom.Reading
import Hypertext.Proofs.Dom.Skeleton
import Hypertext.Proofs.Dom.Views
import Hypertext.Proofs.Entity
import Hypertext.Proofs.Entity.Scan
import Hypertext.Proofs.Entity.Search
import Hypertext.Proofs.Foreign
import Hypertext.Proofs.Markup
import Hypertext.Proofs.Newlines
import Hypertext.Proofs.Nulls
import Hypertext.Proofs.Placement
import Hypertext.Proofs.Position
import Hypertext.Proofs.Screening
import Hypertext.Proofs.Session
import Hypertext.Proofs.Token
import Hypertext.Proofs.Tokenizer.Comments
import Hypertext.Proofs.Tokenizer.Delivery
import Hypertext.Proofs.Tokenizer.Gauge
import Hypertext.Proofs.Tokenizer.Misuse
import Hypertext.Proofs.Tokenizer.Nulls
import Hypertext.Proofs.Tokenizer.Openings
import Hypertext.Proofs.Tokenizer.Origins
import Hypertext.Proofs.Tokenizer.Paths
import Hypertext.Proofs.Tokenizer.Places
import Hypertext.Proofs.Tokenizer.Progress
import Hypertext.Proofs.Tokenizer.RawText
import Hypertext.Proofs.Tokenizer.Reading
import Hypertext.Proofs.Tokenizer.References
import Hypertext.Proofs.Tokenizer.Screening
import Hypertext.Proofs.Tokenizer.Shape
import Hypertext.Proofs.Tokenizer.Shaping
import Hypertext.Proofs.Tokenizer.Spelling
import Hypertext.Proofs.Tokenizer.States
import Hypertext.Proofs.Tokenizer.Termination
import Hypertext.Proofs.Tokenizer.Trail
import Hypertext.Proofs.Tokenizer.WellFormed
import Hypertext.Proofs.Tokenizer.Zones
import Hypertext.Proofs.TreeBuilder.ActiveList
import Hypertext.Proofs.TreeBuilder.Acts.After
import Hypertext.Proofs.TreeBuilder.Acts.Body
import Hypertext.Proofs.TreeBuilder.Acts.Head
import Hypertext.Proofs.TreeBuilder.Acts.Table
import Hypertext.Proofs.TreeBuilder.Adopted
import Hypertext.Proofs.TreeBuilder.Adoption
import Hypertext.Proofs.TreeBuilder.Agency
import Hypertext.Proofs.TreeBuilder.Ark
import Hypertext.Proofs.TreeBuilder.Characters
import Hypertext.Proofs.TreeBuilder.Closing
import Hypertext.Proofs.TreeBuilder.Complete
import Hypertext.Proofs.TreeBuilder.Content
import Hypertext.Proofs.TreeBuilder.ContentChanges
import Hypertext.Proofs.TreeBuilder.ContentFits
import Hypertext.Proofs.TreeBuilder.ContentOperations
import Hypertext.Proofs.TreeBuilder.Depth
import Hypertext.Proofs.TreeBuilder.DocumentMode
import Hypertext.Proofs.TreeBuilder.Entries
import Hypertext.Proofs.TreeBuilder.ForeignTags
import Hypertext.Proofs.TreeBuilder.Formatting
import Hypertext.Proofs.TreeBuilder.Holdings
import Hypertext.Proofs.TreeBuilder.Lawful
import Hypertext.Proofs.TreeBuilder.Leaves
import Hypertext.Proofs.TreeBuilder.Models
import Hypertext.Proofs.TreeBuilder.Nulls
import Hypertext.Proofs.TreeBuilder.Parts
import Hypertext.Proofs.TreeBuilder.Persistence
import Hypertext.Proofs.TreeBuilder.Planted
import Hypertext.Proofs.TreeBuilder.Ranges
import Hypertext.Proofs.TreeBuilder.Reachable
import Hypertext.Proofs.TreeBuilder.Ready
import Hypertext.Proofs.TreeBuilder.Reopening
import Hypertext.Proofs.TreeBuilder.Retained
import Hypertext.Proofs.TreeBuilder.Rightmost
import Hypertext.Proofs.TreeBuilder.Rounds
import Hypertext.Proofs.TreeBuilder.Rules.After
import Hypertext.Proofs.TreeBuilder.Rules.Body
import Hypertext.Proofs.TreeBuilder.Rules.Foreign
import Hypertext.Proofs.TreeBuilder.Rules.Head
import Hypertext.Proofs.TreeBuilder.Rules.Select
import Hypertext.Proofs.TreeBuilder.Rules.Table
import Hypertext.Proofs.TreeBuilder.Rules.Template
import Hypertext.Proofs.TreeBuilder.Run
import Hypertext.Proofs.TreeBuilder.Spacing
import Hypertext.Proofs.TreeBuilder.Steps
import Hypertext.Proofs.TreeBuilder.Templates
import Hypertext.Proofs.TreeBuilder.TextOrder
import Hypertext.Proofs.Utf8
import Hypertext.Proofs.Warning
import Hypertext.Session
import Hypertext.Token
import Hypertext.Tokenizer
import Hypertext.Tokenizer.Basic
import Hypertext.Tokenizer.Comment
import Hypertext.Tokenizer.Doctype
import Hypertext.Tokenizer.Reference
import Hypertext.Tokenizer.State
import Hypertext.Tokenizer.Tag
import Hypertext.Tokenizer.Text
import Hypertext.TreeBuilder
import Hypertext.TreeBuilder.Adoption
import Hypertext.TreeBuilder.Basic
import Hypertext.TreeBuilder.Category
import Hypertext.TreeBuilder.DocumentMode
import Hypertext.TreeBuilder.Formatting
import Hypertext.TreeBuilder.Insertion
import Hypertext.TreeBuilder.Mode
import Hypertext.TreeBuilder.Outcome
import Hypertext.TreeBuilder.Rules.After
import Hypertext.TreeBuilder.Rules.Body
import Hypertext.TreeBuilder.Rules.ForeignContent
import Hypertext.TreeBuilder.Rules.Head
import Hypertext.TreeBuilder.Rules.InTemplate
import Hypertext.TreeBuilder.Rules.Select
import Hypertext.TreeBuilder.Rules.Table
import Hypertext.TreeBuilder.Rules.Template
import Hypertext.Utf16
import Hypertext.Warning
