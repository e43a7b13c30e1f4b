import AnchorScript.Anchor
import AnchorScript.Content.Call
import AnchorScript.Content.Fault
import AnchorScript.Content.FileTree
import AnchorScript.Content.History
import AnchorScript.Content.Interleaving
import AnchorScript.Content.Loader
import AnchorScript.Content.SourceName
import AnchorScript.Document
import AnchorScript.Json.Basic
import AnchorScript.Json.Document
import AnchorScript.Json.Numeral
import AnchorScript.Json.Printer
import AnchorScript.Json.Reader
import AnchorScript.Json.Token
import AnchorScript.Main
import AnchorScript.Modifiers
import AnchorScript.Number.Binary64
import AnchorScript.Number.Decimal
import AnchorScript.Number.Layout
import AnchorScript.Number.Rounding
import AnchorScript.Number.Shortest
import AnchorScript.Page.Article
import AnchorScript.Page.Bundle
import AnchorScript.Page.Comparison
import AnchorScript.Page.Lead
import AnchorScript.Page.Navigation
import AnchorScript.Page.Tool
import AnchorScript.Proofs.Content.Absence
import AnchorScript.Proofs.Content.Agreement
import AnchorScript.Proofs.Content.Answers
import AnchorScript.Proofs.Content.Clearing
import AnchorScript.Proofs.Content.Confinement
import AnchorScript.Proofs.Content.LoadingHistory
import AnchorScript.Proofs.Json.Agreement
import AnchorScript.Proofs.Json.DistinctKeys
import AnchorScript.Proofs.Json.Distinction
import AnchorScript.Proofs.Json.Equality
import AnchorScript.Proofs.Json.Fields
import AnchorScript.Proofs.Modifiers.Agreement
import AnchorScript.Proofs.Modifiers.LastWrite
import AnchorScript.Proofs.Modifiers.WriteHistory
import AnchorScript.Proofs.Number.Comparison
import AnchorScript.Proofs.Number.Magnitude
import AnchorScript.Proofs.Number.ReadBack
import AnchorScript.Proofs.Number.Rendering
import AnchorScript.Proofs.Number.Scientific
import AnchorScript.Proofs.Number.WholeDigits
import AnchorScript.Proofs.Number.WholeLiteral
import AnchorScript.Proofs.Page.CodeExpansion
import AnchorScript.Proofs.Page.DocsSections
import AnchorScript.Proofs.Page.ExplicitOrder
import AnchorScript.Proofs.Page.Shuffling
import AnchorScript.Proofs.Page.ToolAssembly
import AnchorScript.Proofs.Page.Unrelated
import AnchorScript.Proofs.Reader.ArrowForm
import AnchorScript.Proofs.Reader.BlockDivision
import AnchorScript.Proofs.Reader.Comments
import AnchorScript.Proofs.Reader.Concatenation
import AnchorScript.Proofs.Reader.Extent
import AnchorScript.Proofs.Reader.Insertion
import AnchorScript.Proofs.Reader.Layout
import AnchorScript.Proofs.Reader.QuotedContent
import AnchorScript.Proofs.Reader.RoundTrip
import AnchorScript.Proofs.Reader.Runs
import AnchorScript.Proofs.Reader.Sentence
import AnchorScript.Proofs.Reader.SentenceReading
import AnchorScript.Proofs.Reader.WellFormed
import AnchorScript.Proofs.Reader.WrittenStatement
import AnchorScript.Proofs.Selection.Arrangement
import AnchorScript.Proofs.Selection.Grouping
import AnchorScript.Proofs.Selection.Partition
import AnchorScript.Proofs.Selection.SlotTable
import AnchorScript.Proofs.Selection.StableOrder
import AnchorScript.Proofs.Selection.Ties
import AnchorScript.Proofs.Settings.Assignment
import AnchorScript.Proofs.Settings.Keys
import AnchorScript.Proofs.Settings.Layering
import AnchorScript.Proofs.Settings.PerKey
import AnchorScript.Proofs.Text.Pieces
import AnchorScript.Proofs.Text.Trimming
import AnchorScript.Proofs.Web.Paths
import AnchorScript.Proofs.Web.Refinement
import AnchorScript.Reader.Arrow
import AnchorScript.Reader.Block
import AnchorScript.Reader.Literal
import AnchorScript.Reader.LogicalLine
import AnchorScript.Reader.Pair
import AnchorScript.Reader.Reading
import AnchorScript.Selection.Arrangement
import AnchorScript.Selection.Grouping
import AnchorScript.Selection.Scope
import AnchorScript.Settings.Basic
import AnchorScript.Settings.Environment
import AnchorScript.Settings.Layer
import AnchorScript.Settings.Path
import AnchorScript.Settings.Table
import AnchorScript.Settings.TableToken
import AnchorScript.Text.Blank
import AnchorScript.Text.Cut
import AnchorScript.Text.Percent
import AnchorScript.Text.Utf8
import AnchorScript.Value
import AnchorScript.Web.Exchange
import AnchorScript.Web.Route
import AnchorScript.Web.Service
