import FacetedSearch.Catalog
import FacetedSearch.Category
import FacetedSearch.Category.Table
import FacetedSearch.Clause.Basic
import FacetedSearch.Clause.Escape
import FacetedSearch.Clause.Quoting
import FacetedSearch.Command.Arguments
import FacetedSearch.Command.Basic
import FacetedSearch.Command.Report
import FacetedSearch.Command.Run
import FacetedSearch.Command.Usage
import FacetedSearch.Config.Discovery
import FacetedSearch.Config.File
import FacetedSearch.Config.Merge
import FacetedSearch.Config.Template
import FacetedSearch.Config.Text
import FacetedSearch.Config.Warning
import FacetedSearch.Decimal.Binary64
import FacetedSearch.Decimal.Layout
import FacetedSearch.Decimal.Shortest
import FacetedSearch.Defaults
import FacetedSearch.Facets
import FacetedSearch.FileTree
import FacetedSearch.FilterValue
import FacetedSearch.Geohash.Clause
import FacetedSearch.Geohash.Group
import FacetedSearch.Json.Basic
import FacetedSearch.Json.Reader
import FacetedSearch.Json.Writer
import FacetedSearch.Main
import FacetedSearch.Proofs.Clause.Content
import FacetedSearch.Proofs.Clause.Escape
import FacetedSearch.Proofs.Clause.Formula
import FacetedSearch.Proofs.Clause.FormulaReading
import FacetedSearch.Proofs.Clause.Phrase
import FacetedSearch.Proofs.Clause.Quoting
import FacetedSearch.Proofs.Clause.Transport
import FacetedSearch.Proofs.Clause.Unambiguous
import FacetedSearch.Proofs.Clause.Unescape
import FacetedSearch.Proofs.Clause.UrlTerm
import FacetedSearch.Proofs.Clause.Value
import FacetedSearch.Proofs.Command.Switches
import FacetedSearch.Proofs.Command.Writes
import FacetedSearch.Proofs.Config.Discovery
import FacetedSearch.Proofs.Config.File
import FacetedSearch.Proofs.Config.Merge
import FacetedSearch.Proofs.Config.Text
import FacetedSearch.Proofs.Facets
import FacetedSearch.Proofs.Geohash.Budget
import FacetedSearch.Proofs.Geohash.Canonical
import FacetedSearch.Proofs.Geohash.Coverage
import FacetedSearch.Proofs.Geohash.CutShort
import FacetedSearch.Proofs.Geohash.Grouping
import FacetedSearch.Proofs.Geohash.Injection
import FacetedSearch.Proofs.Geohash.LooseOrder
import FacetedSearch.Proofs.Geohash.Precision
import FacetedSearch.Proofs.Geohash.Reading
import FacetedSearch.Proofs.Geohash.Tiles
import FacetedSearch.Proofs.Query.CellOrder
import FacetedSearch.Proofs.Query.EveryValue
import FacetedSearch.Proofs.Query.Parentheses
import FacetedSearch.Proofs.Query.Reads
import FacetedSearch.Proofs.Query.RemovedFilter
import FacetedSearch.Proofs.Query.Reported
import FacetedSearch.Proofs.Query.Respelled
import FacetedSearch.Proofs.Query.Scope
import FacetedSearch.Proofs.Query.TaxonTerms
import FacetedSearch.Proofs.Query.Truncation
import FacetedSearch.Proofs.Query.Unread
import FacetedSearch.Proofs.SortedSet
import FacetedSearch.Proofs.State.AddedAndRemoved
import FacetedSearch.Proofs.State.Change
import FacetedSearch.Proofs.State.Grouped
import FacetedSearch.Proofs.State.Loading
import FacetedSearch.Proofs.State.Refused
import FacetedSearch.Proofs.State.Removal
import FacetedSearch.Proofs.State.Saved
import FacetedSearch.Proofs.State.WellShaped
import FacetedSearch.Proofs.Text.Backslash
import FacetedSearch.Proofs.Text.Blank
import FacetedSearch.Proofs.Text.Join
import FacetedSearch.Proofs.Text.Parentheses
import FacetedSearch.Proofs.Text.Percent
import FacetedSearch.Proofs.Toml.Distinct
import FacetedSearch.Proofs.Toml.Quoted
import FacetedSearch.Proofs.Toml.Reader
import FacetedSearch.Proofs.Toml.Scalar
import FacetedSearch.Proofs.Toml.Table
import FacetedSearch.Query
import FacetedSearch.Settings
import FacetedSearch.Slot
import FacetedSearch.Slot.Document
import FacetedSearch.SortedSet
import FacetedSearch.State
import FacetedSearch.State.Document
import FacetedSearch.State.Session
import FacetedSearch.Text.Blank
import FacetedSearch.Text.BoxedTable
import FacetedSearch.Text.Columns
import FacetedSearch.Text.Digit
import FacetedSearch.Text.Order
import FacetedSearch.Text.Percent
import FacetedSearch.Toml.Quoted
import FacetedSearch.Toml.Reader
import FacetedSearch.Toml.Scalar
import FacetedSearch.Toml.Table
import FacetedSearch.Toml.Value
