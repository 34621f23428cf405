import SearchBox.AliasTable
import SearchBox.Box
import SearchBox.Cleaning
import SearchBox.CommandLine
import SearchBox.Config.Basic
import SearchBox.Config.Document
import SearchBox.Conjunction
import SearchBox.Constraint
import SearchBox.Error
import SearchBox.Form
import SearchBox.IntegerList
import SearchBox.Json
import SearchBox.Kind
import SearchBox.Main
import SearchBox.Number.Double
import SearchBox.Number.Integer
import SearchBox.Number.Shortest
import SearchBox.Occurrence
import SearchBox.OrderedMap
import SearchBox.Paging
import SearchBox.Pattern.Basic
import SearchBox.Pattern.Reader
import SearchBox.Proofs.Alias
import SearchBox.Proofs.Box
import SearchBox.Proofs.Canonical
import SearchBox.Proofs.Cleaning
import SearchBox.Proofs.Compile
import SearchBox.Proofs.Config
import SearchBox.Proofs.Conjunction
import SearchBox.Proofs.Echo
import SearchBox.Proofs.Failure
import SearchBox.Proofs.Flash
import SearchBox.Proofs.Kind
import SearchBox.Proofs.Lone
import SearchBox.Proofs.Occurrence
import SearchBox.Proofs.OrderedMap
import SearchBox.Proofs.Query
import SearchBox.Proofs.Range
import SearchBox.Proofs.Reader
import SearchBox.Proofs.Refusal
import SearchBox.Proofs.Registry
import SearchBox.Proofs.Report
import SearchBox.Proofs.Sequence
import SearchBox.Proofs.SetCondition
import SearchBox.Proofs.SetRun
import SearchBox.Proofs.Span
import SearchBox.Proofs.Text
import SearchBox.Proofs.Trusted
import SearchBox.Query.Basic
import SearchBox.Query.Json
import SearchBox.Range
import SearchBox.Reader
import SearchBox.Registry
import SearchBox.Scalar
import SearchBox.Sequence
import SearchBox.SetCondition
import SearchBox.Span
import SearchBox.Text.Basic
import SearchBox.Text.Blank
import SearchBox.Text.Case
import SearchBox.Text.CaseTable
import SearchBox.Text.Digit
import SearchBox.Text.Entity
import SearchBox.Token.Bracket
import SearchBox.Token.Grammar
import SearchBox.Token.Separator
import SearchBox.Toml.Reader
import SearchBox.Toml.Tree
import SearchBox.Toml.Value
import SearchBox.Write
import SearchBox.Proofs.Gap
import SearchBox.Proofs.Locality
import SearchBox.Proofs.Building
import SearchBox.Proofs.Enumerate
import SearchBox.Proofs.ZeroSplit
import SearchBox.Proofs.Numeral
import SearchBox.Proofs.IntegerList
import SearchBox.Proofs.Grammar
import SearchBox.Proofs.CommaList
import SearchBox.Proofs.SignedList
import SearchBox.Proofs.DoubleList
import SearchBox.Proofs.Stored
import SearchBox.Proofs.NamedIntegers
import SearchBox.Proofs.RationalList
import SearchBox.Proofs.DashedDots
import SearchBox.Proofs.Tokenwise
import SearchBox.Proofs.Vector
import SearchBox.Proofs.ListBox
import SearchBox.Proofs.Leading
import SearchBox.Proofs.Parts
import SearchBox.Proofs.Beginning
import SearchBox.Proofs.ExactPrefix
import SearchBox.Proofs.Assignments
import SearchBox.Proofs.OccurrenceOrder
import SearchBox.Proofs.ExactSet
import SearchBox.Proofs.NestedChoices
import SearchBox.Proofs.TypingOrder
import SearchBox.Proofs.Paging
import SearchBox.Proofs.Pattern
import SearchBox.Proofs.LabelPattern
import SearchBox.Proofs.JsonText
import SearchBox.Proofs.OccurrenceNumeral
import SearchBox.Proofs.Groups
import SearchBox.Proofs.SignedRational
import SearchBox.Proofs.Utf8
import SearchBox.Proofs.Offset
import SearchBox.Proofs.Merging
import SearchBox.Proofs.Write
