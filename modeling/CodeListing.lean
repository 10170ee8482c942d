import CodeListing.Main
import CodeListing.Proofs.Appearance
import CodeListing.Proofs.BestEffort
import CodeListing.Proofs.Blocks
import CodeListing.Proofs.CommandLine
import CodeListing.Proofs.CommentOpeners
import CodeListing.Proofs.Concatenation
import CodeListing.Proofs.Delimited
import CodeListing.Proofs.DottedNames
import CodeListing.Proofs.Items
import CodeListing.Proofs.Layout
import CodeListing.Proofs.Lexemes
import CodeListing.Proofs.Line
import CodeListing.Proofs.LineBreaks
import CodeListing.Proofs.Lines
import CodeListing.Proofs.Marks
import CodeListing.Proofs.Nesting
import CodeListing.Proofs.Paddings
import CodeListing.Proofs.Page
import CodeListing.Proofs.Recovery
import CodeListing.Proofs.Regex.Balance
import CodeListing.Proofs.Regex.Neutral
import CodeListing.Proofs.Regex.OctalRanges
import CodeListing.Proofs.Regex.Reading
import CodeListing.Proofs.Regex.Tree
import CodeListing.Proofs.Regex.WellFormed
import CodeListing.Proofs.ReportPlaces
import CodeListing.Proofs.Reports
import CodeListing.Proofs.SafeMarkup
import CodeListing.Proofs.Step
import CodeListing.Proofs.WarningOrder
import CodeListing.Proofs.WarningSpans
import CodeListing.Proofs.Regex.UnicodeEscapes
import CodeListing.Proofs.Regex.Lookaround
import CodeListing.Proofs.Division
import CodeListing.Proofs.RunFailures
import CodeListing.Proofs.Offsets
import CodeListing.Proofs.Regex.CoreNotation
import CodeListing.Proofs.Json
import CodeListing.Proofs.SettingsTexts
import CodeListing.Proofs.Indexed.Access
import CodeListing.Proofs.Indexed.Neutral
import CodeListing.Proofs.Indexed.Token
import CodeListing.Proofs.Indexed.Line
