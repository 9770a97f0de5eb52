import IconMarkup.Main
import IconMarkup.Proofs.CommandLine.Configured
import IconMarkup.Proofs.CommandLine.Counting
import IconMarkup.Proofs.CommandLine.EarlyFailures
import IconMarkup.Proofs.CommandLine.Failures
import IconMarkup.Proofs.CommandLine.Outputs
import IconMarkup.Proofs.CommandLine.Overwriting
import IconMarkup.Proofs.CommandLine.Undisturbed
import IconMarkup.Proofs.CommandLine.Work
import IconMarkup.Proofs.Config.Faults
import IconMarkup.Proofs.Config.Nearest
import IconMarkup.Proofs.Config.Values
import IconMarkup.Proofs.Files.Components
import IconMarkup.Proofs.Files.Growth
import IconMarkup.Proofs.Files.Making
import IconMarkup.Proofs.Files.Resolution
import IconMarkup.Proofs.Html.AttributeCount
import IconMarkup.Proofs.Html.Canonical
import IconMarkup.Proofs.Html.Doctype
import IconMarkup.Proofs.Html.Legible
import IconMarkup.Proofs.Html.Nesting
import IconMarkup.Proofs.Html.Pieces
import IconMarkup.Proofs.Html.PlainText
import IconMarkup.Proofs.Html.RawBodies
import IconMarkup.Proofs.Html.Reading
import IconMarkup.Proofs.Html.Rereadable
import IconMarkup.Proofs.Html.Rereading
import IconMarkup.Proofs.Html.RoundTrip
import IconMarkup.Proofs.Html.Sources
import IconMarkup.Proofs.Html.Tokens
import IconMarkup.Proofs.Html.Verbatim
import IconMarkup.Proofs.Html.VoidContent
import IconMarkup.Proofs.Icon.Agreement
import IconMarkup.Proofs.Icon.ClassList
import IconMarkup.Proofs.Icon.Cut
import IconMarkup.Proofs.Icon.Escaped
import IconMarkup.Proofs.Icon.Fragments
import IconMarkup.Proofs.Icon.Markup
import IconMarkup.Proofs.Icon.Passes
import IconMarkup.Proofs.Icon.Processing
import IconMarkup.Proofs.Icon.Repetition
import IconMarkup.Proofs.Icon.Scanning
import IconMarkup.Proofs.Icon.Skipping
import IconMarkup.Proofs.Input.Collected
import IconMarkup.Proofs.Input.OutputNames
import IconMarkup.Proofs.Input.Refused
import IconMarkup.Proofs.Input.Resolved
import IconMarkup.Proofs.Input.Targets
import IconMarkup.Proofs.Input.Walked
import IconMarkup.Proofs.Markdown.AltText
import IconMarkup.Proofs.Markdown.Content
import IconMarkup.Proofs.Markdown.Cutting
import IconMarkup.Proofs.Markdown.Forest
import IconMarkup.Proofs.Text.ByteOrder
import IconMarkup.Proofs.Text.Decoders
import IconMarkup.Proofs.Text.Escaping
import IconMarkup.Proofs.Text.Numerals
import IconMarkup.Proofs.Text.Offsets
import IconMarkup.Proofs.Text.References
import IconMarkup.Proofs.Text.Slices
import IconMarkup.Proofs.Toml.Keys
import IconMarkup.Proofs.Tree.AttributeOrder
import IconMarkup.Proofs.Tree.Edit
import IconMarkup.Proofs.Tree.InPlace
import IconMarkup.Proofs.Tree.Rewriting
import IconMarkup.Proofs.Tree.Splicing
