import HtmlConformance.Main
import HtmlConformance.Proofs.Revalidation
import HtmlConformance.Proofs.Verdict
import HtmlConformance.Proofs.Order
import HtmlConformance.Proofs.Check.RuleFindings
import HtmlConformance.Proofs.Shortfalls
import HtmlConformance.Proofs.Narrowing
import HtmlConformance.Proofs.Json.Text
import HtmlConformance.Proofs.Json.Value
import HtmlConformance.Proofs.Document
import HtmlConformance.Proofs.Pairing
import HtmlConformance.Proofs.View
import HtmlConformance.Proofs.Check.Comparison
import HtmlConformance.Proofs.Check.Retouch
import HtmlConformance.Proofs.Spelling
import HtmlConformance.Proofs.XmlInput
import HtmlConformance.Proofs.RepairOptions
import HtmlConformance.Proofs.Check.Subjects
import HtmlConformance.Proofs.Templates
import HtmlConformance.Proofs.Arena.Calls
import HtmlConformance.Proofs.Arena.Anchored
import HtmlConformance.Proofs.Arena.InPlace
import HtmlConformance.Proofs.Arena.Appending
import HtmlConformance.Proofs.Arena.WellLinked
import HtmlConformance.Proofs.Arena.Descent
import HtmlConformance.Proofs.Arena.Building
import HtmlConformance.Proofs.Arena.DocumentOrder
import HtmlConformance.Proofs.Arena.Dump
import HtmlConformance.Proofs.Json.Nesting
import HtmlConformance.Proofs.Json.Decoding
import HtmlConformance.Proofs.Json.Fields
import HtmlConformance.Proofs.Json.Extension
import HtmlConformance.Proofs.Json.Listing
import HtmlConformance.Proofs.Document.Fields
import HtmlConformance.Proofs.Document.Reading
import HtmlConformance.Proofs.Document.OptionFields
import HtmlConformance.Proofs.Document.Rearranged
import HtmlConformance.Proofs.Document.Rereading
import HtmlConformance.Proofs.Document.Listing
import HtmlConformance.Proofs.Warning
import HtmlConformance.Proofs.Check.Effect
import HtmlConformance.Proofs.Check.Copies
import HtmlConformance.Proofs.Check.OneByOne
import HtmlConformance.Proofs.Check.Skipping
import HtmlConformance.Proofs.Rule.Value
import HtmlConformance.Proofs.Rule.Dictionary
import HtmlConformance.Proofs.Rule.Attribute
import HtmlConformance.Proofs.Text
import HtmlConformance.Proofs.Check.Value
import HtmlConformance.Proofs.Check.Fault
import HtmlConformance.Proofs.Check.Required
import HtmlConformance.Proofs.Check.Script
import HtmlConformance.Proofs.Check.Identity
import HtmlConformance.Proofs.Element
