import RepoManifest.Main
import RepoManifest.Reference.Parse
import RepoManifest.Resource.Object
import RepoManifest.Proofs.Reading.Outcome
import RepoManifest.Proofs.Reading.Declared
import RepoManifest.Proofs.Resource.Finding
import RepoManifest.Proofs.Resource.Validity
import RepoManifest.Proofs.Resource.Filling
import RepoManifest.Proofs.Resource.Reading
import RepoManifest.Proofs.Resource.Reordered
import RepoManifest.Proofs.Settings.Provider
import RepoManifest.Proofs.Config.Entries
import RepoManifest.Proofs.Config.Duplicates
import RepoManifest.Proofs.Config.Acceptance
import RepoManifest.Proofs.Config.Report
import RepoManifest.Proofs.Config.Failure
import RepoManifest.Proofs.Config.Independence
import RepoManifest.Proofs.Value.Plain
import RepoManifest.Proofs.Value.Numeral
import RepoManifest.Proofs.Value.Literal
import RepoManifest.Proofs.Validation.Printable
import RepoManifest.Proofs.Resource.Printable
import RepoManifest.Proofs.Reading.Shown
import RepoManifest.Proofs.Resource.Shown
import RepoManifest.Proofs.Config.Shape
import RepoManifest.Proofs.Settings.Precedence
import RepoManifest.Proofs.Config.UnknownSettings
import RepoManifest.Proofs.Config.KeyOrder
import RepoManifest.Proofs.Resource.Walk
import RepoManifest.Proofs.Resource.Unchecked
import RepoManifest.Proofs.Config.FixedPoint
import RepoManifest.Proofs.Text.Cut
import RepoManifest.Proofs.Url.Split
import RepoManifest.Proofs.Reference.Parts
import RepoManifest.Proofs.Reference.RoundTrip
import RepoManifest.Proofs.Resource.Completion
import RepoManifest.Proofs.Resource.Written
import RepoManifest.Proofs.Reference.Reparse
import RepoManifest.Proofs.Reference.Grammar
import RepoManifest.Proofs.Reference.Transport
import RepoManifest.Proofs.Config.References
import RepoManifest.Proofs.Distinct
import RepoManifest.Proofs.Text.Printable
import RepoManifest.Proofs.Validation.Membership
import RepoManifest.Validation.Session
import RepoManifest.Proofs.Validation.ByField
import RepoManifest.Proofs.Validation.Session
import RepoManifest.Log.Session
import RepoManifest.Proofs.Log.Session
import RepoManifest.Proofs.Terminal.Style
import RepoManifest.Proofs.Terminal.Echo
import RepoManifest.Proofs.CommandLine.Report
import RepoManifest.Proofs.Config.Unescaped
import RepoManifest.Proofs.CommandLine.Outcome
import RepoManifest.Proofs.Reading.Reordered
import RepoManifest.Proofs.Settings.Spelling
import RepoManifest.Proofs.Reading.Word
import RepoManifest.Proofs.Resource.LastField
import RepoManifest.Proofs.Resource.Restricted
import RepoManifest.Proofs.Terminal.Listing
import RepoManifest.Proofs.Terminal.Access
import RepoManifest.Proofs.Terminal.Colour
import RepoManifest.Proofs.Config.Listing
import RepoManifest.Proofs.Validation.Apart
import RepoManifest.Proofs.Resource.Apart
