import AbiBridge.Assoc
import AbiBridge.Text.Blank
import AbiBridge.Text.Quoted
import AbiBridge.Boundary.Basic
import AbiBridge.Boundary.Native
import AbiBridge.Boundary.Encoding
import AbiBridge.Boundary.Placeholder
import AbiBridge.Boundary.Description
import AbiBridge.Boundary.Token
import AbiBridge.Boundary.Parser
import AbiBridge.Name
import AbiBridge.Wrapper.Signature
import AbiBridge.Wrapper.Statement
import AbiBridge.Wrapper.Descriptor
import AbiBridge.Wrapper.Validation
import AbiBridge.Wrapper.Marshalling
import AbiBridge.Source.Emitter
import AbiBridge.Source.Replay
import AbiBridge.Files.Path
import AbiBridge.Files.Tree
import AbiBridge.Journal
import AbiBridge.Text.Markup
import AbiBridge.Number.Binary64
import AbiBridge.Number.Shortest
import AbiBridge.Number.Text
import AbiBridge.Number.Integer
import AbiBridge.Value.Moment
import AbiBridge.Value.Basic
import AbiBridge.Toml.Inline
import AbiBridge.Toml.Fault
import AbiBridge.Schema
import AbiBridge.Failure
import AbiBridge.Source.Session
import AbiBridge.Settings.Basic
import AbiBridge.Crate.Basic
import AbiBridge.Crate.Text
import AbiBridge.Crate.Output
import AbiBridge.Toml.Text
import AbiBridge.Toml.Scalar
import AbiBridge.Toml.Document
import AbiBridge.Toml.Reader
import AbiBridge.Value.Entries
import AbiBridge.Settings.Load
import AbiBridge.Manifest.Basic
import AbiBridge.Manifest.Fields
import AbiBridge.Manifest.Build
import AbiBridge.Listing
import AbiBridge.World
import AbiBridge.Generation
import AbiBridge.Text.Digit
import AbiBridge.CommandLine.Argument
import AbiBridge.CommandLine.Command
import AbiBridge.CommandLine.Invocation
import AbiBridge.Main
import AbiBridge.Proofs.Name
import AbiBridge.Proofs.Boundary.Named
import AbiBridge.Proofs.Wrapper.Acceptance
import AbiBridge.Proofs.Listwise
import AbiBridge.Proofs.Wrapper.Exit
import AbiBridge.Proofs.Wrapper.Ownership
import AbiBridge.Proofs.Source.Block
import AbiBridge.Proofs.Wrapper.Emission
import AbiBridge.Proofs.Wrapper.ResultProtocol
import AbiBridge.Proofs.Wrapper.Scoping
import AbiBridge.Proofs.Boundary.Grammar
import AbiBridge.Proofs.Boundary.Spelling
import AbiBridge.Proofs.Boundary.RoundTrip
import AbiBridge.Proofs.Crate.Registration
import AbiBridge.Proofs.Crate.Library
import AbiBridge.Proofs.Crate.Atomicity
import AbiBridge.Proofs.Crate.HandleRegistration
import AbiBridge.Proofs.Crate.Capture
import AbiBridge.Proofs.Source.Plain
import AbiBridge.Proofs.Wrapper.SplicedNames
import AbiBridge.Proofs.Source.Step
import AbiBridge.Proofs.Source.Misuse
import AbiBridge.Proofs.Source.Bracketing
import AbiBridge.Proofs.Manifest.Calls
import AbiBridge.Proofs.Crate.Order
import AbiBridge.Proofs.Manifest.Order
import AbiBridge.Proofs.Boundary.Splicing
import AbiBridge.Proofs.Boundary.Substitution
import AbiBridge.Proofs.Manifest.Owner
import AbiBridge.Proofs.Journal
import AbiBridge.Proofs.Crate.Telling
import AbiBridge.Proofs.CommandLine.Course
import AbiBridge.Proofs.Files.Content
import AbiBridge.Proofs.Files.Path
import AbiBridge.Proofs.CommandLine.Ending
import AbiBridge.Proofs.CommandLine.Generation
import AbiBridge.Proofs.CommandLine.Footprint
import AbiBridge.Proofs.Crate.Surface
import AbiBridge.Proofs.Manifest.Surface
import AbiBridge.Proofs.CommandLine.Surface
import AbiBridge.Proofs.Wrapper.FlatSurface
import AbiBridge.Proofs.Toml.Values
import AbiBridge.Proofs.Toml.Inline
import AbiBridge.Proofs.Toml.Assignments
import AbiBridge.Proofs.Toml.Sections
import AbiBridge.Proofs.Crate.ManifestText
import AbiBridge.Proofs.Manifest.Dependencies
import AbiBridge.Proofs.Crate.Placeholder
import AbiBridge.Proofs.Manifest.Data
import AbiBridge.Proofs.Manifest.Ordinals
import AbiBridge.Proofs.Boundary.Spacing
import AbiBridge.Proofs.Wrapper.Qualifiers
import AbiBridge.Proofs.Wrapper.Destructor
import AbiBridge.Proofs.Number.Rounding
import AbiBridge.Proofs.Number.Shortest
import AbiBridge.Proofs.Toml.Escape
import AbiBridge.Proofs.Toml.Numbers
import AbiBridge.Proofs.Toml.RoundTrip
