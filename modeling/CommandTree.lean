import CommandTree.Action
import CommandTree.Annotation
import CommandTree.Assoc
import CommandTree.Binary
import CommandTree.Child
import CommandTree.Config.Basic
import CommandTree.Datum.Basic
import CommandTree.Datum.Equality
import CommandTree.Datum.Members
import CommandTree.Datum.Ordinal
import CommandTree.Datum.View
import CommandTree.Declaration
import CommandTree.Docs.Basic
import CommandTree.Docs.Block
import CommandTree.Docs.Source
import CommandTree.Failure
import CommandTree.Fault.Basic
import CommandTree.Fault.Cause
import CommandTree.Fault.Kind
import CommandTree.Fault.Report
import CommandTree.Fault.Trigger
import CommandTree.FileTree.Basic
import CommandTree.FileTree.Directories
import CommandTree.FileTree.Path
import CommandTree.FrontEnd.Configure
import CommandTree.FrontEnd.Invocation
import CommandTree.FrontEnd.Serve
import CommandTree.FrontEnd.Split
import CommandTree.Host
import CommandTree.Internal
import CommandTree.Main
import CommandTree.Node.Basic
import CommandTree.Node.Describe
import CommandTree.Node.Resolve
import CommandTree.Node.Run
import CommandTree.Node.Validate
import CommandTree.OptionLine.Basic
import CommandTree.OptionLine.Index
import CommandTree.OsError
import CommandTree.Proofs.Fault.Surfacing
import CommandTree.Proofs.FileTree.Refusals
import CommandTree.Proofs.FileTree.Walk
import CommandTree.Proofs.FileTree.Writing
import CommandTree.Proofs.FrontEnd.Passing
import CommandTree.Proofs.FrontEnd.Reporting
import CommandTree.Proofs.FrontEnd.Serving
import CommandTree.Proofs.Node.Agreement
import CommandTree.Proofs.Node.Answers
import CommandTree.Proofs.Node.Completion
import CommandTree.Proofs.Node.Help
import CommandTree.Proofs.Node.Invocation
import CommandTree.Proofs.Node.Listing
import CommandTree.Proofs.Node.Places
import CommandTree.Proofs.Node.Resolution
import CommandTree.Proofs.Node.Survey
import CommandTree.Proofs.Node.Unlimited
import CommandTree.Proofs.Node.Validation
import CommandTree.Proofs.Script.Compilation
import CommandTree.Proofs.Script.Loading
import CommandTree.Proofs.Script.OptionLines
import CommandTree.Proofs.Signature.Account
import CommandTree.Proofs.Signature.Assignment
import CommandTree.Proofs.Signature.Inference
import CommandTree.Proofs.Signature.Layout
import CommandTree.Proofs.Signature.Locality
import CommandTree.Proofs.Signature.Reading
import CommandTree.Proofs.Signature.Serialization
import CommandTree.Proofs.Signature.Spelling
import CommandTree.Proofs.Signature.Steps
import CommandTree.Proofs.Signature.Switches
import CommandTree.Proofs.Signature.Terminator
import CommandTree.Proofs.Text.Order
import CommandTree.Proofs.Usage.Confinement
import CommandTree.Proofs.Usage.Grammar
import CommandTree.Proofs.Usage.Order
import CommandTree.Proofs.Usage.Recovery
import CommandTree.Proofs.Usage.RoundTrip
import CommandTree.Proofs.Usage.Words
import CommandTree.Script
import CommandTree.Signature.Basic
import CommandTree.Signature.Fault
import CommandTree.Signature.Help
import CommandTree.Signature.Parse
import CommandTree.Signature.Values
import CommandTree.Signature.Words
import CommandTree.Text.Basic
import CommandTree.Text.Blank
import CommandTree.Text.Console
import CommandTree.Text.Ident
import CommandTree.Text.Letter
import CommandTree.Text.Ordinal
import CommandTree.Text.Printable
import CommandTree.Text.Quoted
import CommandTree.Text.Similarity
import CommandTree.Text.Styled
import CommandTree.Text.UpperCase
import CommandTree.Text.Utf8
import CommandTree.Text.Width
import CommandTree.Usage.Basic
import CommandTree.Usage.Draft
import CommandTree.Usage.Parser
import CommandTree.Proofs.Text.Blank
import CommandTree.Proofs.Text.Utf8
import CommandTree.Proofs.Docs.Block
import CommandTree.Proofs.Docs.EmptyLines
import CommandTree.Proofs.Docs.Outline
import CommandTree.Proofs.Docs.Sections
import CommandTree.Proofs.OptionLine.Grammar
import CommandTree.Proofs.Script.UsageLine
import CommandTree.Proofs.FrontEnd.Separator
import CommandTree.Proofs.Signature.NextWord
