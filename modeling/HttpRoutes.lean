import HttpRoutes.Template.Parser
import HttpRoutes.Template.Printer
import HttpRoutes.Template.Binding
import HttpRoutes.Text.Split
import HttpRoutes.Text.Alphanumeric
import HttpRoutes.Text.Digits
import HttpRoutes.Text.Trim
import HttpRoutes.Text.Printable
import HttpRoutes.Text.Quoted
import HttpRoutes.Text.Percent
import HttpRoutes.Request.Method
import HttpRoutes.Request.Path
import HttpRoutes.Router.Trie
import HttpRoutes.Log.Event
import HttpRoutes.Router.Route
import HttpRoutes.Router.Builder
import HttpRoutes.Router.Matcher
import HttpRoutes.Router.Handle
import HttpRoutes.Projection.Regex
import HttpRoutes.Projection.Rename
import HttpRoutes.Projection.CamelCase
import HttpRoutes.Json.Reader
import HttpRoutes.Json.Printer
import HttpRoutes.Rule.Basic
import HttpRoutes.Rule.Decoding
import HttpRoutes.Rule.Json
import HttpRoutes.Yaml.Scalar
import HttpRoutes.Yaml.Block
import HttpRoutes.Yaml.Token.Basic
import HttpRoutes.Yaml.Token.Tag
import HttpRoutes.Yaml.Token.Scan
import HttpRoutes.Yaml.Token.Lexer
import HttpRoutes.Yaml.Node.Basic
import HttpRoutes.Yaml.Node.Reader
import HttpRoutes.Rule.Yaml
import HttpRoutes.File.Path
import HttpRoutes.File.Basic
import HttpRoutes.Settings.Environment
import HttpRoutes.Settings.Table
import HttpRoutes.Settings.Filter
import HttpRoutes.Settings.Log
import HttpRoutes.Rule.Document
import HttpRoutes.Rule.Table
import HttpRoutes.Rule.Reload
import HttpRoutes.CommandLine.Arguments
import HttpRoutes.CommandLine.Command
import HttpRoutes.CommandLine.Run
import HttpRoutes.CommandLine.Message
import HttpRoutes.Main
import HttpRoutes.Proofs.Template.Spelling
import HttpRoutes.Proofs.Template.Reading
import HttpRoutes.Proofs.Template.WellFormed
import HttpRoutes.Proofs.Template.Canonical
import HttpRoutes.Proofs.Request.Path
import HttpRoutes.Proofs.Request.Method
import HttpRoutes.Proofs.Request.Slashes
import HttpRoutes.Proofs.Router.Paths
import HttpRoutes.Proofs.Router.Registration
import HttpRoutes.Proofs.Router.Conflict
import HttpRoutes.Proofs.Router.Search
import HttpRoutes.Proofs.Router.Selection
import HttpRoutes.Proofs.Router.Cut
import HttpRoutes.Proofs.Router.Capture
import HttpRoutes.Proofs.Router.Methods
import HttpRoutes.Proofs.Rule.Table
import HttpRoutes.Proofs.CommandLine.Run
import HttpRoutes.Proofs.Projection.Language
import HttpRoutes.Proofs.Projection.Agreement
import HttpRoutes.Proofs.Router.Representation
import HttpRoutes.Proofs.Template.Grammar
import HttpRoutes.Proofs.Router.Order
import HttpRoutes.Proofs.Router.Growth
import HttpRoutes.Proofs.Router.Specificity
import HttpRoutes.Proofs.Router.Reachability
import HttpRoutes.Proofs.Rule.Attribution
import HttpRoutes.Proofs.Rule.Policy
import HttpRoutes.Proofs.Rule.Reload
import HttpRoutes.Proofs.Rule.Watch
import HttpRoutes.Proofs.Text.Bytes
import HttpRoutes.Proofs.Projection.Occurrence
import HttpRoutes.Proofs.Projection.Rename
import HttpRoutes.Proofs.Template.Parts
import HttpRoutes.Proofs.Projection.Fields
import HttpRoutes.Proofs.Projection.CamelCase
import HttpRoutes.Proofs.Text.Percent
import HttpRoutes.Proofs.Router.Decoding
import HttpRoutes.Proofs.Text.Position
import HttpRoutes.Proofs.Template.Scanner
import HttpRoutes.Proofs.Template.InPlace
import HttpRoutes.Proofs.Template.Locality
import HttpRoutes.Proofs.Router.Update
import HttpRoutes.Proofs.Router.Visitor
import HttpRoutes.Proofs.Router.Sharing
import HttpRoutes.Proofs.Rule.RoundTrip
import HttpRoutes.Proofs.Template.Placement
import HttpRoutes.Proofs.Rule.Watch
