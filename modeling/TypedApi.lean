import TypedApi.Bindings.Basic
import TypedApi.Bindings.Definition
import TypedApi.Bindings.Docs
import TypedApi.Bindings.Method
import TypedApi.Bindings.TypeExpr
import TypedApi.Command.Arguments
import TypedApi.Command.Config
import TypedApi.Command.Convert
import TypedApi.Command.Generate
import TypedApi.Command.Run
import TypedApi.Command.Task
import TypedApi.Console.Basic
import TypedApi.Conversion
import TypedApi.Decimal.Arithmetic
import TypedApi.Decimal.Binary64
import TypedApi.Decimal.Shortest
import TypedApi.Docs.Charset
import TypedApi.Docs.Digest
import TypedApi.Docs.Fetcher
import TypedApi.Docs.Network
import TypedApi.Document.Basic
import TypedApi.Document.Coercion
import TypedApi.Document.Display
import TypedApi.Document.Json.Plain
import TypedApi.Document.Json.Reader
import TypedApi.Document.Json.Writer
import TypedApi.Document.Moment
import TypedApi.Document.Pointer
import TypedApi.Document.Yaml.Block
import TypedApi.Document.Yaml.Construction
import TypedApi.Document.Yaml.Cursor
import TypedApi.Document.Yaml.Node
import TypedApi.Document.Yaml.Plain
import TypedApi.Document.Yaml.Quoted
import TypedApi.Document.Yaml.Scalar
import TypedApi.Document.Yaml.Tag
import TypedApi.Document.Yaml.Token
import TypedApi.Dump
import TypedApi.Failure
import TypedApi.Graph.Build
import TypedApi.Graph.Capability
import TypedApi.Graph.Finish
import TypedApi.Graph.Item
import TypedApi.Graph.Model
import TypedApi.Graph.Shape
import TypedApi.Main
import TypedApi.Name.Words
import TypedApi.Operation.Basic
import TypedApi.Operation.Bodies
import TypedApi.Operation.Headers
import TypedApi.Operation.Parameters
import TypedApi.Operation.Responses
import TypedApi.Operation.Signature
import TypedApi.Proofs.Bindings.Arguments
import TypedApi.Proofs.Bindings.Comments
import TypedApi.Proofs.Bindings.Demands
import TypedApi.Proofs.Bindings.DocLiterals
import TypedApi.Proofs.Bindings.Enumerations
import TypedApi.Proofs.Bindings.Evaluated
import TypedApi.Proofs.Bindings.Keys
import TypedApi.Proofs.Bindings.Lines
import TypedApi.Proofs.Bindings.Literals
import TypedApi.Proofs.Bindings.Mentions
import TypedApi.Proofs.Bindings.Named
import TypedApi.Proofs.Bindings.Scopes
import TypedApi.Proofs.Bindings.Total
import TypedApi.Proofs.Build.Abreast
import TypedApi.Proofs.Build.Along
import TypedApi.Proofs.Build.Blame
import TypedApi.Proofs.Build.Follows
import TypedApi.Proofs.Build.Keeps
import TypedApi.Proofs.Build.Likewise
import TypedApi.Proofs.Build.Paired
import TypedApi.Proofs.Build.Parallel
import TypedApi.Proofs.Build.Run
import TypedApi.Proofs.Build.Slack
import TypedApi.Proofs.Build.Step
import TypedApi.Proofs.Build.Tied
import TypedApi.Proofs.Command.Config
import TypedApi.Proofs.Conversion.AliasOrder
import TypedApi.Proofs.Conversion.AliasRings
import TypedApi.Proofs.Conversion.Appending
import TypedApi.Proofs.Conversion.Blame
import TypedApi.Proofs.Conversion.Calls
import TypedApi.Proofs.Conversion.Finished
import TypedApi.Proofs.Conversion.Homed
import TypedApi.Proofs.Conversion.Likewise
import TypedApi.Proofs.Conversion.Options
import TypedApi.Proofs.Conversion.Paired
import TypedApi.Proofs.Conversion.Parallel
import TypedApi.Proofs.Conversion.Registered
import TypedApi.Proofs.Conversion.Reordered
import TypedApi.Proofs.Conversion.SchemaOrder
import TypedApi.Proofs.Conversion.SchemaReference
import TypedApi.Proofs.Conversion.Stages
import TypedApi.Proofs.Conversion.Steps
import TypedApi.Proofs.Docs.Sessions
import TypedApi.Proofs.Document.Emptied
import TypedApi.Proofs.Document.Fields
import TypedApi.Proofs.Document.Flagged
import TypedApi.Proofs.Document.Follow
import TypedApi.Proofs.Document.Json.Made
import TypedApi.Proofs.Document.Json.Written
import TypedApi.Proofs.Document.Layered
import TypedApi.Proofs.Document.Legible
import TypedApi.Proofs.Document.Location
import TypedApi.Proofs.Document.Pointer
import TypedApi.Proofs.Document.Reordered
import TypedApi.Proofs.Document.Roles
import TypedApi.Proofs.Document.Walk
import TypedApi.Proofs.Graph.Alias
import TypedApi.Proofs.Graph.Capability
import TypedApi.Proofs.Graph.Finish
import TypedApi.Proofs.Graph.Isomorphic
import TypedApi.Proofs.Graph.Naming
import TypedApi.Proofs.Graph.Relocation
import TypedApi.Proofs.Graph.View
import TypedApi.Proofs.Name.Camel
import TypedApi.Proofs.Name.Identifier
import TypedApi.Proofs.Name.Plain
import TypedApi.Proofs.Name.Safe
import TypedApi.Proofs.Name.Snake
import TypedApi.Proofs.Name.Substitution
import TypedApi.Proofs.Name.Words
import TypedApi.Proofs.Operation.Abreast
import TypedApi.Proofs.Operation.Blame
import TypedApi.Proofs.Operation.Changes
import TypedApi.Proofs.Operation.Homed
import TypedApi.Proofs.Operation.Likewise
import TypedApi.Proofs.Operation.Paired
import TypedApi.Proofs.Operation.Parallel
import TypedApi.Proofs.Operation.Sealed
import TypedApi.Proofs.Operation.Steps
import TypedApi.Proofs.Operation.Touches
import TypedApi.Proofs.Schema.Abreast
import TypedApi.Proofs.Schema.Blame
import TypedApi.Proofs.Schema.Denotation
import TypedApi.Proofs.Schema.Faithful
import TypedApi.Proofs.Schema.Flagged
import TypedApi.Proofs.Schema.Grows
import TypedApi.Proofs.Schema.Likewise
import TypedApi.Proofs.Schema.Paired
import TypedApi.Proofs.Schema.Parallel
import TypedApi.Proofs.Schema.Range
import TypedApi.Proofs.Schema.Reading
import TypedApi.Proofs.Schema.Steps
import TypedApi.Proofs.Settings.Fields
import TypedApi.Proofs.Settings.Precedence
import TypedApi.Proofs.Settings.Stored
import TypedApi.Proofs.Signature.Accept
import TypedApi.Proofs.Signature.BodyNames
import TypedApi.Proofs.Signature.Declarations
import TypedApi.Proofs.Signature.HeaderChains
import TypedApi.Proofs.Signature.Omission
import TypedApi.Proofs.Signature.Parameters
import TypedApi.Proofs.Signature.Parts
import TypedApi.Proofs.Signature.Positions
import TypedApi.Proofs.Signature.Several
import TypedApi.Proofs.Signature.Shared
import TypedApi.Proofs.Signature.Union
import TypedApi.Proofs.Signature.Wrapped
import TypedApi.Proofs.Text.Numeral
import TypedApi.Proofs.Workspace.Folders
import TypedApi.Schema.Bounds
import TypedApi.Schema.Lowering
import TypedApi.Schema.Scalar
import TypedApi.Settings.Basic
import TypedApi.Settings.Edit
import TypedApi.Settings.Layer
import TypedApi.Settings.Store
import TypedApi.Source.Load
import TypedApi.Table
import TypedApi.Text.Base64
import TypedApi.Text.Blank
import TypedApi.Text.Case
import TypedApi.Text.Digit
import TypedApi.Text.Half
import TypedApi.Text.Lower
import TypedApi.Text.Printable
import TypedApi.Text.Quoted
import TypedApi.Text.Sigma
import TypedApi.Text.Upper
import TypedApi.Text.Utf8
import TypedApi.Url.Basic
import TypedApi.Url.Domain.Basic
import TypedApi.Url.Domain.Composition
import TypedApi.Url.Domain.Context
import TypedApi.Url.Domain.Direction
import TypedApi.Url.Domain.Letter
import TypedApi.Url.Domain.Mark
import TypedApi.Url.Domain.Punycode
import TypedApi.Url.Host
import TypedApi.Url.Parts
import TypedApi.Url.Percent
import TypedApi.Url.Reading
import TypedApi.Url.Reference
import TypedApi.Workspace.Basic
