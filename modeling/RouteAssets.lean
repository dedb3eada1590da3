import RouteAssets.Build.Emission
import RouteAssets.Build.Event
import RouteAssets.Build.Findings
import RouteAssets.Build.Generation
import RouteAssets.Build.Options
import RouteAssets.Build.Reading
import RouteAssets.Build.Step
import RouteAssets.Chunk.Basic
import RouteAssets.Chunk.Bundle
import RouteAssets.Chunk.Expansion
import RouteAssets.Chunk.Manifest
import RouteAssets.Chunk.Placement
import RouteAssets.Chunk.Selection
import RouteAssets.Command.Arguments
import RouteAssets.Command.Failure
import RouteAssets.Command.Session
import RouteAssets.Command.Watching
import RouteAssets.Config.Loading
import RouteAssets.Config.Setting
import RouteAssets.Config.Time
import RouteAssets.Decimal.Binary64
import RouteAssets.Decimal.Shortest
import RouteAssets.Disk.Basic
import RouteAssets.Disk.Change
import RouteAssets.Graph.Basic
import RouteAssets.Graph.Walk
import RouteAssets.Imports.Answer
import RouteAssets.Imports.Dynamic
import RouteAssets.Imports.Static
import RouteAssets.Json.Reader
import RouteAssets.Json.Validation
import RouteAssets.Json.Value
import RouteAssets.Json.Writer
import RouteAssets.Main
import RouteAssets.Module.Id
import RouteAssets.Module.Lookup
import RouteAssets.Notice
import RouteAssets.Path
import RouteAssets.Proofs.Build.Denotation
import RouteAssets.Proofs.Build.Edges
import RouteAssets.Proofs.Build.Modules
import RouteAssets.Proofs.Build.Outcome
import RouteAssets.Proofs.Build.Reading
import RouteAssets.Proofs.Build.Resolving
import RouteAssets.Proofs.Build.RouteMap
import RouteAssets.Proofs.Build.Run
import RouteAssets.Proofs.Chunk.Placement
import RouteAssets.Proofs.Graph.Reachability
import RouteAssets.Proofs.Imports.Asking
import RouteAssets.Proofs.Imports.Precheck
import RouteAssets.Proofs.Module.Memory
import RouteAssets.Proofs.Path
import RouteAssets.Proofs.Script.Grammar
import RouteAssets.Proofs.Script.Lexeme
import RouteAssets.Proofs.Script.Lossless
import RouteAssets.Proofs.Script.Walk
import RouteAssets.Proofs.Table
import RouteAssets.Proofs.Text.Occurrence
import RouteAssets.Registration.Collection
import RouteAssets.Registration.Comments
import RouteAssets.Registration.Entry
import RouteAssets.Route.Basic
import RouteAssets.Route.Definition
import RouteAssets.Route.Description
import RouteAssets.Route.Files
import RouteAssets.Route.Resolution
import RouteAssets.Script.Component
import RouteAssets.Script.Cursor
import RouteAssets.Script.Dialect
import RouteAssets.Script.Grammar.Declarations
import RouteAssets.Script.Grammar.Expressions
import RouteAssets.Script.Grammar.Functions
import RouteAssets.Script.Grammar.Goal
import RouteAssets.Script.Grammar.Markup
import RouteAssets.Script.Grammar.Patterns
import RouteAssets.Script.Grammar.Statements
import RouteAssets.Script.Grammar.Types
import RouteAssets.Script.Lexeme
import RouteAssets.Script.Literal
import RouteAssets.Script.Parser
import RouteAssets.Script.Query
import RouteAssets.Script.Rule
import RouteAssets.Script.Source
import RouteAssets.Script.Tree
import RouteAssets.Table
import RouteAssets.Text.Blank
import RouteAssets.Text.Order
import RouteAssets.Text.Pattern
import RouteAssets.Text.Printable
import RouteAssets.Text.Quoted
import RouteAssets.Text.Search
import RouteAssets.Text.Utf8
import RouteAssets.Text.WordChar
import RouteAssets.Usage
import RouteAssets.Usage.Listing
import RouteAssets.Watch.Difference
import RouteAssets.Watch.Service
import RouteAssets.Yaml.Cursor
import RouteAssets.Yaml.Node
import RouteAssets.Yaml.Reader
import RouteAssets.Yaml.Scalar
import RouteAssets.Yaml.Token
import RouteAssets.Yaml.Typing
import RouteAssets.Yaml.Writer
import RouteAssets.Proofs.Build.Composition
import RouteAssets.Proofs.Build.Forgetting
import RouteAssets.Proofs.Build.Growth
import RouteAssets.Proofs.Build.Order
import RouteAssets.Proofs.Build.Retention
import RouteAssets.Proofs.Disk.Tree
import RouteAssets.Proofs.Module.Canonical
import RouteAssets.Proofs.Build.Changes
import RouteAssets.Proofs.Build.Events
import RouteAssets.Proofs.Chunk.Expansion
import RouteAssets.Proofs.Build.Styles
import RouteAssets.Proofs.Graph.Sharing
import RouteAssets.Proofs.Registration.Collection
import RouteAssets.Proofs.Chunk.Description
import RouteAssets.Proofs.Command.Session
import RouteAssets.Proofs.Command.Watching
import RouteAssets.Proofs.Route.Definition
import RouteAssets.Proofs.Script.Query
import RouteAssets.Proofs.Graph.Expanding
import RouteAssets.Proofs.Json.RoundTrip
import RouteAssets.Proofs.Outcome
import RouteAssets.Proofs.Build.Emission
import RouteAssets.Proofs.Disk.Writing
import RouteAssets.Proofs.Build.Neutrality
import RouteAssets.Proofs.Registration.Extent
import RouteAssets.Proofs.Registration.Comments
import RouteAssets.Proofs.Registration.Rendering
import RouteAssets.Proofs.Route.Ending
import RouteAssets.Proofs.Route.Resolution
import RouteAssets.Proofs.Route.Files
import RouteAssets.Proofs.Script.Wrapping
import RouteAssets.Proofs.Registration.Genuine
import RouteAssets.Proofs.Route.Wrapping
import RouteAssets.Proofs.Disk.Normal
import RouteAssets.Proofs.Imports.Collection
import RouteAssets.Proofs.Module.Alias
import RouteAssets.Proofs.Module.History
import RouteAssets.Proofs.Module.Probing
import RouteAssets.Proofs.Json.Occurrence
import RouteAssets.Proofs.Disk.Overwriting
import RouteAssets.Proofs.Build.Patching
import RouteAssets.Proofs.Build.Announcing
import RouteAssets.Proofs.Chunk.Manifest
import RouteAssets.Proofs.Build.Lifecycle
import RouteAssets.Proofs.Script.Written
import RouteAssets.Proofs.Usage.Spelling
import RouteAssets.Proofs.Script.Erasure
import RouteAssets.Proofs.Imports.Erasure
import RouteAssets.Proofs.Config.Entries
import RouteAssets.Proofs.Config.Loading
import RouteAssets.Proofs.Config.Merging
import RouteAssets.Proofs.Config.Sections
import RouteAssets.Proofs.Script.Assembly
import RouteAssets.Proofs.Script.Position
import RouteAssets.Proofs.Imports.Searching
import RouteAssets.Proofs.Watch.Service
import RouteAssets.Proofs.Disk.Keeping
import RouteAssets.Proofs.Build.Refusal
import RouteAssets.Proofs.Command.Reporting
import RouteAssets.Proofs.Script.Mention
import RouteAssets.Proofs.Script.Language
import RouteAssets.Proofs.Script.Escaping
import RouteAssets.Proofs.Script.Literal
