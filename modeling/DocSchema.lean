/-
  DocSchema.lean
  ==============
  **Validation of Markdown documents against JSON Schemas.**

  The root of the library: it imports every module.
-/
import DocSchema.Board
import DocSchema.Character.Age
import DocSchema.Character.AnyCase
import DocSchema.Character.Break
import DocSchema.Character.Category
import DocSchema.Character.Name
import DocSchema.Character.Script
import DocSchema.Character.Set
import DocSchema.Character.Table
import DocSchema.Character.Trait
import DocSchema.CommandLine.Arguments
import DocSchema.CommandLine.Options
import DocSchema.CommandLine.Run
import DocSchema.Disk
import DocSchema.Document
import DocSchema.Document.Builder
import DocSchema.Document.Node
import DocSchema.Document.Span
import DocSchema.Format.Basic
import DocSchema.Format.Calendar
import DocSchema.Format.Network
import DocSchema.Json.Binary64
import DocSchema.Json.Compare
import DocSchema.Json.Printer
import DocSchema.Json.Reader
import DocSchema.Json.Value
import DocSchema.Locate
import DocSchema.Main
import DocSchema.Markdown.Block
import DocSchema.Markdown.Emphasis
import DocSchema.Markdown.Entity
import DocSchema.Markdown.Event
import DocSchema.Markdown.Html
import DocSchema.Markdown.Inline
import DocSchema.Markdown.Line
import DocSchema.Markdown.Link
import DocSchema.Markdown.Token
import DocSchema.Markdown.Window
import DocSchema.Metadata
import DocSchema.Path
import DocSchema.Path.Map
import DocSchema.Pattern.Basic
import DocSchema.Pattern.ClassSyntax
import DocSchema.Pattern.Expression
import DocSchema.Pattern.Grammar
import DocSchema.Pattern.Plan
import DocSchema.Pattern.Reader
import DocSchema.Pattern.Regular
import DocSchema.Pattern.Search
import DocSchema.Pattern.Size
import DocSchema.Pointer
import DocSchema.Program
import DocSchema.Proofs.Board
import DocSchema.Proofs.Disk
import DocSchema.Proofs.Disk.Files
import DocSchema.Proofs.Disk.Listing
import DocSchema.Proofs.Document.Builder
import DocSchema.Proofs.Document.Conservation
import DocSchema.Proofs.Document.Containment
import DocSchema.Proofs.Document.Exact
import DocSchema.Proofs.Document.Forest
import DocSchema.Proofs.Document.Header
import DocSchema.Proofs.Document.Instance
import DocSchema.Proofs.Document.Line
import DocSchema.Proofs.Document.Literal
import DocSchema.Proofs.Document.Marks
import DocSchema.Proofs.Document.Node
import DocSchema.Proofs.Document.Origin
import DocSchema.Proofs.Document.Position
import DocSchema.Proofs.Document.Proper
import DocSchema.Proofs.Document.Serialized
import DocSchema.Proofs.Document.Shape
import DocSchema.Proofs.Document.Shift
import DocSchema.Proofs.Document.Span
import DocSchema.Proofs.Document.Walk
import DocSchema.Proofs.Execution
import DocSchema.Proofs.Json.Compare
import DocSchema.Proofs.Json.Value
import DocSchema.Proofs.Json.Written
import DocSchema.Proofs.Locate
import DocSchema.Proofs.Locate.Lookup
import DocSchema.Proofs.Markdown.Block
import DocSchema.Proofs.Markdown.Event
import DocSchema.Proofs.Markdown.Header
import DocSchema.Proofs.Markdown.Nesting
import DocSchema.Proofs.Path
import DocSchema.Proofs.Path.Map
import DocSchema.Proofs.Pointer
import DocSchema.Proofs.Report
import DocSchema.Proofs.Report.Collection
import DocSchema.Proofs.Schema.Clean
import DocSchema.Proofs.Schema.Fitting
import DocSchema.Proofs.Schema.Links
import DocSchema.Proofs.Schema.Metaschema
import DocSchema.Proofs.Schema.Plain
import DocSchema.Proofs.Schema.Reading
import DocSchema.Proofs.Schema.Retrieval
import DocSchema.Proofs.Schema.ViolationPath
import DocSchema.Proofs.SchemaRef
import DocSchema.Proofs.SchemaRef.Spelling
import DocSchema.Proofs.Session
import DocSchema.Proofs.Skeleton.Acceptance
import DocSchema.Proofs.Skeleton.Compile
import DocSchema.Proofs.Skeleton.NewFile
import DocSchema.Proofs.Skeleton.Pinning
import DocSchema.Proofs.Skeleton.Shape
import DocSchema.Proofs.Skeleton.WrittenFile
import DocSchema.Proofs.Store
import DocSchema.Proofs.Store.Access
import DocSchema.Proofs.Store.Confinement
import DocSchema.Proofs.Store.Growth
import DocSchema.Proofs.Store.Handles
import DocSchema.Proofs.Store.Overlap
import DocSchema.Proofs.Store.Update
import DocSchema.Proofs.Text.Digits
import DocSchema.Proofs.Validation
import DocSchema.Proofs.Workspace.Alone
import DocSchema.Proofs.Workspace.Event
import DocSchema.Proofs.Workspace.EventEffect
import DocSchema.Proofs.Workspace.LastRun
import DocSchema.Proofs.Workspace.Operation
import DocSchema.Proofs.Workspace.Reload
import DocSchema.Proofs.Workspace.Sweep
import DocSchema.Proofs.Workspace.Views
import DocSchema.Proofs.World
import DocSchema.Proofs.Yaml.Data
import DocSchema.Proofs.Yaml.Flow
import DocSchema.Proofs.Yaml.Trim
import DocSchema.Proofs.Yaml.TrimScalar
import DocSchema.Proofs.Yaml.TrimScan
import DocSchema.Proofs.Yaml.TrimTag
import DocSchema.Proofs.Yaml.TrimTokens
import DocSchema.Report
import DocSchema.Schema.Basic
import DocSchema.Schema.Check
import DocSchema.Schema.Compile
import DocSchema.Schema.Draft
import DocSchema.Schema.Evaluate
import DocSchema.Schema.Fault
import DocSchema.Schema.Metaschema
import DocSchema.Schema.Metaschema.Early
import DocSchema.Schema.Metaschema.Late
import DocSchema.Schema.Metaschema.Pieces
import DocSchema.Schema.Reader
import DocSchema.Schema.Registry
import DocSchema.Schema.Subschema
import DocSchema.SchemaRef
import DocSchema.Settings
import DocSchema.Settings.File
import DocSchema.Skeleton
import DocSchema.Skeleton.File
import DocSchema.Store
import DocSchema.Text.Ascii
import DocSchema.Text.Base64
import DocSchema.Text.CaseFold
import DocSchema.Text.Punctuation
import DocSchema.Text.Quoted
import DocSchema.Text.Split
import DocSchema.Uri
import DocSchema.Uri.Address
import DocSchema.Uri.Syntax
import DocSchema.Validation
import DocSchema.Workspace
import DocSchema.Yaml.Cursor
import DocSchema.Yaml.Data
import DocSchema.Yaml.Resolve
import DocSchema.Yaml.Scalar
import DocSchema.Yaml.Tag
import DocSchema.Yaml.Token
import DocSchema.Yaml.Tree
