import TypedIR.Arena.Basic
import TypedIR.Arena.Entry
import TypedIR.Arena.Functions
import TypedIR.Arena.Instructions
import TypedIR.Arena.Reference
import TypedIR.Arena.System
import TypedIR.Arena.Values
import TypedIR.Attribute.Basic
import TypedIR.Attribute.Json
import TypedIR.Attribute.Kind
import TypedIR.Attribute.Table
import TypedIR.Check.Finding
import TypedIR.Check.Structure
import TypedIR.CommandLine.Arguments
import TypedIR.CommandLine.Directory
import TypedIR.CommandLine.Interaction
import TypedIR.CommandLine.Program
import TypedIR.CommandLine.Tasks
import TypedIR.Context.Attributes
import TypedIR.Context.Basic
import TypedIR.Context.Constants
import TypedIR.Context.Functions
import TypedIR.Context.Instructions
import TypedIR.Context.Types
import TypedIR.Convention
import TypedIR.Description.Basic
import TypedIR.Description.Build
import TypedIR.Description.Draft
import TypedIR.Description.Fault
import TypedIR.Description.Reader
import TypedIR.Diagnostic
import TypedIR.Engine.Basic
import TypedIR.Engine.Reference
import TypedIR.Engine.Scripted
import TypedIR.Entry
import TypedIR.Event
import TypedIR.Fault
import TypedIR.Flow.Dominators
import TypedIR.Flow.Graph
import TypedIR.Flow.Order
import TypedIR.Handle
import TypedIR.InPlace
import TypedIR.Instruction
import TypedIR.Json.Basic
import TypedIR.Json.Fields
import TypedIR.Json.Magnitude
import TypedIR.Json.Reader
import TypedIR.Json.Writer
import TypedIR.Label
import TypedIR.Main
import TypedIR.Map
import TypedIR.Operation
import TypedIR.Print.Module
import TypedIR.Print.Names
import TypedIR.Print.Operand
import TypedIR.Proofs.Arena.Contents
import TypedIR.Proofs.Arena.Deletion
import TypedIR.Proofs.Arena.Edits
import TypedIR.Proofs.Arena.Functions
import TypedIR.Proofs.Arena.Instructions
import TypedIR.Proofs.Arena.Names
import TypedIR.Proofs.Arena.Ownership
import TypedIR.Proofs.Arena.Reading
import TypedIR.Proofs.Arena.Refusals
import TypedIR.Proofs.Arena.Runs
import TypedIR.Proofs.Arena.Transactions
import TypedIR.Proofs.Arena.Types
import TypedIR.Proofs.Arena.Values
import TypedIR.Proofs.Attribute.Table
import TypedIR.Proofs.Check.Agreement
import TypedIR.Proofs.Check.Blocks
import TypedIR.Proofs.Check.Findings
import TypedIR.Proofs.Check.Local
import TypedIR.Proofs.Check.Order
import TypedIR.Proofs.Check.Paths
import TypedIR.Proofs.Check.Records
import TypedIR.Proofs.Check.Safety
import TypedIR.Proofs.Check.Unreachable
import TypedIR.Proofs.Check.Uses
import TypedIR.Proofs.Check.Verdict
import TypedIR.Proofs.Check.WellFormed
import TypedIR.Proofs.CommandLine.Building
import TypedIR.Proofs.CommandLine.Conclusion
import TypedIR.Proofs.CommandLine.Scripts
import TypedIR.Proofs.CommandLine.Truth
import TypedIR.Proofs.Context.Appending
import TypedIR.Proofs.Context.Attributes
import TypedIR.Proofs.Context.Change
import TypedIR.Proofs.Context.Conditions
import TypedIR.Proofs.Context.Instructions
import TypedIR.Proofs.Context.Lookup
import TypedIR.Proofs.Context.Operations
import TypedIR.Proofs.Context.Rules
import TypedIR.Proofs.Context.Views
import TypedIR.Proofs.Description.Arguments
import TypedIR.Proofs.Description.Attachments
import TypedIR.Proofs.Description.Blocks
import TypedIR.Proofs.Description.Bodies
import TypedIR.Proofs.Description.Construction
import TypedIR.Proofs.Description.Declarations
import TypedIR.Proofs.Description.Growth
import TypedIR.Proofs.Description.Idle
import TypedIR.Proofs.Description.Instructions
import TypedIR.Proofs.Description.Mirror
import TypedIR.Proofs.Description.Modules
import TypedIR.Proofs.Description.Operands
import TypedIR.Proofs.Description.Types
import TypedIR.Proofs.Description.Typing
import TypedIR.Proofs.Flow.Ancestors
import TypedIR.Proofs.Flow.Checked
import TypedIR.Proofs.Flow.Dominance
import TypedIR.Proofs.Flow.Intersection
import TypedIR.Proofs.Flow.Order
import TypedIR.Proofs.Flow.Path
import TypedIR.Proofs.Ownership.Constants
import TypedIR.Proofs.Ownership.Deletion
import TypedIR.Proofs.Ownership.Growth
import TypedIR.Proofs.Ownership.Integers
import TypedIR.Proofs.Ownership.Invariant
import TypedIR.Proofs.Ownership.Names
import TypedIR.Proofs.Ownership.References
import TypedIR.Proofs.Ownership.Release
import TypedIR.Proofs.Ownership.Stability
import TypedIR.Proofs.Ownership.Typing
import TypedIR.Proofs.Print.Attributes
import TypedIR.Proofs.Print.Labels
import TypedIR.Proofs.Print.Locals
import TypedIR.Proofs.Print.Mentions
import TypedIR.Proofs.Print.Pieces
import TypedIR.Proofs.Print.Summary
import TypedIR.Proofs.Print.Symbols
import TypedIR.Proofs.Print.Total
import TypedIR.Proofs.Text.Bytes
import TypedIR.Proofs.Text.Lines
import TypedIR.Proofs.Types.Canonical
import TypedIR.Proofs.Types.Grammar
import TypedIR.Proofs.Types.Operands
import TypedIR.Proofs.Types.Reading
import TypedIR.Proofs.Types.Text
import TypedIR.Proofs.Types.Tree
import TypedIR.Proofs.Workspace.Actions
import TypedIR.Proofs.Workspace.Appending
import TypedIR.Proofs.Workspace.Atomicity
import TypedIR.Proofs.Workspace.AttributeTexts
import TypedIR.Proofs.Workspace.Attributes
import TypedIR.Proofs.Workspace.Balance
import TypedIR.Proofs.Workspace.BlockNames
import TypedIR.Proofs.Workspace.Builds
import TypedIR.Proofs.Workspace.Commands
import TypedIR.Proofs.Workspace.Constants
import TypedIR.Proofs.Workspace.Constructions
import TypedIR.Proofs.Workspace.Conventions
import TypedIR.Proofs.Workspace.Dead
import TypedIR.Proofs.Workspace.DeadHandles
import TypedIR.Proofs.Workspace.Deals
import TypedIR.Proofs.Workspace.Edits
import TypedIR.Proofs.Workspace.Emission
import TypedIR.Proofs.Workspace.Histories
import TypedIR.Proofs.Workspace.Integers
import TypedIR.Proofs.Workspace.Invalidation
import TypedIR.Proofs.Workspace.Isolation
import TypedIR.Proofs.Workspace.Judgements
import TypedIR.Proofs.Workspace.LocalFaults
import TypedIR.Proofs.Workspace.Locality
import TypedIR.Proofs.Workspace.Lowering
import TypedIR.Proofs.Workspace.Names
import TypedIR.Proofs.Workspace.Natives
import TypedIR.Proofs.Workspace.Printing
import TypedIR.Proofs.Workspace.Queries
import TypedIR.Proofs.Workspace.Reachable
import TypedIR.Proofs.Workspace.Reading
import TypedIR.Proofs.Workspace.Recording
import TypedIR.Proofs.Workspace.Records
import TypedIR.Proofs.Workspace.Reporting
import TypedIR.Proofs.Workspace.Requests
import TypedIR.Proofs.Workspace.Rollback
import TypedIR.Proofs.Workspace.Slots
import TypedIR.Proofs.Workspace.Stability
import TypedIR.Proofs.Workspace.Store
import TypedIR.Proofs.Workspace.Strings
import TypedIR.Proofs.Workspace.Tasks
import TypedIR.Proofs.Workspace.Types
import TypedIR.Proofs.Workspace.Unrecorded
import TypedIR.Proofs.Workspace.Verification
import TypedIR.Settings
import TypedIR.Store
import TypedIR.Summary
import TypedIR.Table
import TypedIR.Text.Blank
import TypedIR.Text.ByteEscape
import TypedIR.Text.ControlSequence
import TypedIR.Text.Lines
import TypedIR.Types.Reader
import TypedIR.Types.Shape
import TypedIR.Types.Tree
import TypedIR.Workspace.Abort
import TypedIR.Workspace.Action
import TypedIR.Workspace.Command
import TypedIR.Workspace.Query
