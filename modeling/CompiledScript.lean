import CompiledScript.Wire.Decoder
import CompiledScript.Wire.Encoder
import CompiledScript.Auxiliary.JumpTable
import CompiledScript.Auxiliary.Basic
import CompiledScript.Auxiliary.Codec
import CompiledScript.ExceptionRange
import CompiledScript.Literal.Basic
import CompiledScript.Literal.Dictionary
import CompiledScript.Literal.Codec
import CompiledScript.Literal.HostType
import CompiledScript.Container.Basic
import CompiledScript.Container.Codec
import CompiledScript.Wire.Field
import CompiledScript.Script.Cursor
import CompiledScript.Script.Backslash
import CompiledScript.Script.Parser
import CompiledScript.Definition.Dialect
import CompiledScript.Definition.Scan
import CompiledScript.Host.Argument
import CompiledScript.Host.Basic
import CompiledScript.Replay
import CompiledScript.Rehearsal.Host
import CompiledScript.Rehearsal.Scenario
import CompiledScript.Container.WireKind
import CompiledScript.Decimal.Binary
import CompiledScript.Decimal.Layout
import CompiledScript.Listing
import CompiledScript.Interpreter.State
import CompiledScript.Text.Blank
import CompiledScript.Text.Shown
import CompiledScript.Interpreter.Evaluate
import CompiledScript.Interpreter.Host
import CompiledScript.Json.Container
import CompiledScript.Toml.Document
import CompiledScript.CommandLine.Failure
import CompiledScript.CommandLine.Settings
import CompiledScript.Verification
import CompiledScript.CommandLine.Arguments
import CompiledScript.CommandLine.Program
import CompiledScript.Main
import CompiledScript.Proofs.Wire.Output
import CompiledScript.Proofs.Wire.Recovery
import CompiledScript.Proofs.Literal.Alike
import CompiledScript.Proofs.Literal.Equivalence
import CompiledScript.Proofs.Auxiliary.Recovery
import CompiledScript.Proofs.Literal.Dictionary
import CompiledScript.Proofs.Literal.Output
import CompiledScript.Proofs.Literal.Recovery
import CompiledScript.Proofs.Container.Recovery
import CompiledScript.Proofs.Literal.Canonical
import CompiledScript.Proofs.Container.Canonical
import CompiledScript.Proofs.Splice.CommandTable
import CompiledScript.Proofs.Splice.Restoration
import CompiledScript.Proofs.Interpreter.Commands
import CompiledScript.Proofs.Container.Loosening
import CompiledScript.Proofs.Save
import CompiledScript.Proofs.Splice.Registry
import CompiledScript.Proofs.Definition.Placement
import CompiledScript.Proofs.Splice.Calls
import CompiledScript.Proofs.Splice.Precompiled
import CompiledScript.Proofs.Wire.Extent
import CompiledScript.Proofs.Container.Extent
import CompiledScript.Proofs.Auxiliary.Normalisation
import CompiledScript.Proofs.Literal.Normalisation
import CompiledScript.Proofs.Container.Normalisation
import CompiledScript.Proofs.Container.Room
import CompiledScript.Proofs.Splice.InForce
import CompiledScript.Proofs.Splice.InOrder
import CompiledScript.Proofs.Verification
import CompiledScript.Proofs.Wire.Demand
import CompiledScript.Proofs.Container.Demand
import CompiledScript.Proofs.FailedSave
import CompiledScript.Proofs.Script.Bytewise
import CompiledScript.Proofs.Script.Movement
import CompiledScript.Proofs.Script.Agreement
import CompiledScript.Proofs.Script.Progress
import CompiledScript.Proofs.Definition.Tracing
import CompiledScript.Proofs.Definition.Lines
import CompiledScript.Proofs.Container.LooserBounds
import CompiledScript.Proofs.Splice.Recognition
import CompiledScript.Proofs.Splice.SeveralLoads
import CompiledScript.Proofs.Script.Displacement
import CompiledScript.Proofs.Script.Locality
import CompiledScript.Proofs.Script.Boundary
import CompiledScript.Proofs.Definition.Values
import CompiledScript.Proofs.Definition.Composition
import CompiledScript.Proofs.Literal.Construction
import CompiledScript.Proofs.Container.Bounds
import CompiledScript.Proofs.Splice.Refusals
import CompiledScript.Proofs.Splice.Obliging
import CompiledScript.Proofs.Splice.Retry
import CompiledScript.Proofs.Splice.Atomicity
import CompiledScript.Proofs.Splice.RegistryHistory
import CompiledScript.Proofs.Splice.Transparency
import CompiledScript.Proofs.Script.Delimited
import CompiledScript.Proofs.Script.Writing
import CompiledScript.Proofs.Script.Classification
import CompiledScript.Proofs.Literal.InsertionOrder
import CompiledScript.Proofs.Definition.Written
import CompiledScript.Proofs.Definition.Nesting
import CompiledScript.Proofs.Definition.Scopes
import CompiledScript.Proofs.Definition.WellFormed
import CompiledScript.Proofs.Listing.Blocks
import CompiledScript.Proofs.Container.Composition
import CompiledScript.Proofs.Auxiliary.Arrangement
import CompiledScript.Proofs.Container.Compatibility
import CompiledScript.Proofs.Container.CrossCheck
import CompiledScript.Proofs.Literal.Arrangement
import CompiledScript.Proofs.Literal.Ascending
import CompiledScript.Proofs.Script.Pairs
import CompiledScript.Proofs.Wire.Nesting
import CompiledScript.Proofs.Wire.Mirror
import CompiledScript.Proofs.Literal.Integers
import CompiledScript.Proofs.Literal.Locals
