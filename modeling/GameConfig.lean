import GameConfig.Descriptor.Lower
import GameConfig.Descriptor.Reader
import GameConfig.Emit.JsonSchema
import GameConfig.Emit.Lua.Module
import GameConfig.Load.Loader
import GameConfig.Options
import GameConfig.Proofs.Builder.Acceptance
import GameConfig.Proofs.Builder.Cycle
import GameConfig.Proofs.Builder.History
import GameConfig.Proofs.Builder.Lines
import GameConfig.Proofs.DateTime.RoundTrip
import GameConfig.Proofs.Datum.Equality
import GameConfig.Proofs.Datum.Members
import GameConfig.Proofs.Descriptor.Front
import GameConfig.Proofs.Descriptor.History
import GameConfig.Proofs.Descriptor.Order
import GameConfig.Proofs.Descriptor.RoundTrip
import GameConfig.Proofs.Emit.Beans
import GameConfig.Proofs.Emit.DataFile
import GameConfig.Proofs.Emit.Definitions
import GameConfig.Proofs.Emit.Document
import GameConfig.Proofs.Emit.Export
import GameConfig.Proofs.Emit.Lua.Literal
import GameConfig.Proofs.Emit.Lua.Subtypes
import GameConfig.Proofs.Emit.Placement
import GameConfig.Proofs.Emit.References
import GameConfig.Proofs.Emit.Types
import GameConfig.Proofs.Hierarchy
import GameConfig.Proofs.Json.Decode
import GameConfig.Proofs.Json.Delimited
import GameConfig.Proofs.Json.Fits
import GameConfig.Proofs.Json.Front
import GameConfig.Proofs.Json.Text
import GameConfig.Proofs.Json.Validation
import GameConfig.Proofs.Load.Apart
import GameConfig.Proofs.Load.Failure
import GameConfig.Proofs.Load.Notations
import GameConfig.Proofs.Load.Reorder
import GameConfig.Proofs.Load.RoundTrip
import GameConfig.Proofs.Load.Single
import GameConfig.Proofs.Load.Step
import GameConfig.Proofs.Load.Typing
import GameConfig.Proofs.Number.Digits
import GameConfig.Proofs.Number.NearMiss
import GameConfig.Proofs.Number.Nearest
import GameConfig.Proofs.Number.Printed
import GameConfig.Proofs.Number.Rounding
import GameConfig.Proofs.Number.Shortest
import GameConfig.Proofs.Number.Twice
import GameConfig.Proofs.Number.Written
import GameConfig.Proofs.Rule.Compile
import GameConfig.Proofs.Rule.Direct
import GameConfig.Proofs.Rule.Inherited
import GameConfig.Proofs.Rule.Placement
import GameConfig.Proofs.Rule.Position
import GameConfig.Proofs.Schema.Discriminator
import GameConfig.Proofs.Schema.Resolution
import GameConfig.Proofs.Schema.Sound
import GameConfig.Proofs.Table.Index
import GameConfig.Proofs.Text.Utf8
import GameConfig.Proofs.Ty.Expression
import GameConfig.Proofs.Ty.Parentheses
import GameConfig.Rule.RuleSet
import GameConfig.Schema.Message
import GameConfig.Table.Assemble
import GameConfig.Proofs.Descriptor.Reference
import GameConfig.Proofs.Rule.Interval
import GameConfig.Proofs.Rule.Range
import GameConfig.Proofs.Number.Whole
import GameConfig.Proofs.Rule.Listed
import GameConfig.Proofs.Rule.Names
import GameConfig.Proofs.Emit.Sizes
import GameConfig.Proofs.Rule.Rounded
import GameConfig.Proofs.Emit.Ranges
import GameConfig.Proofs.Table.FirstFault
import GameConfig.Proofs.Emit.Properties
import GameConfig.Proofs.Emit.Files
import GameConfig.Proofs.Emit.Nullable
import GameConfig.Proofs.Json.Integer
import GameConfig.Proofs.Emit.IntegerKeys
import GameConfig.Datum.Hash
import GameConfig.Proofs.Datum.Equivalence
import GameConfig.Proofs.Datum.Hash
import GameConfig.Proofs.Descriptor.Continuation
