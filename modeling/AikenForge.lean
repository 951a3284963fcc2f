import AikenForge.Pipeline
import AikenForge.Marker
import AikenForge.Service
import AikenForge.Main
import AikenForge.Proofs.Grouping
import AikenForge.Proofs.Structured
import AikenForge.Proofs.EarlyReturn
import AikenForge.Proofs.Expectation.Emission
import AikenForge.Proofs.Frame
import AikenForge.Proofs.History
import AikenForge.Proofs.Guard
import AikenForge.Proofs.Alias.Scope
import AikenForge.Proofs.Handler.Likeness
import AikenForge.Proofs.Defect
import AikenForge.Proofs.Quoted.Emission
import AikenForge.Proofs.Declared.Names
import AikenForge.Proofs.Handler.Convention
import AikenForge.Proofs.Declared.Roles
import AikenForge.Proofs.Json.Text
import AikenForge.Proofs.Json.Number
import AikenForge.Proofs.Json.Readback
import AikenForge.Proofs.Json.Proper
import AikenForge.Proofs.Blueprint.Entries
import AikenForge.Proofs.Files
import AikenForge.Proofs.Json.Bytes
import AikenForge.Proofs.Blueprint.Survival
import AikenForge.Proofs.Blueprint.Update
import AikenForge.Proofs.Dispatch
import AikenForge.Proofs.Subpattern
import AikenForge.Proofs.Inlined.Operand
import AikenForge.Proofs.Directive.Pipe
import AikenForge.Proofs.Directive.Binding
import AikenForge.Proofs.Reading.Quoting
import AikenForge.Proofs.Path.Placement
import AikenForge.Proofs.Union.Flat
import AikenForge.Proofs.Decoding
import AikenForge.Proofs.Compile.Effects
import AikenForge.Proofs.Local.Scope
import AikenForge.Proofs.Naming
import AikenForge.Proofs.Handler.Blocks
import AikenForge.Proofs.Nested.Parts
import AikenForge.Proofs.Nested.Layout
import AikenForge.Proofs.Toml.Line
import AikenForge.Proofs.Toml.Manifest
