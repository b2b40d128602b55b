import Redaction.Config.Basic
import Redaction.Config.Load
import Redaction.Derivation.Arrangement
import Redaction.Derivation.Code
import Redaction.Derivation.Comment
import Redaction.Derivation.Identifier
import Redaction.Derivation.Item
import Redaction.Derivation.Literal
import Redaction.Derivation.Numeral
import Redaction.Derivation.Plan
import Redaction.Derivation.Source
import Redaction.Derivation.Treatment
import Redaction.Derivation.TypeText
import Redaction.Error
import Redaction.Field.Basic
import Redaction.Field.Scalar
import Redaction.Instruction.Coercion
import Redaction.Instruction.Delimiter
import Redaction.Instruction.Literal
import Redaction.Instruction.Node
import Redaction.Instruction.Parse
import Redaction.Instruction.Scanner
import Redaction.Instruction.Token
import Redaction.Method.Basic
import Redaction.Method.Builtin
import Redaction.Method.Probe
import Redaction.Method.Registry
import Redaction.Number.Binary
import Redaction.Number.Decimal
import Redaction.Number.Integer
import Redaction.Proofs.Config.Validation
import Redaction.Proofs.Derivation.Alignment
import Redaction.Proofs.Derivation.Declared
import Redaction.Proofs.Derivation.Emission
import Redaction.Proofs.Derivation.Faults
import Redaction.Proofs.Derivation.Names
import Redaction.Proofs.Earlier
import Redaction.Proofs.Independence
import Redaction.Proofs.Instruction.Characters
import Redaction.Proofs.Instruction.Cursor
import Redaction.Proofs.Instruction.Grammar
import Redaction.Proofs.Instruction.ListText
import Redaction.Proofs.Instruction.Place
import Redaction.Proofs.Instruction.Progress
import Redaction.Proofs.Instruction.Rendering
import Redaction.Proofs.Instruction.RoundTrip
import Redaction.Proofs.Instruction.Rows
import Redaction.Proofs.Loop
import Redaction.Proofs.Method.Alike
import Redaction.Proofs.Method.Builtin
import Redaction.Proofs.Method.Changes
import Redaction.Proofs.Method.InPlace
import Redaction.Proofs.Method.Keeping
import Redaction.Proofs.Method.Masking
import Redaction.Proofs.Method.Observed
import Redaction.Proofs.Method.Run
import Redaction.Proofs.Record.History
import Redaction.Proofs.Record.Metadata
import Redaction.Proofs.Redactor
import Redaction.Proofs.Result
import Redaction.Proofs.Rule.Arguments
import Redaction.Proofs.Rule.Calls
import Redaction.Proofs.Rule.CatchAll
import Redaction.Proofs.Rule.Chaining
import Redaction.Proofs.Rule.Decision
import Redaction.Proofs.Rule.Disabled
import Redaction.Proofs.Rule.ForAll
import Redaction.Proofs.Rule.Offsets
import Redaction.Proofs.Rule.Pairing
import Redaction.Proofs.Rule.Quoting
import Redaction.Proofs.Rule.Segments
import Redaction.Proofs.Rule.Spellings
import Redaction.Proofs.Rule.Written
import Redaction.Proofs.Text.Utf8
import Redaction.Proofs.Value.Derived
import Redaction.Proofs.Value.Failures
import Redaction.Proofs.Value.Groups
import Redaction.Proofs.Value.Idempotence
import Redaction.Proofs.Value.Image
import Redaction.Proofs.Value.Indirection
import Redaction.Proofs.Value.Knowledge
import Redaction.Proofs.Value.Mediation
import Redaction.Proofs.Value.Misconfigured
import Redaction.Proofs.Value.Refusal
import Redaction.Proofs.Value.Secrecy
import Redaction.Proofs.Value.Shape
import Redaction.Proofs.Value.Stops
import Redaction.Proofs.Value.Traversal
import Redaction.Record.Cache
import Redaction.Record.Metadata
import Redaction.Record.Spec
import Redaction.Redactor
import Redaction.Rule.Basic
import Redaction.Rule.Compile
import Redaction.Rule.Describe
import Redaction.Text.Blank
import Redaction.Text.CaseTable
import Redaction.Text.Cased
import Redaction.Text.CharRange
import Redaction.Text.LowerCase
import Redaction.Text.Printable
import Redaction.Text.Quoted
import Redaction.Text.Utf8
import Redaction.Value.Basic
import Redaction.Value.Walk
import Redaction.Yaml.Character
import Redaction.Yaml.Lexeme
import Redaction.Yaml.Scalar
import Redaction.Yaml.Tree
