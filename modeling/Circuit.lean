import Circuit.Json.Text
import Circuit.Json.Reader
import Circuit.Json.Writer
import Circuit.Field.Bytes
import Circuit.Canonical
import Circuit.Program.Basic
import Circuit.Witness.File
import Circuit.Codec.Encode
import Circuit.Codec.Decode
import Circuit.R1cs.Reader
import Circuit.Source.Script
import Circuit.Store.Service
import Circuit.Settings
import Circuit.Calculation
import Circuit.Proofs.Field.Width
import Circuit.Proofs.R1cs.Reading
import Circuit.Proofs.Variable.Wire
import Circuit.Proofs.R1cs.Image
import Circuit.Proofs.R1cs.Writing
import Circuit.Proofs.R1cs.RoundTrip
import Circuit.Proofs.Field.Residue
import Circuit.Proofs.Evaluation
import Circuit.Proofs.R1cs.Meaning
import Circuit.Proofs.R1cs.Content
import Circuit.Proofs.R1cs.Outcome
import Circuit.Proofs.Except
import Circuit.Proofs.R1cs.Grammar
import Circuit.Proofs.R1cs.WireSpace
import Circuit.Proofs.Decimal.Digits
import Circuit.Proofs.Variable.Text
import Circuit.Proofs.Field.Text
import Circuit.Proofs.Json.Equality
import Circuit.Proofs.Codec.Recast
import Circuit.Proofs.Codec.RoundTrip
import Circuit.Proofs.Codec.Parts
import Circuit.Proofs.Codec.Decoded
import Circuit.Proofs.Store.Invariant
import Circuit.Proofs.Statement.Shown
import Circuit.Proofs.Store.Requests
import Circuit.Proofs.Store.Download
import Circuit.Proofs.Store.Save
import Circuit.Proofs.Store.Table
import Circuit.Proofs.Store.Catalog
import Circuit.Proofs.Canonical.Amount
import Circuit.Proofs.Canonical.Meaning
import Circuit.Proofs.Program.Equality
import Circuit.Proofs.Source.Reading
import Circuit.Proofs.Source.Script
import Circuit.Proofs.Statement.Places
import Circuit.Proofs.Program.Regrouping
import Circuit.Proofs.Witness.Missing
import Circuit.Proofs.Program.Checking
import Circuit.Proofs.R1cs.Sink
import Circuit.Proofs.LinComb.Arithmetic
import Circuit.Proofs.R1cs.Truncation
import Circuit.Proofs.R1cs.Sections
import Circuit.Proofs.Program.PublicValues
import Circuit.Proofs.Operand.Arithmetic
import Circuit.Proofs.Codec.Normal
import Circuit.Proofs.Text.Words
import Circuit.Proofs.Witness.Values
import Circuit.Proofs.Witness.Lines
import Circuit.Proofs.Witness.File
import Circuit.Proofs.Witness.RoundTrip
import Circuit.Proofs.Witness.Fields
import Circuit.Proofs.Witness.Decoders
import Circuit.Proofs.Program.Unassigned
import Circuit.Proofs.Store.Check
import Circuit.Proofs.Variable.Numbering
import Circuit.Proofs.Decimal.Literal
import Circuit.Proofs.Codec.Leaves
import Circuit.Proofs.Field.Compact
import Circuit.Proofs.Statement.Readable
