import RiscAsm.Text.Ranges
import RiscAsm.Text.Blank
import RiscAsm.Text.Basic
import RiscAsm.Text.Digit
import RiscAsm.Numeral
import RiscAsm.Buffer
import RiscAsm.Steps
import RiscAsm.Buffer.Pool
import RiscAsm.Text.Printable
import RiscAsm.Text.Quoted
import RiscAsm.CommandLine.Options
import RiscAsm.Text.Utf8
import RiscAsm.FileTree
import RiscAsm.Text.UpperCase
import RiscAsm.Isa
import RiscAsm.Fault
import RiscAsm.Text.LowerCase
import RiscAsm.Register
import RiscAsm.Instruction.Basic
import RiscAsm.Instruction.Table
import RiscAsm.Instruction.Word
import RiscAsm.Immediate
import RiscAsm.Text.Word
import RiscAsm.Operand
import RiscAsm.Pseudo
import RiscAsm.Encode
import RiscAsm.Diagnostic
import RiscAsm.Source
import RiscAsm.Label
import RiscAsm.Decimal.Shortest
import RiscAsm.Data.Value
import RiscAsm.Settings
import RiscAsm.Program
import RiscAsm.Listing
import RiscAsm.Data.Yaml.Cursor
import RiscAsm.Data.Yaml.Error
import RiscAsm.Data.Yaml.Time
import RiscAsm.Data.Yaml.Tag
import RiscAsm.Data.Yaml.Number
import RiscAsm.Data.Yaml.Scalar
import RiscAsm.Data.Yaml.Token
import RiscAsm.Data.Yaml.Node
import RiscAsm.Data.Base64
import RiscAsm.Data.Yaml.Schema
import RiscAsm.Data.Yaml.Document
import RiscAsm.Settings.Document
import RiscAsm.Data.Yaml.Loader
import RiscAsm.CommandLine
import RiscAsm.Data.Json
import RiscAsm.Data.Json.Bytes
import RiscAsm.Http.Percent
import RiscAsm.Http.Address
import RiscAsm.Http.Parameter
import RiscAsm.Http.Multipart
import RiscAsm.Http.Query
import RiscAsm.Http
import RiscAsm.Http.Server
import RiscAsm.Label.History
import RiscAsm.Main
import RiscAsm.Proofs.Result
import RiscAsm.Proofs.Text.Trim
import RiscAsm.Proofs.Text.Pieces
import RiscAsm.Proofs.Text.Search
import RiscAsm.Proofs.Text.LowerCase
import RiscAsm.Proofs.Numeral
import RiscAsm.Proofs.Operand
import RiscAsm.Proofs.Instruction.Fields
import RiscAsm.Proofs.Instruction.Table
import RiscAsm.Proofs.Instruction.Decode
import RiscAsm.Proofs.Encode.Roles
import RiscAsm.Proofs.Encode.Operands
import RiscAsm.Proofs.Encode.Denotation
import RiscAsm.Proofs.Layout
import RiscAsm.Proofs.Assemble.Passes
import RiscAsm.Proofs.Encode.Branch
import RiscAsm.Proofs.Assemble.Branch
import RiscAsm.Proofs.Bytes
import RiscAsm.Proofs.Text.Utf8
import RiscAsm.Proofs.Assemble.Outcome
import RiscAsm.Proofs.Source
import RiscAsm.Proofs.Assemble.Append
import RiscAsm.Proofs.Operand.Origin
import RiscAsm.Proofs.Assemble.Resolved
import RiscAsm.Proofs.Listing
import RiscAsm.Proofs.Session
import RiscAsm.Proofs.Assemble.Profile
import RiscAsm.Proofs.Assemble.Alike
import RiscAsm.Proofs.Source.Lines
import RiscAsm.Proofs.Assemble.Spacing
import RiscAsm.Proofs.Assemble.Location
import RiscAsm.Proofs.Operand.Last
import RiscAsm.Proofs.Label
import RiscAsm.Proofs.Assemble.Rename
import RiscAsm.Proofs.Data.Base64
import RiscAsm.Proofs.Http
import RiscAsm.Proofs.Operand.Separators
import RiscAsm.Proofs.Layout.Definitions
import RiscAsm.Proofs.Layout.Stacked
import RiscAsm.Proofs.Instruction.Pack
import RiscAsm.Proofs.Instruction.Codes
import RiscAsm.Proofs.Operand.Memory
import RiscAsm.Proofs.Register
import RiscAsm.Proofs.Operand.Address
import RiscAsm.Proofs.Encode.Legible
import RiscAsm.Proofs.Encode.Printed
import RiscAsm.Proofs.Pseudo
import RiscAsm.Proofs.Encode.Expansion
import RiscAsm.Proofs.Encode.Address
import RiscAsm.Proofs.Assemble.Target
import RiscAsm.Proofs.FileTree
import RiscAsm.Proofs.CommandLine
import RiscAsm.Proofs.Immediate
import RiscAsm.Proofs.Buffer
import RiscAsm.Proofs.Source.Reader
import RiscAsm.Proofs.Listing.Labels
import RiscAsm.Proofs.Text.Case
import RiscAsm.Proofs.Operand.Case
import RiscAsm.Proofs.Encode.Case
import RiscAsm.Proofs.Steps
import RiscAsm.Proofs.Buffer.Pool
import RiscAsm.Proofs.Label.History
import RiscAsm.Proofs.Settings
import RiscAsm.Proofs.Settings.Document
import RiscAsm.Proofs.CommandLine.Configuration
import RiscAsm.Proofs.Source.Decode
import RiscAsm.Proofs.Label.Reference
