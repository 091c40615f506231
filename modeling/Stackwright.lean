import Stackwright.Builder.Assembly
import Stackwright.Builder.Attachment
import Stackwright.Builder.Calls
import Stackwright.Builder.Container
import Stackwright.Builder.EntryPoint
import Stackwright.Builder.Host
import Stackwright.Builder.Mount
import Stackwright.Builder.Orchestration
import Stackwright.Builder.Registry
import Stackwright.Builder.ServiceCode
import Stackwright.Command.Arguments
import Stackwright.Command.Formatter
import Stackwright.Command.Run
import Stackwright.Command.Summary
import Stackwright.Decimal.Reading
import Stackwright.Decimal.Shortest
import Stackwright.Decimal.Style
import Stackwright.Decode.Build
import Stackwright.Decode.Deploy
import Stackwright.Decode.Fault
import Stackwright.Decode.Network
import Stackwright.Decode.Project
import Stackwright.Decode.Reader
import Stackwright.Decode.Record
import Stackwright.Decode.Scalar
import Stackwright.Decode.Service
import Stackwright.Decode.Shapes
import Stackwright.Dict
import Stackwright.Document.Cursor
import Stackwright.Document.Event
import Stackwright.Document.Expand
import Stackwright.Document.Merge
import Stackwright.Document.Problem
import Stackwright.Document.Reading
import Stackwright.Document.Scalar
import Stackwright.Document.Token
import Stackwright.Document.Token.Block
import Stackwright.Document.Token.Directive
import Stackwright.Document.Token.Gap
import Stackwright.Document.Token.Plain
import Stackwright.Document.Token.Property
import Stackwright.Document.Token.Quoted
import Stackwright.Document.Token.Stream
import Stackwright.Document.Tree
import Stackwright.Dotenv
import Stackwright.Error
import Stackwright.Files.Path
import Stackwright.Files.Tree
import Stackwright.Generate
import Stackwright.Load
import Stackwright.Main
import Stackwright.Model.Build
import Stackwright.Model.Deploy
import Stackwright.Model.Network
import Stackwright.Model.Project
import Stackwright.Model.Service
import Stackwright.Port
import Stackwright.Program.Blanking
import Stackwright.Program.Canonical
import Stackwright.Program.Expr
import Stackwright.Program.Ident
import Stackwright.Program.ImportBlock
import Stackwright.Program.Imports
import Stackwright.Program.Package
import Stackwright.Program.Printer
import Stackwright.Program.Quoted
import Stackwright.Proofs.Arrangement
import Stackwright.Proofs.Builder.Arrangement
import Stackwright.Proofs.Builder.Assembly
import Stackwright.Proofs.Builder.Calls
import Stackwright.Proofs.Builder.Collision
import Stackwright.Proofs.Builder.Declarations
import Stackwright.Proofs.Builder.Durations
import Stackwright.Proofs.Builder.Erasure
import Stackwright.Proofs.Builder.Omission
import Stackwright.Proofs.Builder.Ordering
import Stackwright.Proofs.Builder.References
import Stackwright.Proofs.Builder.Registry
import Stackwright.Proofs.Builder.Slots
import Stackwright.Proofs.Builder.Spacing
import Stackwright.Proofs.Builder.WellFormed
import Stackwright.Proofs.Command.Run
import Stackwright.Proofs.Command.Summary
import Stackwright.Proofs.Decimal.Infinity
import Stackwright.Proofs.Decode.DeclaredName
import Stackwright.Proofs.Decode.Durations
import Stackwright.Proofs.Decode.EnvFiles
import Stackwright.Proofs.Decode.FileMode
import Stackwright.Proofs.Decode.Forms
import Stackwright.Proofs.Decode.Invariants
import Stackwright.Proofs.Decode.OrderFree
import Stackwright.Proofs.Decode.Project
import Stackwright.Proofs.Decode.Respelling
import Stackwright.Proofs.Dict
import Stackwright.Proofs.Document.Expansion
import Stackwright.Proofs.Document.Keys
import Stackwright.Proofs.Document.Merging
import Stackwright.Proofs.Document.Overlay
import Stackwright.Proofs.Document.Reading
import Stackwright.Proofs.Document.Reordering
import Stackwright.Proofs.Dotenv
import Stackwright.Proofs.DurationRange
import Stackwright.Proofs.Files.Writing
import Stackwright.Proofs.Generate
import Stackwright.Proofs.Load
import Stackwright.Proofs.LoadFiles
import Stackwright.Proofs.Outcome
import Stackwright.Proofs.Port
import Stackwright.Proofs.Program.Blanking
import Stackwright.Proofs.Program.Canonical
import Stackwright.Proofs.Program.Formula
import Stackwright.Proofs.Program.Ident
import Stackwright.Proofs.Program.ImportBlock
import Stackwright.Proofs.Program.ImportPath
import Stackwright.Proofs.Program.Layout
import Stackwright.Proofs.Program.Literal
import Stackwright.Proofs.Program.Masking
import Stackwright.Proofs.Program.Mentions
import Stackwright.Proofs.Program.Nesting
import Stackwright.Proofs.Program.Neutral
import Stackwright.Proofs.Program.Pen
import Stackwright.Proofs.Program.Pruning
import Stackwright.Proofs.Program.Thinned
import Stackwright.Proofs.Program.Settling
import Stackwright.Proofs.Program.Rereading
import Stackwright.Proofs.Program.StandAlone
import Stackwright.Proofs.Program.Idempotence
import Stackwright.Proofs.Program.NoLoss
import Stackwright.Proofs.Program.Numbers
import Stackwright.Proofs.Program.Brackets
import Stackwright.Proofs.Program.Lexemes
import Stackwright.Proofs.Program.Lexing
import Stackwright.Proofs.Program.Squeezed
import Stackwright.Proofs.Program.Sweeping
import Stackwright.Proofs.Program.RawStrings
import Stackwright.Proofs.Program.Qualifiers
import Stackwright.Proofs.Program.Quoted
import Stackwright.Proofs.Program.ReadBack
import Stackwright.Proofs.Program.Regrouping
import Stackwright.Proofs.Program.Renderable
import Stackwright.Proofs.Program.Solid
import Stackwright.Proofs.Program.Spacing
import Stackwright.Proofs.Quantity
import Stackwright.Proofs.ShellWords
import Stackwright.Proofs.Template.Escape
import Stackwright.Proofs.Template.Language
import Stackwright.Proofs.Text.Blank
import Stackwright.Proofs.Text.Digits
import Stackwright.Proofs.Text.Lines
import Stackwright.Proofs.Text.Numeral
import Stackwright.Proofs.Text.Split
import Stackwright.Quantity.Amount
import Stackwright.Quantity.Bytes
import Stackwright.Quantity.Duration
import Stackwright.ShellWords
import Stackwright.Template.Expand
import Stackwright.Template.Reference
import Stackwright.Text.Blank
import Stackwright.Text.Cased
import Stackwright.Text.Combining
import Stackwright.Text.Digits
import Stackwright.Text.Inspect
import Stackwright.Text.Lines
import Stackwright.Text.Lowercase
import Stackwright.Text.Split
import Stackwright.Text.Unprintable
import Stackwright.Text.Utf8
