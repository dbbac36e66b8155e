import Blueprint.Api.Basic
import Blueprint.Api.Encode
import Blueprint.Api.Grammar
import Blueprint.Application.Basic
import Blueprint.Application.Compile
import Blueprint.Application.Encode
import Blueprint.Application.Link
import Blueprint.Approval.Basic
import Blueprint.Approval.Encode
import Blueprint.Approval.Grammar
import Blueprint.Declaration.Basic
import Blueprint.Declaration.Encode
import Blueprint.Duration
import Blueprint.Entity.Access
import Blueprint.Entity.Basic
import Blueprint.Entity.Cycle
import Blueprint.Entity.Encode
import Blueprint.Entity.Expansion
import Blueprint.Entity.Grammar
import Blueprint.Entity.StateMachine
import Blueprint.Experience.Basic
import Blueprint.Experience.Encode
import Blueprint.Experience.Grammar
import Blueprint.Expr.Basic
import Blueprint.Expr.Encode
import Blueprint.Expr.Grammar
import Blueprint.Fault
import Blueprint.Field.Basic
import Blueprint.Field.Encode
import Blueprint.Field.Grammar
import Blueprint.Finding
import Blueprint.Flow.Basic
import Blueprint.Flow.Encode
import Blueprint.Flow.Grammar
import Blueprint.Fresh
import Blueprint.Integration.Basic
import Blueprint.Integration.Encode
import Blueprint.Integration.Grammar
import Blueprint.Json.Basic
import Blueprint.Json.Render
import Blueprint.Keyword
import Blueprint.Ledger.Basic
import Blueprint.Ledger.Encode
import Blueprint.Ledger.Grammar
import Blueprint.Llm.Basic
import Blueprint.Llm.Encode
import Blueprint.Llm.Grammar
import Blueprint.Location
import Blueprint.Manifest.Basic
import Blueprint.Manifest.Encode
import Blueprint.Module.Basic
import Blueprint.Module.Encode
import Blueprint.Module.Grammar
import Blueprint.Module.Order
import Blueprint.Module.Reach
import Blueprint.Module.Symbols
import Blueprint.Parser.Basic
import Blueprint.Parser.Block
import Blueprint.Parser.Words
import Blueprint.Path
import Blueprint.Persona.Basic
import Blueprint.Persona.Encode
import Blueprint.Persona.Grammar
import Blueprint.Policy.Basic
import Blueprint.Policy.Encode
import Blueprint.Policy.Grammar
import Blueprint.Process.Basic
import Blueprint.Process.Encode
import Blueprint.Process.Grammar
import Blueprint.Project
import Blueprint.Reference.Basic
import Blueprint.Reference.Validation
import Blueprint.Reference.Visibility
import Blueprint.Service.Basic
import Blueprint.Service.Encode
import Blueprint.Service.Grammar
import Blueprint.SourceTree
import Blueprint.Stream.Basic
import Blueprint.Stream.Encode
import Blueprint.Stream.Grammar
import Blueprint.Surface.Basic
import Blueprint.Surface.Encode
import Blueprint.Surface.Generated
import Blueprint.Surface.Grammar
import Blueprint.Table
import Blueprint.Test.Basic
import Blueprint.Test.Encode
import Blueprint.Test.Grammar
import Blueprint.Text.Blank
import Blueprint.Text.Case
import Blueprint.Text.Letter
import Blueprint.Text.Lines
import Blueprint.Text.Numeral
import Blueprint.Token.Basic
import Blueprint.Token.Lexer
import Blueprint.Toml.Basic
import Blueprint.Toml.Decimal
import Blueprint.Toml.Document
import Blueprint.Toml.Reader
import Blueprint.Toml.Text
import Blueprint.View.Basic
import Blueprint.View.Encode
import Blueprint.View.Grammar
import Blueprint.Workspace.Basic
import Blueprint.Workspace.Encode
import Blueprint.Workspace.Grammar
import Blueprint.Proofs.Linking
import Blueprint.Proofs.Compilation
import Blueprint.Proofs.Concatenation
import Blueprint.Proofs.MissedCircles
import Blueprint.Proofs.TenantScope
import Blueprint.Proofs.Collisions
import Blueprint.Proofs.Rearrangement
import Blueprint.Proofs.UnusedImports
import Blueprint.Proofs.InputOrder
import Blueprint.Proofs.Shadowing
import Blueprint.Proofs.Unread
import Blueprint.Proofs.FieldTargets
import Blueprint.Proofs.ActionTargets
import Blueprint.Proofs.Reach
import Blueprint.Proofs.Pruning
import Blueprint.Proofs.EnclosingWidths
import Blueprint.Proofs.Indentation
import Blueprint.Proofs.Balance
import Blueprint.Proofs.Excerpts
import Blueprint.Proofs.Relaying
import Blueprint.Proofs.Results
import Blueprint.Proofs.WellFormed.Basic
import Blueprint.Proofs.WellFormed.Fields
import Blueprint.Proofs.WellFormed.Steps
import Blueprint.Proofs.WellFormed.Modules
import Blueprint.Proofs.Written.Values
import Blueprint.Proofs.Written.Chains
import Blueprint.Proofs.Written.Conditions
import Blueprint.Proofs.Written.Invariants
import Blueprint.Proofs.Printed.Texts
import Blueprint.Proofs.Printed.Drawn
import Blueprint.Proofs.Printed.ReadBack
import Blueprint.Proofs.Printed.Strings
import Blueprint.Proofs.Printed.Literals
import Blueprint.Proofs.FlowSteps
import Blueprint.Proofs.Places
import Blueprint.Proofs.SourceTrees
import Blueprint.Proofs.Printed.Computed
import Blueprint.Proofs.Printed.Durations
import Blueprint.Proofs.Printed.DurationSpellings
import Blueprint.Proofs.Printed.FieldTypes
import Blueprint.Proofs.Directives
import Blueprint.Proofs.UnknownLines
import Blueprint.Proofs.DefaultScreens
import Blueprint.Proofs.InheritedCircles
import Blueprint.Proofs.Json.Texts
import Blueprint.Proofs.Json.Records
import Blueprint.Proofs.Json.Expressions
import Blueprint.Proofs.Json.Constructs
import Blueprint.Proofs.Json.Applications
import Blueprint.Proofs.StatusField
import Blueprint.Proofs.FixedOrder
import Blueprint.Proofs.StepNames
import Blueprint.Proofs.Climbing
import Blueprint.Proofs.QuotedLines
import Blueprint.Proofs.Progress
