import BoundSql.Clause
import BoundSql.CommandLine.Arguments
import BoundSql.CommandLine.ControlSequence
import BoundSql.CommandLine.Run
import BoundSql.Decimal.Layout
import BoundSql.Decimal.Shortest
import BoundSql.Description.Catalog
import BoundSql.Description.Expr
import BoundSql.Description.Query
import BoundSql.Description.Value
import BoundSql.Dialect
import BoundSql.Dict
import BoundSql.Error
import BoundSql.Expr.Aggregation
import BoundSql.Expr.Basic
import BoundSql.Expr.Display
import BoundSql.Expr.Equality
import BoundSql.Expr.Functions
import BoundSql.Expr.Sources
import BoundSql.Expr.Typing
import BoundSql.Fragment
import BoundSql.Join
import BoundSql.Json.Basic
import BoundSql.Json.Number
import BoundSql.Json.Reader
import BoundSql.Json.Record
import BoundSql.Json.Token
import BoundSql.Json.Writer
import BoundSql.Main
import BoundSql.Operator
import BoundSql.Override
import BoundSql.Rendering
import BoundSql.Schema.Catalog
import BoundSql.Schema.Table
import BoundSql.Select.Basic
import BoundSql.Select.Operations
import BoundSql.Select.Resolution
import BoundSql.Select.Statement
import BoundSql.SqlType
import BoundSql.Template
import BoundSql.Value
import BoundSql.Proofs.Expr.Resolved
import BoundSql.Proofs.Select.Action
import BoundSql.Proofs.Select.FreshAlias
import BoundSql.Proofs.Except
import BoundSql.Proofs.Expr.Bare
import BoundSql.Proofs.Schema.Catalog
import BoundSql.Proofs.Select.Grouping
import BoundSql.Proofs.Select.Parameters
import BoundSql.Proofs.Select.Routing
import BoundSql.Proofs.Select.Scoping
import BoundSql.Proofs.Select.Aggregating
import BoundSql.Proofs.Expr.Truth
import BoundSql.Proofs.Select.Meaning
import BoundSql.Proofs.Expr.Settled
import BoundSql.Proofs.Sql.Unresolved
import BoundSql.Proofs.Select.Binding
import BoundSql.Proofs.Expr.Twin
import BoundSql.Proofs.Select.Noninterference
import BoundSql.Proofs.Sql.Readability
import BoundSql.Proofs.Select.Stability
import BoundSql.Proofs.Select.OuterJoins
import BoundSql.Proofs.Select.Failure
import BoundSql.Proofs.Sql.Assembly
import BoundSql.Proofs.Select.ParameterOrder
import BoundSql.Proofs.Sql.Inlining
import BoundSql.Proofs.Select.Sharing
import BoundSql.Proofs.Select.Anchoring
import BoundSql.Proofs.Select.Naming
import BoundSql.Proofs.Description.RoundTrip
import BoundSql.Proofs.Sql.Locality
import BoundSql.Proofs.Select.Idempotence
import BoundSql.Proofs.Select.LeftToRight
import BoundSql.Proofs.Select.Frame
import BoundSql.Proofs.Select.Spelling
import BoundSql.Proofs.Sql.Regrouping
import BoundSql.Proofs.Sql.Concatenation
import BoundSql.Proofs.Sql.NullPlacement
import BoundSql.Proofs.Expr.Widening
import BoundSql.Proofs.Expr.AggregateUse
import BoundSql.Proofs.Expr.Relabelling
import BoundSql.Proofs.Sql.Qualifiers
import BoundSql.Proofs.Expr.Replacing
import BoundSql.Proofs.Sql.Templates
import BoundSql.Proofs.Sql.Markers
import BoundSql.Proofs.Sql.QuotedNames
import BoundSql.Proofs.Expr.Inference
import BoundSql.Proofs.Expr.Coercion
import BoundSql.Proofs.Select.Distinct
import BoundSql.Proofs.Schema.Registration
