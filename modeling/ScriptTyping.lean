import ScriptTyping.Check.Outcome
import ScriptTyping.Config
import ScriptTyping.Finding.Report
import ScriptTyping.Syntax.Stored
import ScriptTyping.Ty.Operand
import ScriptTyping.Proofs.Environment.Growth
import ScriptTyping.Proofs.Ty.Equality
import ScriptTyping.Proofs.Ty.Substitution
import ScriptTyping.Proofs.Environment.Assignability
import ScriptTyping.Proofs.Overload.Fit
import ScriptTyping.Proofs.Overload.Resolution
import ScriptTyping.Proofs.Syntax.Branch
import ScriptTyping.Proofs.Syntax.Region
import ScriptTyping.Proofs.Syntax.Load
import ScriptTyping.Proofs.Check.State
import ScriptTyping.Proofs.Check.Step
import ScriptTyping.Proofs.Check.Premise
import ScriptTyping.Proofs.Check.Facts
import ScriptTyping.Proofs.Check.Settled
import ScriptTyping.Proofs.Check.Open
import ScriptTyping.Proofs.Check.Coercion
import ScriptTyping.Proofs.Check.Slots
import ScriptTyping.Proofs.Check.Lists
import ScriptTyping.Proofs.Rule.Basic
import ScriptTyping.Proofs.Rule.Constant
import ScriptTyping.Proofs.Rule.Control
import ScriptTyping.Proofs.Check.Rearrange
import ScriptTyping.Proofs.Rule.Annotation
import ScriptTyping.Proofs.Rule.Operator
import ScriptTyping.Proofs.Rule.Access
import ScriptTyping.Proofs.Rule.Invocation
import ScriptTyping.Proofs.Rule.Cast
import ScriptTyping.Proofs.Rule.Collection
import ScriptTyping.Proofs.Rule.Declaration
import ScriptTyping.Proofs.Rule.Function
import ScriptTyping.Proofs.Rule.Assignment
import ScriptTyping.Proofs.Rule.Visit
import ScriptTyping.Proofs.Outcome.Settled
import ScriptTyping.Proofs.Registry.Signature
import ScriptTyping.Proofs.Outcome.Reach
import ScriptTyping.Proofs.Outcome.Calls
import ScriptTyping.Proofs.Outcome.Conversions
import ScriptTyping.Proofs.Environment.Naming
import ScriptTyping.Proofs.Environment.Import
import ScriptTyping.Proofs.Outcome.Functions
import ScriptTyping.Proofs.Outcome.Stores
import ScriptTyping.Proofs.Outcome.Failures
import ScriptTyping.Proofs.Outcome.Recovery
import ScriptTyping.Proofs.Locality.Visit
import ScriptTyping.Proofs.Ownership.Visit
import ScriptTyping.Proofs.Ownership.Treelike
import ScriptTyping.Proofs.Outcome.Scopes
import ScriptTyping.Proofs.Outcome.Frame
import ScriptTyping.Proofs.Outcome.Safety
import ScriptTyping.Proofs.Outcome.Units
import ScriptTyping.Proofs.Registry.Enlarging
import ScriptTyping.Proofs.Overload.Monotone
import ScriptTyping.Proofs.Overload.Never
import ScriptTyping.Proofs.Environment.Enlarging
import ScriptTyping.Proofs.Plain.Outcome
import ScriptTyping.Proofs.Outcome.Declarations
import ScriptTyping.Proofs.Outcome.Globals
import ScriptTyping.Proofs.Environment.Commute
import ScriptTyping.Proofs.Environment.Globals
import ScriptTyping.Proofs.Environment.GlobalTable
import ScriptTyping.Proofs.Outcome.Session
import ScriptTyping.Proofs.Outcome.Descent
import ScriptTyping.Proofs.Outcome.Dispatch
import ScriptTyping.Proofs.Outcome.Indexers
import ScriptTyping.Proofs.Overload.Coherence
import ScriptTyping.Proofs.Overload.Namespaces
import ScriptTyping.Proofs.Findings.Places
import ScriptTyping.Proofs.Findings.Step
import ScriptTyping.Proofs.Findings.Expression
import ScriptTyping.Proofs.Findings.Statement
import ScriptTyping.Proofs.Findings.Session
import ScriptTyping.Proofs.Json.Value
import ScriptTyping.Proofs.Syntax.Dump
import ScriptTyping.Proofs.Outcome.Dump
import ScriptTyping.Proofs.Json.Decimal
import ScriptTyping.Proofs.Overload.Rejections
import ScriptTyping.Proofs.Environment.Coercion
import ScriptTyping.Proofs.Environment.Operands
import ScriptTyping.Proofs.Registry.Index
import ScriptTyping.Proofs.Environment.Preorder
import ScriptTyping.Proofs.Outcome.Uniform
import ScriptTyping.Proofs.Environment.Enforcement
import ScriptTyping.Proofs.Outcome.Arguments
import ScriptTyping.Proofs.Outcome.Casts
import ScriptTyping.Proofs.Outcome.Methods
import ScriptTyping.Proofs.Outcome.Targets
import ScriptTyping.Proofs.Ty.Display
import ScriptTyping.Proofs.Environment.Annotation
import ScriptTyping.Proofs.Literal.Digits
import ScriptTyping.Proofs.Literal.Integer
import ScriptTyping.Proofs.Literal.Quoted
import ScriptTyping.Proofs.Text.LineIndex
import ScriptTyping.Proofs.Report.Lines
import ScriptTyping.Proofs.Report.Marks
import ScriptTyping.Proofs.Report.Range
import ScriptTyping.Proofs.Ty.Composition
import ScriptTyping.Proofs.Ty.Heads
import ScriptTyping.Proofs.Ownership.Edits
import ScriptTyping.Proofs.Scope.Nesting
