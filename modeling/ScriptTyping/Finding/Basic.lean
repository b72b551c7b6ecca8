import ScriptTyping.Syntax.Tag
import ScriptTyping.Text.Span

/-!
What checking finds: errors, which abort the statement that they occur in, and warnings.
-/

namespace ScriptTyping

inductive ErrorCause where
  /-- A construct lacks a child that its rule requires. -/
  | missingChild (construct : Tag) (label : Label)
  | undefinedName (name : String)
  /-- There is no candidate of that description. -/
  | undefinedMember (what : String)
  /-- There are candidates, but none accepts the arguments. -/
  | mismatchedMember (what : String) (rejected : List String)
  | duplicateDeclaration (name : String) (existing : Ty)
  | readonlyAssignment (name : String)
  /-- A function calls itself before its result type is known. -/
  | unresolvedRecursiveReturnType (name : String)
  | invalidCast (source target : Ty)
  | typeImportFailure (path reason : String)
  | typeMismatch (expected found : Ty)
  | undefinedType (name : String)
  | returnOutsideFunction
  /-- A function value is called with more arguments than an invoker takes. -/
  | unsupportedArity (arity most : Nat)
  /-- There is no rule for the construct. -/
  | unsupportedConstruct (tag : Tag)
  /-- A static access names a member of instances. -/
  | notStatic (name owner : String)
  deriving Repr

structure CheckError where
  cause : ErrorCause
  span : Span
  deriving Repr

inductive WarningCause where
  /-- A numeric literal is malformed and counts as zero. -/
  | malformedLiteral (text reason : String)
  /-- A variable has neither a type nor an initial value. -/
  | untypedVariable (name : String)
  /-- A type test that never succeeds was folded to false. -/
  | incompatibleInstanceOf (found target : Ty)
  deriving Repr

structure CheckWarning where
  cause : WarningCause
  span : Span
  deriving Repr

inductive Finding where
  | error (error : CheckError)
  | warning (warning : CheckWarning)
  deriving Repr

def ErrorCause.message : ErrorCause → String
  | missingChild construct label =>
    "syntax error: " ++ construct.title ++ " requires `" ++ label.title ++ "`"
  | undefinedName name => "undefined name: " ++ name
  | undefinedMember what => "undefined " ++ what
  | mismatchedMember what rejected =>
    "mismatched " ++ what ++ String.join (rejected.map fun line => "\n  " ++ line)
  | duplicateDeclaration name existing =>
    "already defined name: " ++ name ++ " as " ++ existing.text
  | readonlyAssignment name => "cannot assign to readonly field `" ++ name ++ "`"
  | unresolvedRecursiveReturnType name => "ambiguous return type in recursive call: " ++ name
  | invalidCast source target => "undefined cast: " ++ source.text ++ " => " ++ target.text
  | typeImportFailure path reason => "cannot import " ++ path ++ ": " ++ reason
  | typeMismatch expected found =>
    "type mismatch: expected `" ++ expected.text ++ "`, found `" ++ found.text ++ "`"
  | undefinedType name => "undefined type: " ++ name
  | returnOutsideFunction => "return must be inside function"
  | unsupportedArity arity most =>
    "unsupported number of parameters: " ++ toString arity ++ " (at most " ++ toString most ++ ")"
  | unsupportedConstruct tag => "unsupported type rule #" ++ tag.title
  | notStatic name owner => "not static field " ++ name ++ " of " ++ owner

def WarningCause.message : WarningCause → String
  | malformedLiteral text reason => "malformed literal `" ++ text ++ "`: " ++ reason
  | untypedVariable name => "type is not given for `" ++ name ++ "`; assuming Object"
  | incompatibleInstanceOf found target =>
    "incompatible instanceof operation: " ++ found.text ++ " is never " ++ target.text

def CheckError.message (error : CheckError) : String := error.cause.message

def CheckWarning.message (warning : CheckWarning) : String := warning.cause.message

end ScriptTyping
