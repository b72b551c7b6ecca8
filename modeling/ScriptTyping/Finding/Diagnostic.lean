import ScriptTyping.Finding.Basic

/-!
Findings as diagnostics: a severity, a stable code, a message, a span and sometimes help.
-/

namespace ScriptTyping

inductive Severity where
  | error
  | warning
  deriving DecidableEq, Repr

structure Diagnostic where
  severity : Severity
  code : String
  message : String
  span : Span
  help : Option String := none
  deriving DecidableEq, Repr

def ErrorCause.code : ErrorCause → String
  | typeMismatch .. => "E0001"
  | missingChild .. => "E0002"
  | undefinedName .. => "E0003"
  | undefinedMember .. => "E0004"
  | mismatchedMember .. => "E0005"
  | duplicateDeclaration .. => "E0006"
  | readonlyAssignment .. => "E0007"
  | unresolvedRecursiveReturnType .. => "E0008"
  | invalidCast .. => "E0009"
  | typeImportFailure .. => "E0010"
  | undefinedType .. => "E0011"
  | returnOutsideFunction => "E0012"
  | unsupportedArity .. => "E0013"
  | unsupportedConstruct .. => "E0014"
  | notStatic .. => "E0015"

def WarningCause.code : WarningCause → String
  | malformedLiteral .. => "W0001"
  | untypedVariable .. => "W0002"
  | incompatibleInstanceOf .. => "W0003"

def ErrorCause.help? : ErrorCause → Option String
  | unresolvedRecursiveReturnType .. =>
    some "add an explicit return type, or return before the recursive call"
  | typeMismatch expected _ => if expected.prim?.isSome then some "use an explicit cast" else none
  | readonlyAssignment .. => some "readonly fields can only be read"
  | typeImportFailure .. => some "check the namespace path in the configuration"
  | _ => none

def CheckError.diagnostic (error : CheckError) : Diagnostic where
  severity := .error
  code := error.cause.code
  message := error.message
  span := error.span
  help := error.cause.help?

def CheckWarning.diagnostic (warning : CheckWarning) : Diagnostic where
  severity := .warning
  code := warning.cause.code
  message := warning.message
  span := warning.span

/-- Errors and warnings in the order of the source. Of those that start at the same place the
errors come first, and otherwise the one that was found first. -/
def diagnosticsOf (errors : List CheckError) (warnings : List CheckWarning) : List Diagnostic :=
  (errors.map (·.diagnostic) ++ warnings.map (·.diagnostic)).mergeSort fun left right =>
    left.span.start ≤ right.span.start

end ScriptTyping
