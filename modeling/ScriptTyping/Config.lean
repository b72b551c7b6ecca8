import ScriptTyping.Environment.Basic
import ScriptTyping.Toml.Reader

/-!
Configurations: the options of the checker, the namespaces that scripts may import, and those that
are imported at the start.
-/

namespace ScriptTyping

structure Config where
  options : Options := {}
  namespaces : List NamespaceDecl := []
  /-- The paths of the namespaces that are imported at the start. -/
  prelude : List String := []
  deriving DecidableEq, Repr, Inhabited

/-- The environment that a configuration describes. It needs all of the prelude to be imported. -/
def Environment.ofConfig (config : Config) : Except ImportError Environment :=
  (config.namespaces.foldl addNamespace (ofOptions config.options)).importAll config.prelude

/-! ### Reading -/

namespace Json

def fieldOr {α : Type} (default : α) (read : Json → Option α) : Option Json → Option α
  | none => some default
  | some json => read json

def listOf? {α : Type} (read : Json → Option α) (json : Json) : Option (List α) :=
  json.items?.bind (·.mapM read)

def texts? (json : Json) : Option (List String) := json.listOf? string?

end Json

open Json

def ConstructorDecl.ofJson? (surplus : Surplus) (json : Json) : Option ConstructorDecl := do
  match ← json.record? surplus ["params", "generics", "variadic"] with
  | [params, generics, variadic] =>
    let params ← fieldOr [] texts? params
    let generics ← fieldOr [] texts? generics
    let isVariadic ← fieldOr false bool? variadic
    some { params, generics, isVariadic }
  | _ => none

def MethodDecl.ofJson? (surplus : Surplus) (json : Json) : Option MethodDecl := do
  match ← json.record? surplus
    ["name", "params", "returns", "static", "generics", "variadic"] with
  | [some name, params, returns, static, generics, variadic] =>
    let name ← name.string?
    let params ← fieldOr [] texts? params
    let returns ← fieldOr "void" string? returns
    let isStatic ← fieldOr false bool? static
    let generics ← fieldOr [] texts? generics
    let isVariadic ← fieldOr false bool? variadic
    some { name, params, returns, isStatic, generics, isVariadic }
  | _ => none

def FieldDecl.ofJson? (surplus : Surplus) (json : Json) : Option FieldDecl := do
  match ← json.record? surplus ["name", "type", "static", "readonly"] with
  | [some name, some type, static, readonly] =>
    let name ← name.string?
    let type ← type.string?
    let isStatic ← fieldOr false bool? static
    let isReadonly ← fieldOr false bool? readonly
    some { name, type, isStatic, isReadonly }
  | _ => none

def FunctionDecl.ofJson? (surplus : Surplus) (json : Json) : Option FunctionDecl := do
  match ← json.record? surplus ["name", "params", "returns", "generics", "variadic"] with
  | [some name, params, returns, generics, variadic] =>
    let name ← name.string?
    let params ← fieldOr [] texts? params
    let returns ← fieldOr "void" string? returns
    let generics ← fieldOr [] texts? generics
    let isVariadic ← fieldOr false bool? variadic
    some { name, params, returns, generics, isVariadic }
  | _ => none

def TypeDecl.ofJson? (surplus : Surplus) (json : Json) : Option TypeDecl := do
  match ← json.record? surplus
    ["name", "params", "extends", "constructors", "methods", "fields"] with
  | [some name, params, supertype, constructors, methods, fields] =>
    let name ← name.string?
    let params ← fieldOr [] texts? params
    let supertype ← fieldOr none (·.nullable string?) supertype
    let constructors ← fieldOr [] (·.listOf? (ConstructorDecl.ofJson? surplus)) constructors
    let methods ← fieldOr [] (·.listOf? (MethodDecl.ofJson? surplus)) methods
    let fields ← fieldOr [] (·.listOf? (FieldDecl.ofJson? surplus)) fields
    some { name, params, supertype, constructors, methods, fields }
  | _ => none

def NamespaceDecl.ofJson? (surplus : Surplus) (json : Json) : Option NamespaceDecl := do
  match ← json.record? surplus ["path", "types", "functions"] with
  | [some path, types, functions] =>
    let path ← path.string?
    let types ← fieldOr [] (·.listOf? (TypeDecl.ofJson? surplus)) types
    let functions ← fieldOr [] (·.listOf? (FunctionDecl.ofJson? surplus)) functions
    some { path, types, functions }
  | _ => none

def Options.ofJson? (surplus : Surplus) (json : Json) : Option Options := do
  match ← json.record? surplus ["shell_mode", "max_invoke_arity"] with
  | [shellMode, maxInvokeArity] =>
    let shellMode ← fieldOr false bool? shellMode
    let maxInvokeArity ← fieldOr 8 (·.word? 64) maxInvokeArity
    some { shellMode, maxInvokeArity }
  | _ => none

def Config.ofJson? (surplus : Surplus) (json : Json) : Option Config := do
  match ← json.record? surplus ["checker", "namespace", "prelude"] with
  | [options, namespaces, prelude] =>
    let options ← fieldOr {} (Options.ofJson? surplus) options
    let namespaces ← fieldOr [] (·.listOf? (NamespaceDecl.ofJson? surplus)) namespaces
    let prelude ← fieldOr [] texts? prelude
    some { options, namespaces, prelude }
  | _ => none

def Config.ofToml? (text : String) : Option Config :=
  (Json.ofToml? text).bind (ofJson? .ignored)

end ScriptTyping
