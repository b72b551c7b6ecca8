import ScriptTyping.Registry.Namespace
import ScriptTyping.Registry.Builtin

/-!
What outlives the checking of one unit: the registry, the namespaces that can be imported and those
that are, and the global variables.
-/

namespace ScriptTyping

structure Options where
  /-- Whether an assignment to an unknown name outside functions declares a global. -/
  shellMode : Bool := false
  /-- The largest number of arguments of a call through an untyped function value. -/
  maxInvokeArity : Nat := 8
  deriving DecidableEq, Repr, Inhabited

abbrev GlobalId := Nat

structure Global where
  name : String
  ty : Ty
  deriving Repr, Inhabited

def Global.symbol (global : Global) (id : GlobalId) : String :=
  "g" ++ toString id ++ "_" ++ global.name

structure Environment where
  registry : Registry
  options : Options := {}
  library : Table NamespaceDecl := {}
  imported : List String := []
  globals : Array Global := #[]
  deriving Repr, Inhabited

inductive ImportError where
  | undefinedNamespace (path : String)
  | badSignature (error : TypeTextError)
  deriving DecidableEq, Repr

def ImportError.message : ImportError → String
  | undefinedNamespace path => "undefined namespace `" ++ path ++ "`"
  | badSignature error => error.message

namespace Environment

def ofOptions (options : Options) : Environment where
  registry := Builtin.registry options.maxInvokeArity
  options := options

/-! ### Namespaces -/

def addNamespace (environment : Environment) (decl : NamespaceDecl) : Environment :=
  { environment with library := environment.library.insert decl.path decl }

def isImported (environment : Environment) (path : String) : Bool :=
  environment.imported.contains path

/-- Registers what the namespace declares, once. A namespace with a bad signature is not imported,
but what it declares before that signature stays registered. -/
def importNamespace (environment : Environment) (path : String) :
    Environment × Option ImportError :=
  if environment.isImported path then (environment, none)
  else
    match environment.library.get? path with
    | none => (environment, some (.undefinedNamespace path))
    | some decl =>
      match environment.registry.addNamespace decl with
      | (registry, some error) =>
        ({ environment with registry := registry }, some (.badSignature error))
      | (registry, none) =>
        ({ environment with
            registry := registry
            imported := path :: environment.imported }, none)

def importAll (environment : Environment) : List String → Except ImportError Environment
  | [] => .ok environment
  | path :: rest =>
    match environment.importNamespace path with
    | (_, some error) => .error error
    | (environment, none) => environment.importAll rest

/-! ### Globals -/

def globalId? (environment : Environment) (name : String) : Option GlobalId :=
  environment.globals.findIdx? (·.name == name)

def hasGlobal (environment : Environment) (name : String) : Bool :=
  (environment.globalId? name).isSome

def global (environment : Environment) (id : GlobalId) : Global :=
  environment.globals[id]?.getD default

/-- Declares a global. A second declaration with the same type gives the existing global; one with
another type fails with the existing type. -/
def declareGlobal (environment : Environment) (name : String) (ty : Ty) :
    Except Ty (Environment × GlobalId) :=
  match environment.globalId? name with
  | some id =>
    let existing := environment.global id
    if existing.ty == ty then .ok (environment, id) else .error existing.ty
  | none =>
    .ok ({ environment with globals := environment.globals.push ⟨name, ty⟩ },
      environment.globals.size)

end Environment

end ScriptTyping
