import ScriptTyping.Environment.Basic

/-!
The types that names and annotations denote in an environment.
-/

namespace ScriptTyping

namespace TypeDef

def tyName (typeDef : TypeDef) (name : String) : TyName := ⟨name, typeDef.home⟩

end TypeDef

inductive AnnotationError where
  | malformed (error : TypeTextError)
  | unregistered (name : String)
  deriving DecidableEq, Repr

/-- The name that messages give for an annotation: the first that is not registered, or the whole
text when that is not a type. -/
def AnnotationError.culprit (text : String) : AnnotationError → String
  | malformed _ => text
  | unregistered name => name

namespace Environment

def typeNamed? (environment : Environment) (name : String) : Option Ty :=
  match Prim.ofName? name with
  | some prim => some (.prim prim)
  | none =>
    if name = "void" then some .void
    else if name = "Object" then some .object
    else if name = "dynamic" then some .dynamic
    else
      (environment.registry.type? name).map fun typeDef =>
        if typeDef.params.isEmpty then .named (typeDef.tyName name)
        else .applied (typeDef.tyName name) (typeDef.params.map fun _ => .object)

/-- The name with the namespace of the registered type; a type that no namespace declares keeps
the name as it is. -/
def qualifyName (environment : Environment) (tyName : TyName) : Except String TyName :=
  match environment.registry.type? tyName.name with
  | none => .error tyName.name
  | some typeDef =>
    .ok (match typeDef.home with
      | some home => ⟨tyName.name, some home⟩
      | none => tyName)

mutual

def qualify (environment : Environment) : Ty → Except String Ty
  | .named tyName => do
    let tyName ← environment.qualifyName tyName
    .ok (.named tyName)
  | .applied head args => do
    let head ← environment.qualifyName head
    let args ← environment.qualifyAll args
    .ok (.applied head args)
  | .fn params result => do
    let params ← environment.qualifyAll params
    let result ← environment.qualify result
    .ok (.fn params result)
  | ty => .ok ty

def qualifyAll (environment : Environment) : List Ty → Except String (List Ty)
  | [] => .ok []
  | ty :: rest => do
    let ty ← environment.qualify ty
    let types ← environment.qualifyAll rest
    .ok (ty :: types)

end

def resolveType (environment : Environment) (text : String) : Except AnnotationError Ty :=
  match Ty.ofText? [] text with
  | .error error => .error (.malformed error)
  | .ok ty =>
    match environment.qualify ty with
    | .error name => .error (.unregistered name)
    | .ok ty => .ok ty

end Environment

end ScriptTyping
