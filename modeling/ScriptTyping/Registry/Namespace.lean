import ScriptTyping.Registry.Basic
import ScriptTyping.Ty.Written

/-!
Namespace declarations: types and functions under one dotted path, with signatures as text, and
what importing one adds to a registry.
-/

namespace ScriptTyping

structure ConstructorDecl where
  params : List String := []
  generics : List String := []
  isVariadic : Bool := false
  deriving DecidableEq, Repr, Inhabited

structure FieldDecl where
  name : String
  type : String
  isStatic : Bool := false
  isReadonly : Bool := false
  deriving DecidableEq, Repr, Inhabited

structure MethodDecl where
  name : String
  params : List String := []
  returns : String := "void"
  isStatic : Bool := false
  generics : List String := []
  isVariadic : Bool := false
  deriving DecidableEq, Repr, Inhabited

structure FunctionDecl where
  name : String
  params : List String := []
  returns : String := "void"
  generics : List String := []
  isVariadic : Bool := false
  deriving DecidableEq, Repr, Inhabited

structure TypeDecl where
  name : String
  params : List String := []
  supertype : Option String := none
  constructors : List ConstructorDecl := []
  methods : List MethodDecl := []
  fields : List FieldDecl := []
  deriving DecidableEq, Repr, Inhabited

structure NamespaceDecl where
  path : String
  types : List TypeDecl := []
  functions : List FunctionDecl := []
  deriving DecidableEq, Repr, Inhabited

def readSignature (vars : List String) : List String → Except TypeTextError (List Ty)
  | [] => .ok []
  | text :: rest => do
    let ty ← Ty.ofText? vars text
    let types ← readSignature vars rest
    .ok (ty :: types)

namespace TypeDecl

def typeDef (decl : TypeDecl) (path : String) : TypeDef where
  name := decl.name
  params := decl.params
  supertype := decl.supertype
  home := some path

def self (decl : TypeDecl) : Ty :=
  if decl.params.isEmpty then .host decl.name
  else .generic decl.name ((List.range decl.params.length).map .var)

def fieldMember (decl : TypeDecl) (field : FieldDecl) : Except TypeTextError Member := do
  let type ← Ty.ofText? decl.params field.type
  .ok {
    owner := decl.name
    name := field.name
    kind := .field
    isStatic := field.isStatic
    isReadonly := field.isReadonly
    params := []
    result := type
    vars := decl.params
    ownerVars := decl.params.length }

def constructorMember (decl : TypeDecl) (ctor : ConstructorDecl) :
    Except TypeTextError Member := do
  let vars := decl.params ++ ctor.generics
  let params ← readSignature vars ctor.params
  .ok {
    owner := decl.name
    name := Member.constructorName
    kind := .constructor
    params := params
    result := decl.self
    isVariadic := ctor.isVariadic
    vars := vars
    ownerVars := decl.params.length }

def methodMember (decl : TypeDecl) (method : MethodDecl) : Except TypeTextError Member := do
  let vars := decl.params ++ method.generics
  let params ← readSignature vars method.params
  let result ← Ty.ofText? vars method.returns
  .ok {
    owner := decl.name
    name := method.name
    kind := .method
    isStatic := method.isStatic
    params := params
    result := result
    isVariadic := method.isVariadic
    vars := vars
    ownerVars := decl.params.length }

def members (decl : TypeDecl) : List (Except TypeTextError Member) :=
  decl.fields.map decl.fieldMember ++ decl.constructors.map decl.constructorMember ++
    decl.methods.map decl.methodMember

end TypeDecl

def FunctionDecl.member (decl : FunctionDecl) (path : String) : Except TypeTextError Member := do
  let params ← readSignature decl.generics decl.params
  let result ← Ty.ofText? decl.generics decl.returns
  .ok {
    owner := path
    name := decl.name
    kind := .function
    params := params
    result := result
    isVariadic := decl.isVariadic
    vars := decl.generics }

namespace NamespaceDecl

def typeDefs (decl : NamespaceDecl) : List TypeDef := decl.types.map (·.typeDef decl.path)

def members (decl : NamespaceDecl) : List (Except TypeTextError Member) :=
  decl.types.flatMap (·.members) ++ decl.functions.map (·.member decl.path)

end NamespaceDecl

namespace Registry

def addReadable (registry : Registry) :
    List (Except TypeTextError Member) → Registry × Option TypeTextError
  | [] => (registry, none)
  | .error error :: _ => (registry, some error)
  | .ok member :: rest => (registry.addMember member).addReadable rest

/-- Adds all types and then the members of a namespace. When a signature is wrong, what was added
before it stays. -/
def addNamespace (registry : Registry) (decl : NamespaceDecl) : Registry × Option TypeTextError :=
  (registry.addTypes decl.typeDefs).addReadable decl.members

end Registry

end ScriptTyping
