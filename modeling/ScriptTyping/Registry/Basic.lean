import ScriptTyping.Table
import ScriptTyping.Registry.Member

/-!
The registered host types and members. A lookup of members follows the declared supertypes, which
may form cycles or name types that are not registered.
-/

namespace ScriptTyping

structure Registry where
  types : Table TypeDef := {}
  members : Array Member := #[]
  deriving Repr, Inhabited

namespace Registry

def addType (registry : Registry) (typeDef : TypeDef) : Registry :=
  { registry with types := registry.types.insert typeDef.name typeDef }

def addMember (registry : Registry) (member : Member) : Registry :=
  { registry with members := registry.members.push member }

def addTypes (registry : Registry) (typeDefs : List TypeDef) : Registry :=
  typeDefs.foldl addType registry

def addMembers (registry : Registry) (members : List Member) : Registry :=
  members.foldl addMember registry

def type? (registry : Registry) (name : String) : Option TypeDef := registry.types.get? name

def hasType (registry : Registry) (name : String) : Bool := registry.types.contains name

def member (registry : Registry) (id : MemberId) : Member := registry.members[id]?.getD default

def supertype? (registry : Registry) (name : String) : Option String :=
  (registry.type? name).bind (·.supertype)

def chain (registry : Registry) : Nat → String → List String
  | 0, name => [name]
  | steps + 1, name =>
    name ::
      match registry.supertype? name with
      | none => []
      | some supertype => registry.chain steps supertype

/-- `name` and its declared supertypes, nearest first. Only registered types declare a supertype,
so as many steps as there are types reach all of them; on a cycle names come up again. -/
def lineage (registry : Registry) (name : String) : List String :=
  registry.chain registry.types.size name

def isSubtype (registry : Registry) (sub super : String) : Bool :=
  (registry.lineage sub).contains super

def positions (registry : Registry) (wanted : Member → Bool) : List MemberId :=
  (List.range registry.members.size).filter fun id => wanted (registry.member id)

def declared (registry : Registry) (owner name : String) (kind : MemberKind) : List MemberId :=
  registry.positions fun member =>
    member.kind == kind && member.kind != .function && member.name == name && member.owner == owner

/-- The members of that name and kind on `owner` and its supertypes, nearest first. Constructors
are not inherited. -/
def candidates (registry : Registry) (owner name : String) (kind : MemberKind) : List MemberId :=
  if kind = .constructor then registry.declared owner name kind
  else (registry.lineage owner).flatMap fun type => registry.declared type name kind

def constructors (registry : Registry) (owner : String) : List MemberId :=
  registry.candidates owner Member.constructorName .constructor

def functions (registry : Registry) (name : String) : List MemberId :=
  registry.positions fun member => member.kind == .function && member.name == name

end Registry

end ScriptTyping
