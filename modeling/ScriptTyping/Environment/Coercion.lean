import ScriptTyping.Environment.Basic

/-!
When a value of one type may be used as another: as it is, or through an implicit conversion.
-/

namespace ScriptTyping

namespace Environment

def unbox (environment : Environment) (ty : Ty) : Ty :=
  match ty with
  | .named tyName =>
    match (environment.registry.type? tyName.name).bind (·.boxes) with
    | some prim => .prim prim
    | none => ty
  | _ => ty

/-- Whether host types are related: equal heads need equal arguments, a proper supertype takes
none. -/
def isAssignableHost (environment : Environment) (target source : Ty) : Bool :=
  match target.headName?, source.headName? with
  | some super, some sub =>
    if super = sub then target.args == source.args
    else target.args.isEmpty && environment.registry.isSubtype sub super
  | _, _ => false

def isAssignable (environment : Environment) (target source : Ty) : Bool :=
  target == source || source.isNever ||
    match target, source with
    | _, .void => false
    | .object, _ => true
    | .dynamic, _ => true
    | .named tyName, .fn _ _ => tyName.name == "Function"
    | .prim _, _ => false
    | _, .prim _ => false
    | _, _ => environment.isAssignableHost target source

end Environment

def castMember? (source target : Ty) : Option CastEntry :=
  (CastEntry.find? source target).filter (·.conversion.kind != .convert)

def convertMember? (source target : Ty) : Option CastEntry :=
  (CastEntry.find? source target).filter (·.conversion.kind == .convert)

def implicitCast? (source target : Ty) : Option MemberId :=
  ((CastEntry.find? source target).filter (·.conversion.kind == .widening)).map (·.member)

def Environment.canCoerce (environment : Environment) (source target : Ty) : Bool :=
  environment.isAssignable target source || (source.isDynamic && !target.isVoid) ||
    (implicitCast? source target).isSome

end ScriptTyping
